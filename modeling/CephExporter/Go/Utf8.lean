import Mathlib.Data.List.Basic
import Mathlib.Algebra.Group.Nat.Basic

/-! # Go strings as UTF-8 bytes

A Go `string` is a byte string. Every string this exporter handles is decoded
from JSON or cut out of one at an ASCII character, so it is valid UTF-8, and
the model writes it as a Lean `String`. Where the bytes matter (gob's length
prefixes and message sizes), a string stands for its UTF-8 encoding.
-/

namespace CephExporter.Utf8

/-- The bytes of a Go string: its UTF-8 encoding, laid out as `String.toUTF8`. -/
def bytes (s : String) : List UInt8 := s.data.flatMap String.utf8EncodeChar

def IsCont (b : UInt8) : Prop := b.toNat / 64 = 2

instance (b : UInt8) : Decidable (IsCont b) := inferInstanceAs (Decidable (_ = _))

/-- The character UTF-8 bytes start with, and the bytes after it; `none` when a
lead byte lacks its continuation bytes. -/
def decodeChar? : List UInt8 → Option (Char × List UInt8)
  | [] => none
  | b₀ :: bs =>
    if b₀.toNat < 0x80 then some (Char.ofNat b₀.toNat, bs)
    else if b₀.toNat < 0xe0 then
      match bs with
      | b₁ :: bs =>
        if IsCont b₁ then some (Char.ofNat (b₀.toNat % 32 * 64 + b₁.toNat % 64), bs) else none
      | [] => none
    else if b₀.toNat < 0xf0 then
      match bs with
      | b₁ :: b₂ :: bs =>
        if IsCont b₁ ∧ IsCont b₂ then
          some (Char.ofNat (b₀.toNat % 16 * 4096 + b₁.toNat % 64 * 64 + b₂.toNat % 64), bs)
        else none
      | _ => none
    else
      match bs with
      | b₁ :: b₂ :: b₃ :: bs =>
        if IsCont b₁ ∧ IsCont b₂ ∧ IsCont b₃ then
          some (Char.ofNat (b₀.toNat % 8 * 262144 + b₁.toNat % 64 * 4096 +
            b₂.toNat % 64 * 64 + b₃.toNat % 64), bs)
        else none
      | _ => none

theorem length_lt_of_decodeChar? {bs rest : List UInt8} {c : Char}
    (h : decodeChar? bs = some (c, rest)) : rest.length < bs.length := by
  match bs with
  | [] => simp [decodeChar?] at h
  | b₀ :: bs =>
    simp only [decodeChar?] at h
    split_ifs at h <;> (try split at h) <;> (try split_ifs at h) <;>
      simp only [Option.some.injEq, Prod.mk.injEq, reduceCtorEq] at h <;>
      (obtain ⟨-, rfl⟩ := h) <;> simp <;> omega

/-- Reads UTF-8 bytes back as characters: the inverse of `bytes`. A gob string is
a byte string; the model's strings are characters, and this is how one becomes
the other. -/
def decode (bs : List UInt8) : Option (List Char) :=
  match bs with
  | [] => some []
  | b :: bs' =>
    match h : decodeChar? (b :: bs') with
    | some (c, rest) =>
      have := length_lt_of_decodeChar? h
      (c :: ·) <$> decode rest
    | none => none
termination_by bs.length

@[simp] theorem bytes_append (s t : String) : bytes (s ++ t) = bytes s ++ bytes t := by
  simp [bytes]

theorem length_bytes (s : String) : (bytes s).length = s.utf8ByteSize := by
  have h := String.size_toUTF8 s
  simpa [String.toUTF8, ByteArray.size, Array.size, bytes] using h

theorem length_bytes_replicate (n : Nat) (c : Char) :
    (bytes ⟨List.replicate n c⟩).length = n * c.utf8Size := by
  induction n with
  | zero => simp [bytes]
  | succ n ih =>
    simp only [bytes, List.replicate_succ, List.flatMap_cons, List.length_append,
      String.length_utf8EncodeChar] at ih ⊢
    rw [ih, Nat.succ_mul, Nat.add_comm]

/-! ### The byte arithmetic of `String.utf8EncodeChar` -/

section Bits

theorem toNat_and (a b : UInt8) : (a &&& b).toNat = a.toNat &&& b.toNat := BitVec.toNat_and ..

theorem toNat_or (a b : UInt8) : (a ||| b).toNat = a.toNat ||| b.toNat := BitVec.toNat_or ..

theorem toNat_toUInt8 (v : UInt32) : v.toUInt8.toNat = v.toNat % 256 := by
  simp [UInt32.toUInt8, Nat.toUInt8, UInt8.ofNat, UInt8.toNat, BitVec.toNat_ofNat]

theorem toNat_shiftRight (v : UInt32) (k : UInt32) (hk : k.toNat < 32) :
    (v >>> k).toNat = v.toNat / 2 ^ k.toNat := by
  show (v.toBitVec >>> (k % 32).toBitVec).toNat = _
  rw [BitVec.ushiftRight_eq', BitVec.toNat_ushiftRight, Nat.shiftRight_eq_div_pow]
  congr 2
  show (k.toNat % 32) = _
  omega

theorem or_lead1 : ∀ y < 32, y ||| 192 = y + 192 := by decide
theorem or_lead2 : ∀ y < 16, y ||| 224 = y + 224 := by decide
theorem or_lead3 : ∀ y < 8, y ||| 240 = y + 240 := by decide
theorem or_cont : ∀ y < 64, y ||| 128 = y + 128 := by decide

theorem le_iff_toNat (a b : UInt32) : a ≤ b ↔ a.toNat ≤ b.toNat := by
  rw [UInt32.le_def, BitVec.le_def]; rfl

theorem byte_ascii (v : UInt32) (h : v.toNat ≤ 0x7f) : v.toUInt8.toNat = v.toNat := by
  rw [toNat_toUInt8]; omega

theorem byte_cont (v : UInt32) : (v.toUInt8 &&& 0x3f ||| 0x80).toNat = v.toNat % 64 + 128 := by
  rw [toNat_or, toNat_and, toNat_toUInt8]
  show (v.toNat % 256 &&& 63) ||| 128 = _
  rw [Nat.and_pow_two_sub_one_eq_mod _ 6, or_cont _ (Nat.mod_lt _ (by decide))]
  omega

theorem byte_cont_shift (v : UInt32) (k : UInt32) (hk : k.toNat < 32) :
    ((v >>> k).toUInt8 &&& 0x3f ||| 0x80).toNat = v.toNat / 2 ^ k.toNat % 64 + 128 := by
  rw [byte_cont, toNat_shiftRight v k hk]

theorem byte_lead2 (v : UInt32) :
    ((v >>> 6).toUInt8 &&& 0x1f ||| 0xc0).toNat = v.toNat / 64 % 32 + 192 := by
  rw [toNat_or, toNat_and, toNat_toUInt8, toNat_shiftRight v 6 (by decide)]
  show ((v.toNat / 64 % 256) &&& 31) ||| 192 = _
  rw [Nat.and_pow_two_sub_one_eq_mod _ 5, or_lead1 _ (Nat.mod_lt _ (by decide))]
  omega

theorem byte_lead3 (v : UInt32) :
    ((v >>> 12).toUInt8 &&& 0x0f ||| 0xe0).toNat = v.toNat / 4096 % 16 + 224 := by
  rw [toNat_or, toNat_and, toNat_toUInt8, toNat_shiftRight v 12 (by decide)]
  show ((v.toNat / 4096 % 256) &&& 15) ||| 224 = _
  rw [Nat.and_pow_two_sub_one_eq_mod _ 4, or_lead2 _ (Nat.mod_lt _ (by decide))]
  omega

theorem byte_lead4 (v : UInt32) :
    ((v >>> 18).toUInt8 &&& 0x07 ||| 0xf0).toNat = v.toNat / 262144 % 8 + 240 := by
  rw [toNat_or, toNat_and, toNat_toUInt8, toNat_shiftRight v 18 (by decide)]
  show ((v.toNat / 262144 % 256) &&& 7) ||| 240 = _
  rw [Nat.and_pow_two_sub_one_eq_mod _ 3, or_lead3 _ (Nat.mod_lt _ (by decide))]
  omega

end Bits

theorem decodeChar?_encodeChar (c : Char) (rest : List UInt8) :
    decodeChar? (String.utf8EncodeChar c ++ rest) = some (c, rest) := by
  have hc := c.valid
  simp only [UInt32.isValidChar, Nat.isValidChar] at hc
  have hv : Char.ofNat c.val.toNat = c := Char.ofNat_toNat c
  simp only [String.utf8EncodeChar, le_iff_toNat, UInt32.reduceToNat]
  split_ifs with h₁ h₂ h₃
  · simp only [List.singleton_append, decodeChar?, byte_ascii _ h₁,
      if_pos (show c.val.toNat < 0x80 by omega), hv]
  · simp only [List.cons_append, List.nil_append, decodeChar?, IsCont, byte_lead2, byte_cont]
    rw [if_neg (by omega), if_pos (by omega), if_pos (by omega)]
    refine congrArg (fun x => some (x, rest)) ((congrArg Char.ofNat ?_).trans hv)
    omega
  · simp only [List.cons_append, List.nil_append, decodeChar?, IsCont, byte_lead3, byte_cont,
      byte_cont_shift _ 6 (by decide), UInt32.reduceToNat]
    rw [if_neg (by omega), if_neg (by omega), if_pos (by omega), if_pos (by omega)]
    refine congrArg (fun x => some (x, rest)) ((congrArg Char.ofNat ?_).trans hv)
    omega
  · simp only [List.cons_append, List.nil_append, decodeChar?, IsCont, byte_lead4, byte_cont,
      byte_cont_shift _ 6 (by decide), byte_cont_shift _ 12 (by decide), UInt32.reduceToNat]
    rw [if_neg (by omega), if_neg (by omega), if_neg (by omega), if_pos (by omega)]
    refine congrArg (fun x => some (x, rest)) ((congrArg Char.ofNat ?_).trans hv)
    omega

theorem decode_append_encodeChar (c : Char) (rest : List UInt8) :
    decode (String.utf8EncodeChar c ++ rest) = (c :: ·) <$> decode rest := by
  obtain ⟨b, bs, hb⟩ : ∃ b bs, String.utf8EncodeChar c ++ rest = b :: bs := by
    cases h : String.utf8EncodeChar c with
    | nil =>
      have := String.length_utf8EncodeChar c
      rw [h] at this
      exact absurd this.symm (Char.utf8Size_pos c).ne'
    | cons b bs => exact ⟨b, bs ++ rest, rfl⟩
  have h := decodeChar?_encodeChar c rest
  rw [hb] at h ⊢
  rw [decode]
  split <;> simp_all

theorem decode_bytes (s : String) : decode (bytes s) = some s.data := by
  obtain ⟨cs⟩ := s
  induction cs with
  | nil => simp [bytes, decode]
  | cons c cs ih =>
    simp only [bytes, List.flatMap_cons] at ih ⊢
    rw [decode_append_encodeChar, ih]
    rfl

end CephExporter.Utf8