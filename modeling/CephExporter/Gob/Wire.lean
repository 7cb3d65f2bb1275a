import Mathlib.Tactic.Ring
import CephExporter.Go.Utf8

/-! # Gob wire primitives

The building blocks of `encoding/gob` that `mdsLabels.Hash` and `UnHash` go
through: unsigned and signed integers, strings, and the length-prefixed
messages a stream is cut into. Each decoder is stated against its encoder with
an arbitrary tail, so that the round trips compose.
-/

namespace CephExporter.Gob

/-- What a gob decoder can fail with. The model keeps the kinds apart but not
the texts: `UnHash`'s caller discards the error. `eof` stands for both `io.EOF`
and `io.ErrUnexpectedEOF`, `badLength` for a string or slice longer than what
is left of its message, `notUtf8` for bytes the model needs as characters, and
`unsupported` for the wire types it does not decode (arrays, maps, custom
encoders); the others are gob's errors of the same names. -/
inductive GobError
  | eof
  | badUint
  | badCount
  | badLength
  | notUtf8
  | duplicateType
  | extraData
  | badType
  | typeMismatch
  | emptyName
  | wrongType
  | fieldRange
  | unsupported
  deriving DecidableEq, Repr

/-- `tooBig`: the limit on a message, `(1 << 30) << (^uint(0) >> 62)`, which is
8 GiB on a 64-bit platform. -/
def tooBig : Nat := 2 ^ 33

@[simp] theorem ok_bind {α β : Type} (a : α) (f : α → Except GobError β) :
    (Except.ok a >>= f) = f a := rfl

@[simp] theorem error_bind {α β : Type} (e : GobError) (f : α → Except GobError β) :
    (Except.error e >>= f : Except GobError β) = .error e := rfl

theorem toNat_ofNat (n : Nat) : (UInt8.ofNat n).toNat = n % 256 := by
  simp [UInt8.ofNat, UInt8.toNat, BitVec.toNat_ofNat]

/-! ### Unsigned integers -/

/-- The bytes of `x` modulo `256 ^ k`, most significant first; with `k = 8`,
`binary.BigEndian.PutUint64`. -/
def bigEndian : Nat → Nat → List UInt8
  | 0, _ => []
  | k + 1, x => bigEndian k (x / 256) ++ [UInt8.ofNat (x % 256)]

def fromBigEndian (bs : List UInt8) : Nat := bs.foldl (fun x b => x * 256 + b.toNat) 0

@[simp] theorem length_bigEndian (k x : Nat) : (bigEndian k x).length = k := by
  induction k generalizing x <;> simp [bigEndian, *]

theorem fromBigEndian_bigEndian (k x : Nat) : fromBigEndian (bigEndian k x) = x % 256 ^ k := by
  induction k generalizing x with
  | zero => simp [bigEndian, fromBigEndian, Nat.mod_one]
  | succ k ih =>
    rw [bigEndian, fromBigEndian, List.foldl_append, ← fromBigEndian, ih]
    simp only [List.foldl_cons, List.foldl_nil, toNat_ofNat, Nat.mod_mod]
    rw [pow_succ', Nat.mod_mul]
    ring

theorem fromBigEndian_dropWhile (bs : List UInt8) :
    fromBigEndian (bs.dropWhile (· == 0)) = fromBigEndian bs := by
  induction bs with
  | nil => rfl
  | cons b bs ih =>
    by_cases hb : b = 0
    · subst hb
      simpa [List.dropWhile_cons] using ih
    · simp [List.dropWhile_cons, hb]

/-- `encoderState.encodeUint`: below 128 one byte; otherwise the big-endian bytes
without their leading zeros, after a byte holding their count negated. -/
def encodeUint (x : Nat) : List UInt8 :=
  if x ≤ 0x7f then [UInt8.ofNat x]
  else
    let bs := (bigEndian 8 x).dropWhile (· == 0)
    UInt8.ofNat (256 - bs.length) :: bs

def decodeUint : List UInt8 → Except GobError (Nat × List UInt8)
  | [] => .error .eof
  | b :: bs =>
    if b.toNat ≤ 0x7f then .ok (b.toNat, bs)
    else if 8 < 256 - b.toNat then .error .badUint
    else if bs.length < 256 - b.toNat then .error .eof
    else .ok (fromBigEndian (bs.take (256 - b.toNat)), bs.drop (256 - b.toNat))

theorem encodeUint_ne_nil (x : Nat) : encodeUint x ≠ [] := by
  unfold encodeUint; split <;> simp

theorem significant_bytes {x : Nat} (hx : x < 2 ^ 64) (h : ¬x ≤ 0x7f) :
    fromBigEndian ((bigEndian 8 x).dropWhile (· == 0)) = x ∧
      0 < ((bigEndian 8 x).dropWhile (· == 0)).length ∧
      ((bigEndian 8 x).dropWhile (· == 0)).length ≤ 8 := by
  have hv : fromBigEndian ((bigEndian 8 x).dropWhile (· == 0)) = x := by
    rw [fromBigEndian_dropWhile, fromBigEndian_bigEndian, Nat.mod_eq_of_lt (by simpa using hx)]
  refine ⟨hv, List.length_pos.mpr fun he => ?_, ?_⟩
  · rw [he] at hv
    simp [fromBigEndian] at hv
    omega
  · simpa using (List.dropWhile_suffix (· == 0) (l := bigEndian 8 x)).length_le

theorem decodeUint_encodeUint {x : Nat} (hx : x < 2 ^ 64) (rest : List UInt8) :
    decodeUint (encodeUint x ++ rest) = .ok (x, rest) := by
  unfold encodeUint
  split_ifs with h
  · simp [decodeUint, toNat_ofNat, Nat.mod_eq_of_lt (show x < 256 by omega), h]
  · obtain ⟨hv, hpos, hle⟩ := significant_bytes hx h
    generalize (bigEndian 8 x).dropWhile (· == 0) = bs at hv hpos hle
    have hb : (UInt8.ofNat (256 - bs.length)).toNat = 256 - bs.length := by
      rw [toNat_ofNat]; omega
    simp only [List.cons_append, decodeUint, hb, List.length_append]
    rw [if_neg (by omega), if_neg (by omega), if_neg (by omega)]
    simp [show 256 - (256 - bs.length) = bs.length by omega, hv]

/-! ### Signed integers and strings -/

/-- `encoderState.encodeInt`: the sign in the low bit, above it the magnitude,
complemented when negative. -/
def encodeInt (i : Int) : List UInt8 :=
  encodeUint (if i < 0 then (-i - 1).toNat * 2 + 1 else i.toNat * 2)

def decodeInt (bs : List UInt8) : Except GobError (Int × List UInt8) := do
  let (x, bs) ← decodeUint bs
  pure (if x % 2 = 1 then -((x / 2 : Nat) : Int) - 1 else ((x / 2 : Nat) : Int), bs)

theorem decodeInt_encodeInt {i : Int} (hi : i.natAbs < 2 ^ 62) (rest : List UInt8) :
    decodeInt (encodeInt i ++ rest) = .ok (i, rest) := by
  unfold encodeInt decodeInt
  split_ifs with h
  · rw [decodeUint_encodeUint (by omega)]
    simp only [ok_bind, pure, Except.pure, Except.ok.injEq, Prod.mk.injEq, and_true]
    rw [if_pos (by omega)]
    omega
  · rw [decodeUint_encodeUint (by omega)]
    simp only [ok_bind, pure, Except.pure, Except.ok.injEq, Prod.mk.injEq, and_true]
    rw [if_neg (by omega)]
    omega

def encodeString (s : String) : List UInt8 :=
  encodeUint (Utf8.bytes s).length ++ Utf8.bytes s

/-- `decString`: a length that `getLength` accepts, then that many bytes. -/
def decodeString (bs : List UInt8) : Except GobError (String × List UInt8) := do
  let (n, bs) ← decodeUint bs
  if tooBig ≤ n ∨ bs.length < n then throw .badLength
  match Utf8.decode (bs.take n) with
  | some cs => pure (⟨cs⟩, bs.drop n)
  | none => throw .notUtf8

theorem decodeString_encodeString {s : String} (hs : (Utf8.bytes s).length < tooBig)
    (rest : List UInt8) : decodeString (encodeString s ++ rest) = .ok (s, rest) := by
  unfold decodeString encodeString
  rw [List.append_assoc, decodeUint_encodeUint (lt_trans hs (by decide))]
  simp [not_le.mpr hs, Utf8.decode_bytes]
  rfl

/-! ### Messages -/

/-- `Encoder.writeMessage`: the body's byte count, then the body; `none` for a
body of `tooBig` bytes or more, which the encoder refuses to write. -/
def writeMessage (body : List UInt8) : Option (List UInt8) :=
  if tooBig ≤ body.length then none else some (encodeUint body.length ++ body)

/-- `Decoder.recvMessage`: a count below `tooBig`, then that many bytes. -/
def recvMessage (bs : List UInt8) : Except GobError (List UInt8 × List UInt8) := do
  let (n, bs) ← decodeUint bs
  if tooBig ≤ n then throw .badCount
  if bs.length < n then throw .eof
  pure (bs.take n, bs.drop n)

theorem writeMessage_of_lt {body : List UInt8} (h : body.length < tooBig) :
    writeMessage body = some (encodeUint body.length ++ body) := by
  simp [writeMessage, not_le.mpr h]

theorem recvMessage_frame {body : List UInt8} (h : body.length < tooBig) (rest : List UInt8) :
    recvMessage ((encodeUint body.length ++ body) ++ rest) = .ok (body, rest) := by
  unfold recvMessage
  rw [List.append_assoc, decodeUint_encodeUint (lt_trans h (by decide))]
  simp [not_le.mpr h]
  rfl

theorem writeMessage_isSome {body : List UInt8} :
    (writeMessage body).isSome ↔ body.length < tooBig := by
  unfold writeMessage; split_ifs <;> simp <;> omega

end CephExporter.Gob
