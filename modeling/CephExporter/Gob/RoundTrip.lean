import Mathlib.Algebra.Order.BigOperators.Group.List
import CephExporter.Gob.Struct

/-! # Decoding what was encoded

A fresh decoder reading a fresh encoder's output into the zero value gets the
value back. The proof follows the stream: the type message, whose `wireType`
is three nested structs and a slice, then the value message, whose fields the
compiled decoder stores by name. When the value's message is over `tooBig`,
the encoder writes the type alone and the decoder stops at the end of input.
-/

namespace CephExporter.Gob

variable {σ : Type}

theorem decodeFields_zero_delta (n : Nat) (op : FieldOp σ) (fuel next : Nat) (s : σ) (rest : List UInt8) :
    decodeFields n op (fuel + 1) next s (0 :: rest) = (s, .ok rest) := rfl

theorem decodeFields_delta (n : Nat) (op : FieldOp σ) (fuel next delta : Nat) (s : σ)
    (tail : List UInt8) (hd : delta + 1 < 2 ^ 64) :
    decodeFields n op (fuel + 1) next s (encodeUint (delta + 1) ++ tail) =
      if n < next + delta + 1 then (s, .error .fieldRange)
      else match op (next + delta) s tail with
        | .error e => (s, .error e)
        | .ok (s', rest') => decodeFields n op fuel (next + delta + 1) s' rest' := by
  obtain ⟨b, bs, hbs⟩ : ∃ b bs, encodeUint (delta + 1) ++ tail = b :: bs := by
    cases h : encodeUint (delta + 1) with
    | nil => exact absurd h (encodeUint_ne_nil _)
    | cons b bs => exact ⟨b, bs ++ tail, rfl⟩
  rewrite [hbs, decodeFields, ← hbs, decodeUint_encodeUint hd]
  rfl

/-- A struct's fields as the encoder sends them and as the decoder applies them:
each present field's bytes and its effect on the value being decoded. -/
abbrev Sent (σ : Type) := List (Option (List UInt8 × (σ → σ)))

theorem length_filterMap_le (fs : Sent σ) (i next : Nat) :
    (fs.filterMap id).length ≤ (encodeFields (fs.map (Option.map Prod.fst)) i next).length := by
  induction fs generalizing i next with
  | nil => simp [encodeFields]
  | cons f fs ih =>
    cases f with
    | none => simpa [encodeFields] using ih (i + 1) next
    | some p =>
      have := ih (i + 1) (i + 1)
      have h := List.length_pos.mpr (encodeUint_ne_nil (i + 1 - next))
      simp only [List.map_cons, Option.map_some', encodeFields, List.filterMap_cons, id,
        List.length_cons, List.length_append]
      omega

theorem decodeFields_encodeFields (n : Nat) (op : FieldOp σ) (fs : Sent σ) (i next fuel : Nat)
    (s : σ) (rest : List UInt8) (hnext : next ≤ i) (hn : i + fs.length ≤ n) (hn64 : n < 2 ^ 64)
    (hfuel : (fs.filterMap id).length < fuel)
    (hop : ∀ k v e, fs[k]? = some (some (v, e)) → ∀ s rest,
      op (i + k) s (v ++ rest) = .ok (e s, rest)) :
    decodeFields n op fuel next s (encodeFields (fs.map (Option.map Prod.fst)) i next ++ 0 :: rest) =
      ((fs.filterMap id).foldl (fun s p => p.2 s) s, .ok rest) := by
  induction fs generalizing i next fuel s with
  | nil =>
    obtain ⟨fuel, rfl⟩ : ∃ f, fuel = f + 1 := ⟨fuel - 1, by simp at hfuel; omega⟩
    rfl
  | cons f fs ih =>
    cases f with
    | none =>
      simp only [List.map_cons, Option.map_none', encodeFields, List.filterMap_cons, id]
      exact ih (i + 1) next fuel s (by omega) (by simp at hn; omega) hfuel
        (fun k v e hk => by
          rw [show i + 1 + k = i + (k + 1) by omega]
          exact hop (k + 1) v e (by simpa using hk))
    | some p =>
      obtain ⟨v, e⟩ := p
      obtain ⟨fuel, rfl⟩ : ∃ f, fuel = f + 1 := ⟨fuel - 1, by simp at hfuel; omega⟩
      obtain ⟨d, hd⟩ : ∃ d, i + 1 - next = d + 1 := ⟨i - next, by omega⟩
      simp only [List.map_cons, Option.map_some', encodeFields, List.filterMap_cons, id,
        List.foldl_cons, hd, List.append_assoc]
      rw [decodeFields_delta _ _ _ _ _ _ _ (by simp at hn; omega), if_neg (by simp at hn; omega),
        show next + d = i by omega, show i = i + 0 from rfl, hop 0 v e (by simp)]
      simp only [Nat.add_zero, show next + d + 1 = i + 1 by omega]
      exact ih (i + 1) (i + 1) fuel (e s) le_rfl (by simp at hn; omega)
        (by simp at hfuel; omega)
        (fun k v e hk => by
          rw [show i + 1 + k = i + (k + 1) by omega]
          exact hop (k + 1) v e (by simpa using hk))

theorem decodeStruct_encodeStruct (n : Nat) (op : FieldOp σ) (fs : Sent σ) (init : σ)
    (rest : List UInt8) (hn : fs.length ≤ n) (hn64 : n < 2 ^ 64)
    (hop : ∀ k v e, fs[k]? = some (some (v, e)) → ∀ s rest, op k s (v ++ rest) = .ok (e s, rest)) :
    decodeStruct n op init (encodeStruct (fs.map (Option.map Prod.fst)) ++ rest) =
      .ok ((fs.filterMap id).foldl (fun s p => p.2 s) init, rest) := by
  have hlen := length_filterMap_le fs 0 0
  unfold decodeStruct encodeStruct
  rw [List.append_assoc, List.singleton_append,
    decodeFields_encodeFields n op fs 0 0 _ init rest le_rfl (by omega) hn64
      (by simp only [List.length_append, List.length_cons]; omega)
      (fun k v e hk s rest => by simpa using hop k v e hk s rest)]

def sentString (v : String) (store : String → σ → σ) : Option (List UInt8 × (σ → σ)) :=
  if v = "" then none else some (encodeString v, store v)

def sentInt (i : Int) (store : Int → σ → σ) : Option (List UInt8 × (σ → σ)) :=
  if i = 0 then none else some (encodeInt i, store i)

@[simp] theorem map_sentString (v : String) (store : String → σ → σ) :
    (sentString v store).map Prod.fst = stringField v := by
  unfold sentString stringField; split_ifs <;> rfl

@[simp] theorem map_sentInt (i : Int) (store : Int → σ → σ) :
    (sentInt i store).map Prod.fst = intField i := by
  unfold sentInt intField; split_ifs <;> rfl

theorem decodeNameId_nameIdBody {name : String} {i : Int}
    (hname : (Utf8.bytes name).length < tooBig) (hi : i.natAbs < 2 ^ 62) (rest : List UInt8) :
    decodeNameId (nameIdBody name i ++ rest) = .ok ((name, i), rest) := by
  have h := decodeStruct_encodeStruct 2 nameIdOp
    [sentString name fun v p => (v, p.2), sentInt i fun i p => (p.1, i)] ("", 0) rest
    (by simp) (by decide) (by
      intro k v e hk s rest
      match k with
      | 0 =>
        simp only [List.getElem?_cons_zero, sentString] at hk
        split_ifs at hk <;> cases hk
        simp [nameIdOp, decodeString_encodeString hname]
      | 1 =>
        simp only [List.getElem?_cons_succ, List.getElem?_cons_zero, sentInt] at hk
        split_ifs at hk <;> cases hk
        simp [nameIdOp, decodeInt_encodeInt hi]
      | k + 2 => simp at hk)
  simp only [List.map_cons, map_sentString, map_sentInt, List.map_nil] at h
  rw [nameIdBody, decodeNameId, h]
  rcases eq_or_ne name "" with h₁ | h₁ <;> rcases eq_or_ne i 0 with h₂ | h₂ <;>
    simp [sentString, sentInt, h₁, h₂]

theorem nameIdBody_ne_nil (name : String) (i : Int) : nameIdBody name i ≠ [] := by
  simp [nameIdBody, encodeStruct]

theorem decodeElems_nameIds {names : List String}
    (hnames : ∀ f ∈ names, (Utf8.bytes f).length < tooBig) (rest : List UInt8) :
    decodeElems decodeNameId names.length
        ((names.map fun f => nameIdBody f tString).flatten ++ rest) =
      .ok (names.map (·, tString), rest) := by
  induction names with
  | nil => rfl
  | cons f names ih =>
    obtain ⟨b, bs, hbs⟩ : ∃ b bs, nameIdBody f tString ++
        ((names.map fun f => nameIdBody f tString).flatten ++ rest) = b :: bs := by
      cases h : nameIdBody f tString with
      | nil => exact absurd h (nameIdBody_ne_nil _ _)
      | cons b bs => exact ⟨b, _, rfl⟩
    simp only [List.map_cons, List.flatten_cons, List.length_cons, List.append_assoc]
    rw [hbs, decodeElems, ← hbs,
      decodeNameId_nameIdBody (hnames f (by simp)) (by decide), ok_bind]
    dsimp only
    rw [ih (fun g hg => hnames g (by simp [hg])), ok_bind]
    rfl

def sentSlice (vs : List (List UInt8)) (store : σ → σ) : Option (List UInt8 × (σ → σ)) :=
  if vs = [] then none else some (encodeUint vs.length ++ vs.flatten, store)

@[simp] theorem map_sentSlice (vs : List (List UInt8)) (store : σ → σ) :
    (sentSlice vs store).map Prod.fst = sliceField vs := by
  unfold sentSlice sliceField; split_ifs <;> rfl

theorem decodeStructType {name : String} {fields : List String} {tid : Nat}
    (hname : (Utf8.bytes name).length < tooBig)
    (hfields : ∀ f ∈ fields, (Utf8.bytes f).length < tooBig) (hlen : fields.length < 2 ^ 64)
    (htid : tid < 2 ^ 62) (rest : List UInt8) :
    decodeStruct 2 structTypeOp (("", 0), [])
        (encodeStruct [some (nameIdBody name tid),
          sliceField (fields.map fun f => nameIdBody f tString)] ++ rest) =
      .ok (((name, tid), fields.map (·, tString)), rest) := by
  have h := decodeStruct_encodeStruct 2 structTypeOp
    [some (nameIdBody name tid, fun p => ((name, tid), p.2)),
      sentSlice (fields.map fun f => nameIdBody f tString)
        fun p => (p.1, fields.map (·, tString))] (("", 0), []) rest (by simp) (by decide) (by
      intro k v e hk s rest
      match k with
      | 0 =>
        simp only [List.getElem?_cons_zero, Option.some.injEq, Prod.mk.injEq] at hk
        obtain ⟨rfl, rfl⟩ := hk
        simp [structTypeOp, decodeNameId_nameIdBody (i := tid) hname (by simpa using htid)]
      | 1 =>
        simp only [List.getElem?_cons_succ, List.getElem?_cons_zero, sentSlice] at hk
        split_ifs at hk <;> cases hk
        have := decodeElems_nameIds hfields rest
        simp only [List.length_map] at this ⊢
        simp [structTypeOp, decodeSlice, decodeUint_encodeUint hlen, this]
      | k + 2 => simp at hk)
  simp only [List.map_cons, Option.map_some', map_sentSlice, List.map_nil] at h
  rw [h]
  rcases eq_or_ne fields [] with h₁ | h₁ <;> simp [sentSlice, h₁]

theorem decodeWireType_wireTypeBody {name : String} {fields : List String} {tid : Nat}
    (hname : (Utf8.bytes name).length < tooBig)
    (hfields : ∀ f ∈ fields, (Utf8.bytes f).length < tooBig) (hlen : fields.length < 2 ^ 64)
    (htid : tid < 2 ^ 62) (rest : List UInt8) :
    decodeWireType (wireTypeBody name fields tid ++ rest) =
      .ok (some ⟨name, fields.map (·, tString)⟩, rest) := by
  have h := decodeStruct_encodeStruct 7 wireTypeOp
    [none, none, some (encodeStruct [some (nameIdBody name tid),
      sliceField (fields.map fun f => nameIdBody f tString)],
        fun _ => some ⟨name, fields.map (·, tString)⟩), none, none, none, none] none rest
    (by simp) (by decide) (by
      intro k v e hk s rest
      match k with
      | 2 =>
        simp only [List.getElem?_cons_succ, List.getElem?_cons_zero, Option.some.injEq,
          Prod.mk.injEq] at hk
        obtain ⟨rfl, rfl⟩ := hk
        simp [wireTypeOp, decodeStructType hname hfields hlen htid]
      | 0 | 1 | 3 | 4 | 5 | 6 | k + 7 => simp at hk)
  simpa [wireTypeBody, decodeWireType] using h

theorem length_le_encodeFields (fs : List (Option (List UInt8))) (i next k : Nat)
    (v : List UInt8) (h : fs[k]? = some (some v)) : v.length ≤ (encodeFields fs i next).length := by
  induction fs generalizing i next k with
  | nil => simp at h
  | cons f fs ih =>
    match k, f with
    | 0, none => simp at h
    | 0, some w =>
      simp only [List.getElem?_cons_zero, Option.some.injEq] at h
      subst h
      simp [encodeFields]
      omega
    | k + 1, none => simpa [encodeFields] using ih (i + 1) next k (by simpa using h)
    | k + 1, some w =>
      have := ih (i + 1) (i + 1) k (by simpa using h)
      simp only [encodeFields, List.length_append]
      omega

namespace StringStruct

variable (S : StringStruct σ)

/-- The value's fields as sent, each stored by name when decoded. -/
def sentFields (s : σ) (l : List String) : Sent σ :=
  l.map fun f => sentString (S.field s f) (S.setField f)

theorem field_foldl_sentFields (s : σ) (l : List String) (hl : l.Nodup) (hsub : ∀ f ∈ l, f ∈ S.fields)
    (t : σ) (g : String) :
    S.field (((S.sentFields s l).filterMap id).foldl (fun s p => p.2 s) t) g =
      if g ∈ l ∧ S.field s g ≠ "" then S.field s g else S.field t g := by
  induction l generalizing t with
  | nil => simp [sentFields]
  | cons f l ih =>
    have hf := hsub f (by simp)
    rw [List.nodup_cons] at hl
    have ih' := fun t => ih hl.2 (fun g hg => hsub g (by simp [hg])) t
    simp only [sentFields, List.map_cons, sentString] at ih' ⊢
    by_cases hv : S.field s f = ""
    · simp only [hv, if_true, List.filterMap_cons, id, ih']
      by_cases hg : g = f
      · subst hg; simp [hv, hl.1]
      · simp [hg]
    · simp only [hv, if_false, List.filterMap_cons, id, List.foldl_cons, ih',
        S.field_setField f hf]
      by_cases hg : g = f
      · subst hg; simp [hv, hl.1]
      · simp [hg]

theorem foldl_sentFields (s : σ) :
    ((S.sentFields s S.fields).filterMap id).foldl (fun s p => p.2 s) S.zero = s := by
  apply S.ext
  intro g hg
  rw [field_foldl_sentFields S s S.fields S.fields_nodup (fun _ h => h), S.field_zero]
  split_ifs with h
  · rfl
  · push_neg at h
    exact (h hg).symm

theorem decodeFields_valueBody (s : σ)
    (hvals : ∀ f ∈ S.fields, (Utf8.bytes (S.field s f)).length < tooBig)
    (hn : S.fields.length < 2 ^ 64) (rest : List UInt8) :
    decodeFields S.fields.length (S.valueOp (S.fields.map .store))
      (encodeStruct (S.fields.map fun f => stringField (S.field s f)) ++ rest).length 0 S.zero
      (encodeStruct (S.fields.map fun f => stringField (S.field s f)) ++ rest) = (s, .ok rest) := by
  have hmap : (S.sentFields s S.fields).map (Option.map Prod.fst) =
      S.fields.map fun f => stringField (S.field s f) := by
    simp [sentFields, Function.comp_def]
  have hlen := length_filterMap_le (S.sentFields s S.fields) 0 0
  rw [hmap] at hlen
  have h := decodeFields_encodeFields S.fields.length (S.valueOp (S.fields.map .store))
    (S.sentFields s S.fields) 0 0
    (encodeStruct (S.fields.map fun f => stringField (S.field s f)) ++ rest).length S.zero rest
    le_rfl (by simp [sentFields]) hn
    (by simp only [encodeStruct, List.length_append, List.length_singleton]; omega) (by
      intro k v e hk t rest
      simp only [sentFields, List.getElem?_map] at hk
      obtain ⟨f, hf, hfe⟩ := Option.map_eq_some'.mp hk
      simp only [sentString] at hfe
      split_ifs at hfe
      cases hfe
      have hfk : (S.fields.map Instr.store)[k]? = some (.store f) := by simp [hf]
      simp [valueOp, Nat.zero_add, hfk,
        decodeString_encodeString (hvals f (List.getElem?_mem hf))])
  rw [hmap, foldl_sentFields] at h
  rw [encodeStruct, List.append_assoc, List.singleton_append] at h ⊢
  exact h

theorem mapM_compileField (l : List String) (hl : ∀ f ∈ l, f ∈ S.fields) :
    (l.map (·, tString)).mapM (compileField S.fields) = .ok (l.map .store) := by
  induction l with
  | nil => rfl
  | cons f l ih =>
    have hf := hl f (by simp)
    have hne : f ≠ "" := fun h => S.fields_named (h ▸ hf)
    simp only [List.map_cons, List.mapM_cons, compileField, if_neg hne, if_pos hf,
      ih (fun g hg => hl g (by simp [hg]))]
    rfl

theorem compileDec_wire :
    compileDec S.fields (some ⟨S.name, S.fields.map (·, tString)⟩) = .ok (S.fields.map .store) := by
  simp only [compileDec, mapM_compileField S S.fields (fun _ h => h), ok_bind]
  rw [if_neg]
  · rfl
  · rintro ⟨hne, -, hall⟩
    obtain ⟨f, fs, hfs⟩ := List.exists_cons_of_ne_nil hne
    simp [hfs, Instr.isIgnore] at hall

theorem encode_eq (tid : TypeId) (s : σ) (htype : (S.typeBody tid).length < tooBig)
    (hvalue : (S.valueBody tid s).length < tooBig) :
    S.encode tid s = (encodeUint (S.typeBody tid).length ++ S.typeBody tid) ++
      (encodeUint (S.valueBody tid s).length ++ S.valueBody tid s) := by
  simp [encode, writeMessage_of_lt htype, writeMessage_of_lt hvalue]

def wire : WireStruct := ⟨S.name, S.fields.map (·, tString)⟩

theorem decodeTypeSequence_typeMessage (tid : TypeId)
    (hname : (Utf8.bytes S.name).length < tooBig)
    (hfields : ∀ f ∈ S.fields, (Utf8.bytes f).length < tooBig) (hcount : S.fields.length < 2 ^ 64)
    (htype : (S.typeBody tid).length < tooBig) (fuel : Nat) (rest : List UInt8) :
    decodeTypeSequence (fuel + 1) [] ((encodeUint (S.typeBody tid).length ++ S.typeBody tid) ++ rest) =
      decodeTypeSequence fuel [(tid.id, some S.wire)] rest := by
  have hneg : (-(tid.id : Int)).natAbs < 2 ^ 62 := by have := tid.small; simp; omega
  have huser := tid.user
  simp only [firstUserId] at huser
  rw [decodeTypeSequence, recvMessage_frame htype, ok_bind]
  dsimp only
  rw [StringStruct.typeBody, decodeInt_encodeInt hneg, ok_bind]
  dsimp only
  rw [← List.append_nil (wireTypeBody _ _ _),
    decodeWireType_wireTypeBody hname hfields hcount (by have := tid.small; omega)]
  simp only [Left.nonneg_neg_iff, Nat.cast_nonpos, neg_neg, Int.toNat_ofNat, List.lookup_nil,
    Option.isSome_none, Bool.false_eq_true, or_false, ok_bind, ne_eq, not_true_eq_false,
    if_false]
  rw [if_neg (by omega), if_neg (by simp only [firstUserId]; omega)]
  simp only [pure_bind]
  rfl

theorem decodeTypeSequence_encode (tid : TypeId) (s : σ)
    (hname : (Utf8.bytes S.name).length < tooBig)
    (hfields : ∀ f ∈ S.fields, (Utf8.bytes f).length < tooBig) (hcount : S.fields.length < 2 ^ 64)
    (htype : (S.typeBody tid).length < tooBig) (hvalue : (S.valueBody tid s).length < tooBig)
    (fuel : Nat) :
    decodeTypeSequence (fuel + 2) [] (S.encode tid s) =
      .ok (tid.id, encodeStruct (S.fields.map fun f => stringField (S.field s f)),
        [(tid.id, some S.wire)]) := by
  have hid : (tid.id : Int).natAbs < 2 ^ 62 := by have := tid.small; simp; omega
  rw [encode_eq S tid s htype hvalue,
    S.decodeTypeSequence_typeMessage tid hname hfields hcount htype, decodeTypeSequence,
    ← List.append_nil (encodeUint _ ++ S.valueBody tid s), recvMessage_frame hvalue, ok_bind]
  dsimp only
  rw [StringStruct.valueBody, decodeInt_encodeInt hid, ok_bind]
  exact if_pos (by omega)

theorem encode_of_tooBig (tid : TypeId) (s : σ) (htype : (S.typeBody tid).length < tooBig)
    (hvalue : tooBig ≤ (S.valueBody tid s).length) :
    S.encode tid s = encodeUint (S.typeBody tid).length ++ S.typeBody tid := by
  simp [encode, writeMessage_of_lt htype, writeMessage, hvalue, not_le.mpr htype]

/-- A stream holding a type definition and no value fails with
`io.ErrUnexpectedEOF`, and the destination is left as it was. -/
theorem decode_typeMessage (tid : TypeId) (t : σ)
    (hname : (Utf8.bytes S.name).length < tooBig)
    (hfields : ∀ f ∈ S.fields, (Utf8.bytes f).length < tooBig) (hcount : S.fields.length < 2 ^ 64)
    (htype : (S.typeBody tid).length < tooBig) :
    S.decode (encodeUint (S.typeBody tid).length ++ S.typeBody tid) t = (t, some .eof) := by
  have h₁ := List.length_pos.mpr (encodeUint_ne_nil (S.typeBody tid).length)
  have h₂ : 0 < (S.typeBody tid).length := by
    simp [StringStruct.typeBody, encodeInt, List.length_pos.mpr (encodeUint_ne_nil _)]
  obtain ⟨fuel, hfuel⟩ : ∃ f, (encodeUint (S.typeBody tid).length ++ S.typeBody tid).length =
      f + 2 := ⟨_, (Nat.sub_add_cancel (by simp only [List.length_append]; omega)).symm⟩
  unfold decode
  rw [hfuel, ← List.append_nil (encodeUint _ ++ _),
    S.decodeTypeSequence_typeMessage tid hname hfields hcount htype]
  rfl

theorem length_le_valueBody (tid : TypeId) (s : σ) {f : String} (hf : f ∈ S.fields) :
    (Utf8.bytes (S.field s f)).length ≤ (S.valueBody tid s).length := by
  by_cases he : S.field s f = ""
  · simp [he, Utf8.bytes]
  obtain ⟨k, hk⟩ := List.mem_iff_getElem?.mp hf
  have hv : (S.fields.map fun f => stringField (S.field s f))[k]? =
      some (some (encodeString (S.field s f))) := by simp [hk, stringField, he]
  have := length_le_encodeFields _ 0 0 k _ hv
  simp only [StringStruct.valueBody, encodeStruct, encodeString, List.length_append] at this ⊢
  omega

/-- Decoding an encoding into the zero value gives the value back, with no error,
whenever both messages are within gob's limit. -/
theorem decode_encode (tid : TypeId) (s : σ)
    (hname : (Utf8.bytes S.name).length < tooBig)
    (hfields : ∀ f ∈ S.fields, (Utf8.bytes f).length < tooBig) (hcount : S.fields.length < 2 ^ 64)
    (htype : (S.typeBody tid).length < tooBig) (hvalue : (S.valueBody tid s).length < tooBig) :
    S.decode (S.encode tid s) S.zero = (s, none) := by
  have hvals : ∀ f ∈ S.fields, (Utf8.bytes (S.field s f)).length < tooBig :=
    fun f hf => lt_of_le_of_lt (S.length_le_valueBody tid s hf) hvalue
  have hlen : 2 ≤ (S.encode tid s).length := by
    have h₁ := List.length_pos.mpr (encodeUint_ne_nil (S.typeBody tid).length)
    have h₂ := List.length_pos.mpr (encodeUint_ne_nil (S.valueBody tid s).length)
    rw [S.encode_eq tid s htype hvalue]
    simp only [List.length_append]
    omega
  have huser := tid.user
  simp only [firstUserId] at huser
  unfold decode
  obtain ⟨fuel, hfuel⟩ : ∃ f, (S.encode tid s).length = f + 2 :=
    ⟨_, (Nat.sub_add_cancel hlen).symm⟩
  rw [hfuel, S.decodeTypeSequence_encode tid s hname hfields hcount htype hvalue]
  simp only [lookupType, Int.toNat_ofNat, firstUserId, if_neg (show ¬tid.id < 64 by omega),
    List.lookup_cons_self, ok_bind, wire, compileDec_wire, List.length_map]
  have h := S.decodeFields_valueBody s hvals hcount []
  rw [List.append_nil] at h
  rw [h]

end StringStruct

/-! ### Message sizes

Upper bounds on what the encoder writes: an integer takes at most nine bytes,
and a struct at most nine per field plus its values. They show that the type
definition of a struct with short names is far within `tooBig`.
-/

theorem length_encodeUint_le (x : Nat) : (encodeUint x).length ≤ 9 := by
  unfold encodeUint
  split
  · simp
  · have := (List.dropWhile_suffix (· == 0) (l := bigEndian 8 x)).length_le
    simp only [length_bigEndian] at this
    simp only [List.length_cons]
    omega

theorem length_encodeInt_le (i : Int) : (encodeInt i).length ≤ 9 := length_encodeUint_le _

theorem length_encodeFields_le (fs : List (Option (List UInt8))) (i next : Nat) :
    (encodeFields fs i next).length ≤ 9 * fs.length + (fs.map fun o => (o.getD []).length).sum := by
  induction fs generalizing i next with
  | nil => simp [encodeFields]
  | cons o fs ih =>
    cases o with
    | none => have := ih (i + 1) next; simp only [encodeFields, List.length_cons, List.map_cons,
        List.sum_cons, Option.getD_none, List.length_nil]; omega
    | some v =>
      have := ih (i + 1) (i + 1)
      have := length_encodeUint_le (i + 1 - next)
      simp only [encodeFields, List.length_append, List.length_cons, List.map_cons,
        List.sum_cons, Option.getD_some]
      omega

theorem length_encodeStruct_le (fs : List (Option (List UInt8))) :
    (encodeStruct fs).length ≤ 9 * fs.length + (fs.map fun o => (o.getD []).length).sum + 1 := by
  simpa [encodeStruct] using length_encodeFields_le fs 0 0

theorem length_stringField_le (s : String) :
    ((stringField s).getD []).length ≤ 9 + (Utf8.bytes s).length := by
  unfold stringField encodeString
  split
  · simp
  · simpa using length_encodeUint_le _

theorem length_intField_le (i : Int) : ((intField i).getD []).length ≤ 9 := by
  unfold intField
  split
  · simp
  · simpa using length_encodeInt_le i

theorem length_nameIdBody_le (name : String) (i : Int) :
    (nameIdBody name i).length ≤ 37 + (Utf8.bytes name).length := by
  have h := length_encodeStruct_le [stringField name, intField i]
  have := length_stringField_le name
  have := length_intField_le i
  simp only [List.length_cons, List.length_nil, List.map_cons, List.map_nil, List.sum_cons,
    List.sum_nil] at h
  simp only [nameIdBody]
  omega

theorem length_wireTypeBody_le (name : String) (fields : List String) (tid : Nat) :
    (wireTypeBody name fields tid).length ≤
      140 + (Utf8.bytes name).length + (fields.map fun f => 37 + (Utf8.bytes f).length).sum := by
  have hslice : ((sliceField (fields.map fun f => nameIdBody f tString)).getD []).length ≤
      9 + (fields.map fun f => 37 + (Utf8.bytes f).length).sum := by
    unfold sliceField
    split
    · simp
    · have := length_encodeUint_le (fields.map fun f => nameIdBody f tString).length
      have : ((fields.map fun f => nameIdBody f tString).map List.length).sum ≤
          (fields.map fun f => 37 + (Utf8.bytes f).length).sum := by
        rw [List.map_map]
        exact List.sum_le_sum fun f _ => length_nameIdBody_le f tString
      simp only [Option.getD_some, List.length_append, List.length_flatten]
      omega
  have hinner := length_encodeStruct_le [some (nameIdBody name tid),
    sliceField (fields.map fun f => nameIdBody f tString)]
  have houter := length_encodeStruct_le [none, none, some (encodeStruct [some (nameIdBody name tid),
    sliceField (fields.map fun f => nameIdBody f tString)]), none, none, none, none]
  have := length_nameIdBody_le name tid
  simp only [List.length_cons, List.length_nil, List.map_cons, List.map_nil, List.sum_cons,
    List.sum_nil, Option.getD_some, Option.getD_none] at hinner houter
  simp only [wireTypeBody]
  omega

namespace StringStruct

variable (S : StringStruct σ)

theorem length_typeBody_le (tid : TypeId) :
    (S.typeBody tid).length ≤
      149 + (Utf8.bytes S.name).length + (S.fields.map fun f => 37 + (Utf8.bytes f).length).sum := by
  have := length_encodeInt_le (-(tid.id : Int))
  have := length_wireTypeBody_le S.name S.fields tid.id
  simp only [typeBody, List.length_append]
  omega

theorem length_valueBody_le (tid : TypeId) (s : σ) :
    (S.valueBody tid s).length ≤
      10 + 18 * S.fields.length + (S.fields.map fun f => (Utf8.bytes (S.field s f)).length).sum := by
  have := length_encodeInt_le tid.id
  have h := length_encodeStruct_le (S.fields.map fun f => stringField (S.field s f))
  have hsum :
      ((S.fields.map fun f => stringField (S.field s f)).map fun o => (o.getD []).length).sum ≤
      9 * S.fields.length + (S.fields.map fun f => (Utf8.bytes (S.field s f)).length).sum := by
    rw [List.map_map]
    refine (List.sum_le_sum fun f _ => length_stringField_le (S.field s f)).trans_eq ?_
    simp [List.sum_map_add, mul_comm]
  simp only [List.length_map] at h
  simp only [valueBody, List.length_append]
  omega

end StringStruct

end CephExporter.Gob
