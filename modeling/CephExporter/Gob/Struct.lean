import CephExporter.Gob.Wire

/-! # Gob encoding of a struct of strings

`gob.NewEncoder(&b).Encode(v)` on a fresh encoder writes two messages: the
definition of `v`'s type (a `wireType` naming the struct and its fields) and
then the value, one `(delta, value)` pair per non-empty field. A fresh decoder
reads the definition, matches the wire fields to the destination's fields by
name, and stores the fields it reads into the destination as it goes.

The model covers structs whose fields are all exported strings, which is what
`mdsLabels` is, for every field list; the decoder refuses the wire types such a
struct never produces.
-/

namespace CephExporter.Gob

def firstUserId : Nat := 64

def tString : Int := 6

/-- A type id gob's registry granted a user type: an `int32` no lower than
`firstUserId`. Which one depends on the order types were first seen. -/
structure TypeId where
  id : Nat
  user : firstUserId ≤ id
  small : id < 2 ^ 31

/-- A Go struct all of whose fields are exported strings, as gob's reflection
sees it: the type name, the field names in order, and reading and storing a
field of a value by name (`FieldByName`). -/
structure StringStruct (σ : Type) where
  name : String
  fields : List String
  field : σ → String → String
  setField : String → String → σ → σ
  zero : σ
  field_setField : ∀ f ∈ fields, ∀ g v s, field (setField f v s) g = if g = f then v else field s g
  field_zero : ∀ f, field zero f = ""
  ext : ∀ s t, (∀ f ∈ fields, field s f = field t f) → s = t
  fields_nodup : fields.Nodup
  fields_named : "" ∉ fields

variable {σ : Type}

/-! ### Encoding -/

/-- The fields from index `i` on, `next` being one past the field last sent:
each present field as its delta and its value (`encoderState.update`). -/
def encodeFields : List (Option (List UInt8)) → Nat → Nat → List UInt8
  | [], _, _ => []
  | none :: fs, i, next => encodeFields fs (i + 1) next
  | some v :: fs, i, next => encodeUint (i + 1 - next) ++ v ++ encodeFields fs (i + 1) (i + 1)

def encodeStruct (fs : List (Option (List UInt8))) : List UInt8 := encodeFields fs 0 0 ++ [0]

def stringField (s : String) : Option (List UInt8) :=
  if s = "" then none else some (encodeString s)

def intField (i : Int) : Option (List UInt8) := if i = 0 then none else some (encodeInt i)

def sliceField (vs : List (List UInt8)) : Option (List UInt8) :=
  if vs = [] then none else some (encodeUint vs.length ++ vs.flatten)

def nameIdBody (name : String) (id : Int) : List UInt8 :=
  encodeStruct [stringField name, intField id]

/-- The `wireType` sent for a struct of string fields: only `StructT`, the third
field, is set, to `structType{CommonType{name, tid}, []fieldType{{f, tString}}}`. -/
def wireTypeBody (name : String) (fields : List String) (tid : Nat) : List UInt8 :=
  encodeStruct [none, none,
    some (encodeStruct [some (nameIdBody name tid),
      sliceField (fields.map fun f => nameIdBody f tString)]),
    none, none, none, none]

namespace StringStruct

variable (S : StringStruct σ)

/-- `sendActualType`: the negated id, then the `wireType`. -/
def typeBody (tid : TypeId) : List UInt8 :=
  encodeInt (-(tid.id : Int)) ++ wireTypeBody S.name S.fields tid.id

/-- `sendTypeId` and `encodeStruct`: the id, then the fields of `s`. -/
def valueBody (tid : TypeId) (s : σ) : List UInt8 :=
  encodeInt tid.id ++ encodeStruct (S.fields.map fun f => stringField (S.field s f))

/-- `gob.NewEncoder(&b).Encode(s)`: the bytes `b` holds afterwards. A message
the encoder refuses (`tooBig`) is not written, and `Encode`'s error is left
for the caller. -/
def encode (tid : TypeId) (s : σ) : List UInt8 :=
  match writeMessage (S.typeBody tid) with
  | none => []
  | some m => m ++ (writeMessage (S.valueBody tid s)).getD []

end StringStruct

/-! ### Decoding -/

/-- A struct field's decoder: given the field number and the value so far, it
reads the field's value from the front of the bytes. -/
abbrev FieldOp (σ : Type) := Nat → σ → List UInt8 → Except GobError (σ × List UInt8)

/-- `Decoder.decodeStruct`'s loop over a struct of `n` fields, `next` being one
past the field last read: `(delta, value)` pairs until the zero delta or the end
of the message, a delta past the last field being `errRange`. Fields already
stored stay stored when a later one fails, as in Go. `fuel` bounds the pairs
read; callers give the message's length, and every pair takes a byte of it. -/
def decodeFields (n : Nat) (op : FieldOp σ) :
    Nat → Nat → σ → List UInt8 → σ × Except GobError (List UInt8)
  | 0, _, s, bs => (s, .ok bs)
  | _ + 1, _, s, [] => (s, .ok [])
  | fuel + 1, next, s, b :: bs =>
    match decodeUint (b :: bs) with
    | .error e => (s, .error e)
    | .ok (0, rest) => (s, .ok rest)
    | .ok (delta + 1, rest) =>
      if n < next + delta + 1 then (s, .error .fieldRange)
      else
        match op (next + delta) s rest with
        | .error e => (s, .error e)
        | .ok (s', rest') => decodeFields n op fuel (next + delta + 1) s' rest'

def decodeStruct (n : Nat) (op : FieldOp σ) (init : σ) (bs : List UInt8) :
    Except GobError (σ × List UInt8) :=
  match decodeFields n op bs.length 0 init bs with
  | (s, .ok rest) => .ok (s, rest)
  | (_, .error e) => .error e

def nameIdOp : FieldOp (String × Int)
  | 0, (_, id), bs => do
    let (name, bs) ← decodeString bs
    pure ((name, id), bs)
  | _, (name, _), bs => do
    let (id, bs) ← decodeInt bs
    pure ((name, id), bs)

def decodeNameId (bs : List UInt8) : Except GobError ((String × Int) × List UInt8) :=
  decodeStruct 2 nameIdOp ("", 0) bs

def decodeElems {α : Type} (elem : List UInt8 → Except GobError (α × List UInt8)) :
    Nat → List UInt8 → Except GobError (List α × List UInt8)
  | 0, bs => .ok ([], bs)
  | _ + 1, [] => .error .badLength
  | n + 1, b :: bs => do
    let (a, bs) ← elem (b :: bs)
    let (as, bs) ← decodeElems elem n bs
    pure (a :: as, bs)

def decodeSlice {α : Type} (elem : List UInt8 → Except GobError (α × List UInt8))
    (bs : List UInt8) : Except GobError (List α × List UInt8) := do
  let (n, bs) ← decodeUint bs
  decodeElems elem n bs

structure WireStruct where
  name : String
  fields : List (String × Int)

def structTypeOp : FieldOp ((String × Int) × List (String × Int))
  | 0, (_, fs), bs => do
    let (c, bs) ← decodeNameId bs
    pure ((c, fs), bs)
  | _, (c, _), bs => do
    let (fs, bs) ← decodeSlice decodeNameId bs
    pure ((c, fs), bs)

def wireTypeOp : FieldOp (Option WireStruct)
  | 2, _, bs => do
    let (((name, _), fs), bs) ← decodeStruct 2 structTypeOp (("", 0), []) bs
    pure (some ⟨name, fs⟩, bs)
  | _, _, _ => .error .unsupported

def decodeWireType (bs : List UInt8) : Except GobError (Option WireStruct × List UInt8) :=
  decodeStruct 7 wireTypeOp none bs

abbrev WireTypes := List (Nat × Option WireStruct)

/-- `Decoder.decodeTypeSequence`: type definitions (`recvType`) until a message
holds a value; the value's type id, the rest of its message, and the types
defined. `fuel` bounds the messages; callers give the input's length. -/
def decodeTypeSequence : Nat → WireTypes → List UInt8 →
    Except GobError (Int × List UInt8 × WireTypes)
  | 0, _, _ => .error .eof
  | fuel + 1, wt, bs => do
    let (msg, bs) ← recvMessage bs
    let (id, body) ← decodeInt msg
    if 0 ≤ id then pure (id, body, wt)
    else if (-id).toNat < firstUserId ∨ (wt.lookup (-id).toNat).isSome then
      throw .duplicateType
    else do
      let (wire, rest) ← decodeWireType body
      if rest ≠ [] then throw .extraData
      decodeTypeSequence fuel (((-id).toNat, wire) :: wt) bs

inductive Instr
  /-- Store the string into the destination field of this name. -/
  | store (name : String)
  /-- Skip a value of this type: the destination has no such field. -/
  | ignore (id : Int)

def Instr.isIgnore : Instr → Bool
  | .store _ => false
  | .ignore _ => true

/-- `compileDec` for one wire field, against a destination with these fields.
Every destination field is an exported string, so a field of the same name is
stored when its wire type is `string` and is an error otherwise. -/
def compileField (fields : List String) : String × Int → Except GobError Instr
  | (name, id) =>
    if name = "" then .error .emptyName
    else if name ∈ fields then
      if id = tString then .ok (.store name) else .error .wrongType
    else .ok (.ignore id)

def compileDec (fields : List String) : Option WireStruct → Except GobError (List Instr)
  | none => .error .typeMismatch
  | some w => do
    let instrs ← w.fields.mapM (compileField fields)
    if fields ≠ [] ∧ w.fields ≠ [] ∧ instrs.all Instr.isIgnore then throw .typeMismatch
    pure instrs

def ignoreValue (id : Int) (bs : List UInt8) : Except GobError (List UInt8) :=
  if id = 1 ∨ id = 2 ∨ id = 3 ∨ id = 4 then (·.2) <$> decodeUint bs
  else if id = 5 ∨ id = tString then do
    let (n, bs) ← decodeUint bs
    if bs.length < n then throw .badLength
    pure (bs.drop n)
  else if id = 7 then do
    let (_, bs) ← decodeUint bs
    (·.2) <$> decodeUint bs
  else .error .unsupported

/-- The type a value message names: one defined earlier in the stream. A
predefined id is never a struct with these fields. -/
def lookupType (wt : WireTypes) (id : Int) : Except GobError (Option WireStruct) :=
  if id.toNat < firstUserId then .error .typeMismatch
  else match wt.lookup id.toNat with
    | some w => .ok w
    | none => .error .badType

namespace StringStruct

variable (S : StringStruct σ)

def valueOp (instrs : List Instr) : FieldOp σ := fun i s bs =>
  match instrs[i]? with
  | some (.store f) => do
    let (v, bs) ← decodeString bs
    pure (S.setField f v s, bs)
  | some (.ignore id) => do
    let bs ← ignoreValue id bs
    pure (s, bs)
  | none => .error .fieldRange

/-- `gob.NewDecoder(r).Decode(&s)`: the value after decoding, and the error if
any. Fields stored before a failure stay stored. -/
def decode (bs : List UInt8) (s : σ) : σ × Option GobError :=
  match decodeTypeSequence bs.length [] bs with
  | .error e => (s, some e)
  | .ok (id, body, wt) =>
    match lookupType wt id >>= compileDec S.fields with
    | .error e => (s, some e)
    | .ok instrs =>
      match decodeFields instrs.length (S.valueOp instrs) body.length 0 s body with
      | (s, .ok _) => (s, none)
      | (s, .error e) => (s, some e)

end StringStruct

end CephExporter.Gob
