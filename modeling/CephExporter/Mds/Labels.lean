import CephExporter.Gob.RoundTrip

/-! # Label values and their gob hash

`collectMDSSlowOps` counts blocked ops in a `sync.Map` keyed by `mdsLabels.Hash`,
the gob encoding of the seven label values, and turns each key back into labels
with `UnHash`. For every label value whose encoding gob accepts, `UnHash`
inverts `Hash`, so hashing is injective there. Past `tooBig` the encoder refuses
the value, and all such labels share one hash: the type definition alone.
-/

namespace CephExporter.Mds

open Gob

/-- `mdsLabels`: the label values of one `ceph_mds_blocked_ops` sample. -/
structure MdsLabels where
  fsName : String
  mdsName : String
  state : String
  opType : String
  fsOpType : String
  flagPoint : String
  inode : String
  deriving DecidableEq, Repr

namespace MdsLabels

inductive Field
  | fsName | mdsName | state | opType | fsOpType | flagPoint | inode
  deriving DecidableEq, Repr

def Field.all : List Field := [.fsName, .mdsName, .state, .opType, .fsOpType, .flagPoint, .inode]

def Field.goName : Field → String
  | .fsName => "FSName"
  | .mdsName => "MDSName"
  | .state => "State"
  | .opType => "OpType"
  | .fsOpType => "FSOpType"
  | .flagPoint => "FlagPoint"
  | .inode => "Inode"

def Field.byName? (g : String) : Option Field := Field.all.find? (·.goName = g)

theorem Field.byName?_goName (x : Field) : byName? x.goName = some x := by
  cases x <;> rfl

theorem Field.goName_of_byName? {g : String} {x : Field} (h : byName? g = some x) :
    x.goName = g := by
  simpa using List.find?_some h

theorem Field.goName_injective : Function.Injective Field.goName := fun x y h => by
  have := byName?_goName x
  rw [h, byName?_goName] at this
  exact (Option.some.inj this).symm

def get (ml : MdsLabels) : Field → String
  | .fsName => ml.fsName
  | .mdsName => ml.mdsName
  | .state => ml.state
  | .opType => ml.opType
  | .fsOpType => ml.fsOpType
  | .flagPoint => ml.flagPoint
  | .inode => ml.inode

def set (ml : MdsLabels) (v : String) : Field → MdsLabels
  | .fsName => { ml with fsName := v }
  | .mdsName => { ml with mdsName := v }
  | .state => { ml with state := v }
  | .opType => { ml with opType := v }
  | .fsOpType => { ml with fsOpType := v }
  | .flagPoint => { ml with flagPoint := v }
  | .inode => { ml with inode := v }

theorem get_set (ml : MdsLabels) (v : String) (x y : Field) :
    (ml.set v x).get y = if y = x then v else ml.get y := by
  cases x <;> cases y <;> rfl

theorem ext_get {s t : MdsLabels} (h : ∀ x, s.get x = t.get x) : s = t := by
  have := h .fsName; have := h .mdsName; have := h .state; have := h .opType
  have := h .fsOpType; have := h .flagPoint; have := h .inode
  cases s; cases t; simp_all [get]

def zero : MdsLabels := ⟨"", "", "", "", "", "", ""⟩

@[simp] theorem get_zero (x : Field) : zero.get x = "" := by cases x <;> rfl

/-- `mdsLabels` as gob's reflection sees it. -/
def gobStruct : StringStruct MdsLabels where
  name := "mdsLabels"
  fields := Field.all.map Field.goName
  field ml g := match Field.byName? g with
    | some x => ml.get x
    | none => ""
  setField f v ml := match Field.byName? f with
    | some x => ml.set v x
    | none => ml
  zero := zero
  field_setField := by
    intro f hf g v s
    obtain ⟨x, -, rfl⟩ := List.mem_map.mp hf
    simp only [Field.byName?_goName, get_set]
    cases hg : Field.byName? g with
    | none =>
      have : g ≠ x.goName := fun h => by simp [h, Field.byName?_goName] at hg
      simp [this]
    | some y =>
      have := Field.goName_of_byName? hg
      subst this
      simp only [Field.goName_injective.eq_iff]
  field_zero := by
    intro f
    dsimp only
    split <;> simp
  ext := by
    intro s t h
    apply ext_get
    intro x
    have := h x.goName (List.mem_map_of_mem _ (by cases x <;> decide))
    simpa [Field.byName?_goName] using this
  fields_nodup := by decide
  fields_named := by decide

/-! ### Hash and UnHash -/

/-- `mdsLabels.Hash`: the bytes of a fresh encoder's output. `tid` is the id gob's
registry gave `mdsLabels` when the process first encoded one. -/
def hash (tid : TypeId) (ml : MdsLabels) : List UInt8 := gobStruct.encode tid ml

/-- `mdsLabels.UnHash` into `ml`: the value afterwards, and the error, which
`collectMDSSlowOps` discards. -/
def unHash (ml : MdsLabels) (key : List UInt8) : MdsLabels × Option GobError :=
  gobStruct.decode key ml

/-- The value message of `ml` is one gob writes: under `tooBig`. -/
def Fits (tid : TypeId) (ml : MdsLabels) : Prop := (gobStruct.valueBody tid ml).length < tooBig

instance (tid : TypeId) (ml : MdsLabels) : Decidable (Fits tid ml) := Nat.decLt _ _

theorem field_goName (ml : MdsLabels) (x : Field) : gobStruct.field ml x.goName = ml.get x := by
  simp [gobStruct, Field.byName?_goName]

theorem fits_of_length (tid : TypeId) (ml : MdsLabels)
    (h : 136 + (Field.all.map fun x => (Utf8.bytes (ml.get x)).length).sum < tooBig) :
    Fits tid ml := by
  have := gobStruct.length_valueBody_le tid ml
  have hsum : (gobStruct.fields.map fun f => (Utf8.bytes (gobStruct.field ml f)).length).sum =
      (Field.all.map fun x => (Utf8.bytes (ml.get x)).length).sum := by
    simp only [show gobStruct.fields = Field.all.map Field.goName from rfl, List.map_map,
      Function.comp_def, field_goName]
  simp only [hsum] at this
  unfold Fits
  rw [show gobStruct.fields.length = 7 from rfl] at this
  omega

theorem length_typeBody_lt (tid : TypeId) : (gobStruct.typeBody tid).length < tooBig :=
  lt_of_le_of_lt (gobStruct.length_typeBody_le tid) (by decide)

theorem unHash_hash {tid : TypeId} {ml : MdsLabels} (h : Fits tid ml) :
    unHash zero (hash tid ml) = (ml, none) :=
  gobStruct.decode_encode tid ml (by decide) (by decide) (by decide) (length_typeBody_lt tid) h

theorem hash_inj {tid : TypeId} {ml₁ ml₂ : MdsLabels} (h₁ : Fits tid ml₁) (h₂ : Fits tid ml₂)
    (h : hash tid ml₁ = hash tid ml₂) : ml₁ = ml₂ :=
  (Prod.mk.inj ((unHash_hash h₁).symm.trans (h ▸ unHash_hash h₂))).1

/-- Labels that fit survive the round trip through `Hash` and `UnHash`, and two
such labels have the same hash exactly when they are equal. -/
theorem hash_roundTrip (tid : TypeId) (ml₁ ml₂ : MdsLabels) (h₁ : Fits tid ml₁) (h₂ : Fits tid ml₂) :
    unHash zero (hash tid ml₁) = (ml₁, none) ∧ (hash tid ml₁ = hash tid ml₂ ↔ ml₁ = ml₂) :=
  ⟨unHash_hash h₁, hash_inj h₁ h₂, fun h => h ▸ rfl⟩

theorem hash_roundTrip_rmdir :
    unHash zero (hash ⟨65, by decide, by decide⟩ ⟨"cephfs", "a", "up:active", "client_request",
      "rmdir", "failed to wrlock", "0x10000000030"⟩) = (⟨"cephfs", "a", "up:active",
      "client_request", "rmdir", "failed to wrlock", "0x10000000030"⟩, none) ∧
    (hash ⟨65, by decide, by decide⟩ ⟨"cephfs", "a", "up:active", "client_request", "rmdir",
      "failed to wrlock", "0x10000000030"⟩ = hash ⟨65, by decide, by decide⟩ zero ↔
      (⟨"cephfs", "a", "up:active", "client_request", "rmdir", "failed to wrlock",
        "0x10000000030"⟩ : MdsLabels) = zero) :=
  hash_roundTrip _ _ _ (by decide) (by decide)

/-- Labels whose seven strings total fewer than `tooBig - 136` bytes round-trip
exactly: the limit matters only for label values of gigabytes. -/
theorem unHash_hash_of_length (tid : TypeId) (ml : MdsLabels)
    (h : 136 + (Field.all.map fun x => (Utf8.bytes (ml.get x)).length).sum < tooBig) :
    unHash zero (hash tid ml) = (ml, none) :=
  unHash_hash (fits_of_length tid ml h)

theorem unHash_hash_of_length_rmdir :
    unHash zero (hash ⟨65, by decide, by decide⟩ ⟨"cephfs", "mds.a", "up:active", "client_request",
      "rmdir", "failed to wrlock", "0x10000000030"⟩) = (⟨"cephfs", "mds.a", "up:active",
      "client_request", "rmdir", "failed to wrlock", "0x10000000030"⟩, none) :=
  unHash_hash_of_length _ _ (by decide)

theorem hash_of_not_fits {tid : TypeId} {ml : MdsLabels} (h : ¬Fits tid ml) :
    hash tid ml = encodeUint (gobStruct.typeBody tid).length ++ gobStruct.typeBody tid :=
  gobStruct.encode_of_tooBig tid ml (length_typeBody_lt tid) (not_lt.mp h)

theorem unHash_of_not_fits {tid : TypeId} {ml : MdsLabels} (t : MdsLabels) (h : ¬Fits tid ml) :
    unHash t (hash tid ml) = (t, some .eof) := by
  rw [hash_of_not_fits h]
  exact gobStruct.decode_typeMessage tid t (by decide) (by decide) (by decide)
    (length_typeBody_lt tid)

theorem not_fits_of_get {tid : TypeId} {ml : MdsLabels} (x : Field)
    (h : tooBig ≤ (Utf8.bytes (ml.get x)).length) : ¬Fits tid ml := by
  have := gobStruct.length_le_valueBody tid ml (f := x.goName)
    (List.mem_map_of_mem _ (by cases x <;> decide))
  rw [field_goName] at this
  exact fun hf => absurd (lt_of_le_of_lt (le_trans h this) hf) (lt_irrefl _)

theorem not_fits_of_replicate {tid : TypeId} {ml : MdsLabels} (x : Field) (c : Char)
    (h : ml.get x = ⟨List.replicate tooBig c⟩) : ¬Fits tid ml :=
  not_fits_of_get x (by
    rw [h, Utf8.length_bytes_replicate]
    exact Nat.le_mul_of_pos_right _ (Char.utf8Size_pos c))

/-- Two labels that differ only in an 8 GiB filesystem name hash alike, and
unhashing either gives the zero value and `io.ErrUnexpectedEOF`. -/
theorem hash_collision :
    let tid : TypeId := ⟨65, by decide, by decide⟩
    let a : MdsLabels := { zero with fsName := ⟨List.replicate tooBig 'a'⟩ }
    let b : MdsLabels := { zero with fsName := ⟨List.replicate tooBig 'b'⟩ }
    a ≠ b ∧ hash tid a = hash tid b ∧ unHash zero (hash tid a) = (zero, some .eof) := by
  intro tid a b
  have long : ∀ c : Char, ¬Fits tid { zero with fsName := ⟨List.replicate tooBig c⟩ } :=
    fun c => not_fits_of_replicate .fsName c rfl
  refine ⟨fun h => ?_,
    (hash_of_not_fits (long 'a')).trans (hash_of_not_fits (long 'b')).symm, ?_⟩
  · have : (List.replicate tooBig 'a').head? = (List.replicate tooBig 'b').head? :=
      congrArg (fun ml => ml.fsName.data.head?) h
    rw [List.head?_replicate, List.head?_replicate, if_neg (by decide)] at this
    exact absurd (Option.some.inj this) (by decide)
  · exact unHash_of_not_fits zero (long 'a')

end MdsLabels

end CephExporter.Mds
