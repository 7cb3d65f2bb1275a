import CephExporter.Mds.Description
import CephExporter.Mds.Labels

/-! # The MDS collector and what it reads

The collector's descriptors and samples as `client_golang` builds them, the
collector as `NewMDSCollector` sets it up, and the decoded replies of the four
cluster commands it runs. A command either fails, fails to decode, or yields
the decoded payload; which payload is the cluster's business, so every result
here ranges over all of them.
-/

namespace CephExporter.Mds

def cephNamespace : String := "ceph"

structure Exporter where
  cluster : String
  config : String
  user : String

structure Desc where
  fqName : String
  help : String
  variableLabels : List String
  constLabels : List (String × String)
  deriving DecidableEq, Repr

inductive ValueType
  | counter
  | gauge
  deriving DecidableEq, Repr

/-- A constant sample: its descriptor, kind, value and label values. Values are
integers here (a gauge of 1, or an `int32` count), which a `float64` holds
exactly. -/
structure Metric where
  desc : Desc
  valueType : ValueType
  value : Int
  labelValues : List String
  deriving DecidableEq, Repr

/-- `prometheus.MustNewConstMetric`. Its panic when the label values do not
match the descriptor's variable labels in number is not modelled: both calls in
the collector pass as many as the descriptor has. -/
def mustNewConstMetric (desc : Desc) (valueType : ValueType) (value : Int)
    (labelValues : List String) : Metric :=
  ⟨desc, valueType, value, labelValues⟩

/-- `MDSCollector`, without its logger, its channel (the pipeline's state) and
its command runners (the cluster's replies). -/
structure MDSCollector where
  config : String
  user : String
  background : Bool
  MDSState : Desc
  MDSBlockedOps : Desc

def newMDSCollector (exporter : Exporter) (background : Bool) : MDSCollector where
  config := exporter.config
  user := exporter.user
  background := background
  MDSState := ⟨cephNamespace ++ "_" ++ "mds_daemon_state", "MDS Daemon State",
    ["fs", "name", "rank", "state"], [("cluster", exporter.cluster)]⟩
  MDSBlockedOps := ⟨cephNamespace ++ "_" ++ "mds_blocked_ops", "MDS Blocked Ops",
    ["fs", "name", "state", "optype", "fs_optype", "flag_point", "inode"],
    [("cluster", exporter.cluster)]⟩

def collectorList (_ : MDSCollector) : List Desc := []

def descriptorList (m : MDSCollector) : List Desc := [m.MDSState]

def describe (m : MDSCollector) : List Desc := collectorList m ++ descriptorList m

theorem mdsState_ne_mdsBlockedOps (e : Exporter) (bg : Bool) :
    (newMDSCollector e bg).MDSState ≠ (newMDSCollector e bg).MDSBlockedOps := by
  simp [newMDSCollector, cephNamespace]

/-! ### Payloads -/

/-- An entry of `mdsmap.info`; its `gid` is read by nothing. -/
structure MdsInfo where
  name : String
  rank : Int
  state : String
  deriving DecidableEq, Repr

/-- A filesystem of `fsmap.filesystems`: its name and its `info` map, whose
entries Go ranges over in no particular order. -/
structure Filesystem where
  fsName : String
  info : List (String × MdsInfo)
  deriving DecidableEq, Repr

structure MdsStat where
  filesystems : List Filesystem
  deriving DecidableEq, Repr

structure HealthCheck where
  detail : List String
  deriving DecidableEq, Repr

structure HealthDetailCheck where
  checks : List (String × HealthCheck)
  deriving DecidableEq, Repr

structure MdsStatus where
  state : String
  fsName : String
  deriving DecidableEq, Repr

/-- An op of `dump_blocked_ops`: its description and the `type_data` fields read. -/
structure BlockedOp where
  description : String
  flagPoint : String
  opType : String
  deriving DecidableEq, Repr

structure MdsSlowOp where
  ops : List BlockedOp
  deriving DecidableEq, Repr

/-- Why a command's reply is missing: the command failed (`exec` or the
timeout), or its output is not the JSON expected. -/
inductive FetchError
  | command (err : String)
  | unmarshal (err : String)
  deriving DecidableEq, Repr

/-- The replies the cluster gives to one collection pass. The two per-daemon
commands are answered by daemon name. -/
structure Cluster where
  mdsStat : Except FetchError MdsStat
  healthDetail : Except FetchError HealthDetailCheck
  mdsStatus : String → Except FetchError MdsStatus
  blockedOps : String → Except FetchError MdsSlowOp

/-- The error a log line carries: the text of a command's or a decoder's
error, `extractOpFromDescription`'s error, or `errors.New("incorrect part count")`. -/
inductive LogError
  | text (err : String)
  | parse (e : Errorf)
  | partCount
  deriving DecidableEq, Repr

structure LogEntry where
  msg : String
  fields : List (String × String)
  err : LogError
  deriving DecidableEq, Repr

/-- The log line of a failed command or decode, by which of the two failed. -/
def fetchFailure (getting unmarshalling : String) (fields : List (String × String)) :
    FetchError → LogEntry
  | .command err => ⟨getting, fields, .text err⟩
  | .unmarshal err => ⟨unmarshalling, fields, .text err⟩

/-- `strings.Split(s, sep)` for a one-rune separator: the pieces between the
separators, one more than there are separators. -/
def split (s : String) (sep : Char) : List String := (s.data.splitOn sep).map String.mk

theorem not_mem_of_mem_splitOn {sep : Char} {cs p : List Char} (hp : p ∈ cs.splitOn sep) : sep ∉ p := by
  induction cs generalizing p with
  | nil => simp_all
  | cons c cs ih =>
    rw [List.splitOn, List.splitOnP_cons] at hp
    split_ifs at hp with hc
    · rcases List.mem_cons.mp hp with rfl | hp
      exacts [List.not_mem_nil _, ih hp]
    · obtain ⟨q, qs, hq⟩ := List.exists_cons_of_ne_nil (List.splitOnP_ne_nil (· == sep) cs)
      rw [hq, List.modifyHead_cons, List.mem_cons] at hp
      have hq' : ∀ p ∈ q :: qs, sep ∉ p := fun p h => ih (by rw [List.splitOn, hq]; exact h)
      rcases hp with rfl | hp
      · rw [List.mem_cons, not_or]
        exact ⟨fun e => hc (by simp [e]), hq' q (List.mem_cons_self q qs)⟩
      · exact hq' p (List.mem_cons_of_mem q hp)

/-- A message splits in two at `sep` exactly when it is two pieces free of
`sep` joined by one: the daemon name a slow-request message gives is all of
its text before its only `(`. -/
theorem split_eq_pair {s d r : String} {sep : Char} :
    split s sep = [d, r] ↔ s.data = d.data ++ sep :: r.data ∧ sep ∉ d.data ∧ sep ∉ r.data := by
  have hmk : ∀ ps : List (List Char), ps.map String.mk = [d, r] ↔ ps = [d.data, r.data] := by
    intro ps
    constructor
    · intro h
      simpa [List.map_map, Function.comp_def] using congrArg (List.map String.data) h
    · rintro rfl
      rfl
  rw [split, hmk]
  constructor
  · intro h
    refine ⟨?_, not_mem_of_mem_splitOn (h ▸ List.mem_cons_self _ _),
      not_mem_of_mem_splitOn (h ▸ List.mem_cons_of_mem _ (List.mem_singleton_self _))⟩
    simpa [h, List.intercalate] using (List.intercalate_splitOn s.data sep).symm
  · rintro ⟨hs, hd, hr⟩
    have hnot : ∀ l : List Char, sep ∉ l → ∀ x ∈ l, ¬(x == sep) = true :=
      fun l hl x hx e => hl (beq_iff_eq.mp e ▸ hx)
    rw [hs, List.splitOn, List.splitOnP_first _ _ (hnot _ hd) sep (beq_self_eq_true sep),
      List.splitOnP_eq_single _ _ (hnot _ hr)]

end CephExporter.Mds
