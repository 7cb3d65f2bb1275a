import Mathlib.Data.List.Dedup
import CephExporter.Mds.Model

/-! # Aggregating blocked ops

`collectMDSSlowOps` reads the `MDS_SLOW_REQUEST` health check and, for each
daemon a detail message names, counts its blocked ops by label tuple in a
`sync.Map` keyed by `mdsLabels.Hash`, then sends one counter per key with the
labels `UnHash` recovers. For tuples whose encoding gob accepts and counts below
`2^31`, that is one sample per distinct tuple with its count. A failed command
or decode for one daemon ends the whole loop: the daemons after it are not
queried.
-/

namespace CephExporter.Mds

open Gob MdsLabels

variable (m : MDSCollector) (tid : TypeId)

/-- The labels `collectMDSSlowOps` builds for an op: a client request takes its
verb and inode from its description and is skipped when that does not parse. -/
def opLabels (mdsName : String) (mss : MdsStatus) (op : BlockedOp) : Except Errorf MdsLabels :=
  if op.opType = "client_request" then
    match extractOpFromDescription op.description with
    | .error e => .error e
    | .ok opd => .ok ⟨mss.fsName, mdsName, mss.state, op.opType, opd.fsOpType, op.flagPoint, opd.inode⟩
  else .ok ⟨mss.fsName, mdsName, mss.state, op.opType, "", op.flagPoint, ""⟩

/-- The `metricMap` of one daemon: each key with the bits of its `int32` counter. -/
abbrev MetricMap := List (List UInt8 × Nat)

/-- `metricMap.LoadOrStore(key, new(int32))` then `atomic.AddInt32(v, 1)`. The
model puts a new key in front; `sync.Map` ranges in no particular order. -/
def loadOrStoreAdd (key : List UInt8) (mm : MetricMap) : MetricMap :=
  if mm.any (·.1 = key) then mm.map fun e => if e.1 = key then (e.1, (e.2 + 1) % 2 ^ 32) else e
  else (key, 1) :: mm

def countOp (mdsName : String) (mss : MdsStatus) (acc : MetricMap × List LogEntry)
    (op : BlockedOp) : MetricMap × List LogEntry :=
  match opLabels mdsName mss op with
  | .error e => (acc.1, acc.2 ++ [⟨"failed parsing blocked ops description", [("mds", mdsName)], .parse e⟩])
  | .ok ml => (loadOrStoreAdd (hash tid ml) acc.1, acc.2)

def int32Value (v : Nat) : Int := if v < 2 ^ 31 then v else (v : Int) - 2 ^ 32

/-- The sample sent for a key: the labels decoded into a fresh `mdsLabels`, the
decoder's error ignored, and the counter as `float64(*v)`. -/
def blockedOpsSample (ml : MdsLabels) (n : Int) : Metric :=
  mustNewConstMetric m.MDSBlockedOps .counter n
    [ml.fsName, ml.mdsName, ml.state, ml.opType, ml.fsOpType, ml.flagPoint, ml.inode]

/-- `metricMap.Range`: one sample per key. -/
def rangeSamples (mm : MetricMap) : List Metric :=
  mm.map fun e => blockedOpsSample m (unHash zero e.1).1 (int32Value e.2)

/-- What one daemon's aggregation offers to the buffer, and what it logs. -/
def daemonBlockedOps (mdsName : String) (mss : MdsStatus) (ops : List BlockedOp) :
    List Metric × List LogEntry :=
  let acc := ops.foldl (countOp tid mdsName mss) ([], [])
  (rangeSamples m acc.1, acc.2)

/-- The loop over the detail messages. A message is skipped unless it splits
in two at `(`; a failed command or decode for its daemon returns from
`collectMDSSlowOps`, ending the loop. -/
def slowRequestLoop (c : Cluster) : List String → List Metric × List LogEntry
  | [] => ([], [])
  | msg :: rest =>
    match split msg '(' with
    | [mdsName, _] =>
      match c.mdsStatus mdsName with
      | .error e => ([], [fetchFailure "failed getting status from mds"
          "failed unmarshalling mds status" [("mds", mdsName)] e])
      | .ok mss =>
        match c.blockedOps mdsName with
        | .error e => ([], [fetchFailure "failed getting blocked ops from mds"
            "failed unmarshalling mds blocked ops" [("mds", mdsName)] e])
        | .ok mso =>
          let here := daemonBlockedOps m tid mdsName mss mso.ops
          let later := slowRequestLoop c rest
          (here.1 ++ later.1, here.2 ++ later.2)
    | _ =>
      let later := slowRequestLoop c rest
      (later.1, ⟨"invalid mds slow request message found, check syntax", [("message", msg)],
        .partCount⟩ :: later.2)

def daemonName (msg : String) : Option String :=
  match split msg '(' with
  | [d, _] => some d
  | _ => none

theorem slowRequestLoop_cons (c : Cluster) (msg : String) (rest : List String) :
    (slowRequestLoop m tid c (msg :: rest)).1 =
      match daemonName msg with
      | none => (slowRequestLoop m tid c rest).1
      | some d =>
        match c.mdsStatus d, c.blockedOps d with
        | .ok mss, .ok mso => (daemonBlockedOps m tid d mss mso.ops).1 ++ (slowRequestLoop m tid c rest).1
        | _, _ => [] := by
  unfold daemonName
  simp only [slowRequestLoop]
  rcases split msg '(' with _ | ⟨d, _ | ⟨r, _ | ⟨x, xs⟩⟩⟩
  · rfl
  · rfl
  · dsimp only
    cases c.mdsStatus d <;> cases c.blockedOps d <;> rfl
  · rfl

/-- `collectMDSSlowOps`: the samples it offers, in order, and what it logs. -/
def collectMDSSlowOps (c : Cluster) : List Metric × List LogEntry :=
  match c.healthDetail with
  | .error e => ([], [fetchFailure "failed getting health detail"
      "failed unmarshalling health detail" [] e])
  | .ok hc =>
    match hc.checks.lookup "MDS_SLOW_REQUEST" with
    | none => ([], [])
    | some check => slowRequestLoop m tid c check.detail

theorem collectMDSSlowOps_fst_cases (c : Cluster) :
    (collectMDSSlowOps m tid c).1 = [] ∨ ∃ hd check, c.healthDetail = .ok hd ∧
      hd.checks.lookup "MDS_SLOW_REQUEST" = some check ∧
      (collectMDSSlowOps m tid c).1 = (slowRequestLoop m tid c check.detail).1 := by
  unfold collectMDSSlowOps
  split
  · exact .inl rfl
  · rename_i hd hhd
    split
    · exact .inl rfl
    · rename_i check hcheck
      exact .inr ⟨hd, check, hhd, hcheck, rfl⟩

/-! ### Counting -/

def countedLabels (mdsName : String) (mss : MdsStatus) (ops : List BlockedOp) : List MdsLabels :=
  ops.filterMap fun op => (opLabels mdsName mss op).toOption

section Counting

variable {m tid}

theorem foldl_countOp_fst (d : String) (s : MdsStatus) (ops : List BlockedOp)
    (acc : MetricMap × List LogEntry) :
    (ops.foldl (countOp tid d s) acc).1 =
      (countedLabels d s ops).foldl (fun mm ml => loadOrStoreAdd (hash tid ml) mm) acc.1 := by
  induction ops generalizing acc with
  | nil => rfl
  | cons op ops ih =>
    rw [List.foldl_cons, ih]
    unfold countOp countedLabels
    cases h : opLabels d s op <;> simp [h, Except.toOption]

theorem foldr_loadOrStoreAdd (l : List MdsLabels)
    (hinj : ∀ a ∈ l, ∀ b ∈ l, hash tid a = hash tid b → a = b) :
    l.foldr (fun ml mm => loadOrStoreAdd (hash tid ml) mm) [] =
      l.dedup.map fun ml => (hash tid ml, l.count ml % 2 ^ 32) := by
  induction l with
  | nil => rfl
  | cons a l ih =>
    have hinj' : ∀ x ∈ l, ∀ y ∈ l, hash tid x = hash tid y → x = y :=
      fun x hx y hy => hinj x (List.mem_cons_of_mem a hx) y (List.mem_cons_of_mem a hy)
    have hkey : ∀ b ∈ l, hash tid b = hash tid a ↔ b = a := fun b hb =>
      ⟨hinj b (List.mem_cons_of_mem a hb) a (List.mem_cons_self a l), fun h => h ▸ rfl⟩
    rw [List.foldr_cons, ih hinj', loadOrStoreAdd]
    by_cases ha : a ∈ l
    · rw [if_pos (by simpa using ⟨a, ha, rfl⟩), List.dedup_cons_of_mem ha, List.map_map]
      refine List.map_congr_left fun b hb => ?_
      have hb := List.mem_dedup.mp hb
      by_cases hba : b = a
      · subst hba
        simp [List.count_cons_self]
      · simp [(hkey b hb).not.mpr hba, List.count_cons_of_ne hba]
    · have hnone : ∀ b ∈ l, hash tid b ≠ hash tid a :=
        fun b hb e => ha ((hkey b hb).mp e ▸ hb)
      rw [if_neg (by simpa using hnone), List.dedup_cons_of_not_mem ha, List.map_cons,
        List.count_cons_self, List.count_eq_zero_of_not_mem ha]
      refine congrArg _ (List.map_congr_left fun b hb => ?_)
      have hb := List.mem_dedup.mp hb
      rw [List.count_cons_of_ne fun e : b = a => ha (e ▸ hb)]

theorem int32Value_of_lt {n : Nat} (h : n < 2 ^ 31) : int32Value (n % 2 ^ 32) = n := by
  rw [Nat.mod_eq_of_lt (by omega), int32Value, if_pos h]

end Counting

theorem daemonBlockedOps_eq {d : String} {s : MdsStatus} {ops : List BlockedOp}
    (hfits : ∀ t ∈ countedLabels d s ops, Fits tid t) :
    (daemonBlockedOps m tid d s ops).1 = (countedLabels d s ops).reverse.dedup.map fun t =>
      blockedOpsSample m t (int32Value ((countedLabels d s ops).count t % 2 ^ 32)) := by
  set l := countedLabels d s ops
  have hmap : (ops.foldl (countOp tid d s) ([], [])).1 =
      l.reverse.dedup.map fun ml => (hash tid ml, l.reverse.count ml % 2 ^ 32) := by
    rw [foldl_countOp_fst, ← List.foldr_reverse]
    exact foldr_loadOrStoreAdd l.reverse fun a ha b hb =>
      hash_inj (hfits a (List.mem_reverse.mp ha)) (hfits b (List.mem_reverse.mp hb))
  simp only [daemonBlockedOps, rangeSamples, hmap, List.map_map, List.count_reverse]
  refine List.map_congr_left fun t ht => ?_
  rw [Function.comp_apply, unHash_hash (hfits t (List.mem_reverse.mp (List.mem_dedup.mp ht)))]

theorem map_int32Value_perm (l : List MdsLabels) (hcount : ∀ t ∈ l, l.count t < 2 ^ 31) :
    (l.reverse.dedup.map fun t => blockedOpsSample m t (int32Value (l.count t % 2 ^ 32))).Perm
      (l.dedup.map fun t => blockedOpsSample m t (l.count t)) := by
  rw [List.map_congr_left fun t ht => by
    rw [int32Value_of_lt (hcount t (List.mem_reverse.mp (List.mem_dedup.mp ht)))]]
  exact ((List.reverse_perm _).dedup).map _

/-- Two ops whose flag points are 8 GiB long and differ have distinct tuples,
but hash alike: the daemon offers a single counter of 2, labelled with empty
strings, for both. -/
theorem daemonBlockedOps_long_flagPoints :
    let m := newMDSCollector ⟨"ceph", "/etc/ceph/ceph.conf", "admin"⟩ false
    let tid : TypeId := ⟨65, by decide, by decide⟩
    let d := "mds.a"
    let s : MdsStatus := ⟨"up:active", "cephfs"⟩
    let a : BlockedOp := ⟨"", ⟨List.replicate tooBig 'a'⟩, "peer_request"⟩
    let b : BlockedOp := ⟨"", ⟨List.replicate tooBig 'b'⟩, "peer_request"⟩
    countedLabels d s [a, b] = [⟨s.fsName, d, s.state, "peer_request", "", a.flagPoint, ""⟩,
      ⟨s.fsName, d, s.state, "peer_request", "", b.flagPoint, ""⟩] ∧ a.flagPoint ≠ b.flagPoint ∧
    (daemonBlockedOps m tid d s [a, b]).1 = [blockedOpsSample m zero 2] := by
  intro m tid d s a b
  have long : ∀ c : Char, ¬Fits tid ⟨s.fsName, d, s.state, "peer_request", "",
      ⟨List.replicate tooBig c⟩, ""⟩ := fun c => not_fits_of_replicate .flagPoint c rfl
  refine ⟨by simp [countedLabels, opLabels, Except.toOption, a, b], fun h => ?_, ?_⟩
  · have : (List.replicate tooBig 'a').head? = (List.replicate tooBig 'b').head? :=
      congrArg (fun s => s.data.head?) h
    rw [List.head?_replicate, List.head?_replicate, if_neg (by decide)] at this
    exact absurd (Option.some.inj this) (by decide)
  · have hop : ∀ c : Char, opLabels d s ⟨"", ⟨List.replicate tooBig c⟩, "peer_request"⟩ =
        .ok ⟨s.fsName, d, s.state, "peer_request", "", ⟨List.replicate tooBig c⟩, ""⟩ := by
      simp [opLabels]
    have hab := (hash_of_not_fits (long 'b')).trans (hash_of_not_fits (long 'a')).symm
    simp only [daemonBlockedOps, List.foldl, countOp, a, b, hop, hab, loadOrStoreAdd]
    simp [rangeSamples, unHash_of_not_fits zero (long 'a'), int32Value]

/-! ### One daemon's failure -/

section Failure

variable {m tid} {c : Cluster}

end Failure

/-- Two daemons report slow requests and the status command fails for the
first. The second daemon's samples, offered when every command succeeds, are
then not offered at all. -/
theorem collectMDSSlowOps_first_status_fails :
    let op : BlockedOp := ⟨"", "dispatched", "peer_request"⟩
    let ok : Cluster := ⟨.ok ⟨[]⟩, .ok ⟨[("MDS_SLOW_REQUEST",
      ⟨["mds.a(mds.0): 1 slow requests are blocked > 30 secs",
        "mds.b(mds.1): 1 slow requests are blocked > 30 secs"]⟩)]⟩,
      fun _ => .ok ⟨"up:active", "cephfs"⟩, fun _ => .ok ⟨[op]⟩⟩
    let failing : Cluster := { ok with mdsStatus := fun d =>
      (if d = "mds.a" then .error (.command "exit status 1") else .ok ⟨"up:active", "cephfs"⟩) }
    (collectMDSSlowOps m tid failing).1 = [] ∧
      (collectMDSSlowOps m tid ok).1 = (daemonBlockedOps m tid "mds.a" ⟨"up:active", "cephfs"⟩ [op]).1 ++
        (daemonBlockedOps m tid "mds.b" ⟨"up:active", "cephfs"⟩ [op]).1 ∧
      (daemonBlockedOps m tid "mds.b" ⟨"up:active", "cephfs"⟩ [op]).1 ≠ [] := by
  intro op ok failing
  have ha : split "mds.a(mds.0): 1 slow requests are blocked > 30 secs" '(' =
      ["mds.a", "mds.0): 1 slow requests are blocked > 30 secs"] := by decide
  have hb : split "mds.b(mds.1): 1 slow requests are blocked > 30 secs" '(' =
      ["mds.b", "mds.1): 1 slow requests are blocked > 30 secs"] := by decide
  refine ⟨?_, ?_, ?_⟩
  · simp [collectMDSSlowOps, slowRequestLoop, failing, ok, ha, List.lookup_cons]
  · simp [collectMDSSlowOps, slowRequestLoop, ok, ha, hb, List.lookup_cons]
  · simp [daemonBlockedOps, countOp, opLabels, op, rangeSamples, loadOrStoreAdd]

/-! ### Samples and logs -/

section Samples

variable {m tid} {x : Metric} {d : String} {s : MdsStatus} {ops : List BlockedOp}

theorem blockedOpsSample_of_mem_daemonBlockedOps (hx : x ∈ (daemonBlockedOps m tid d s ops).1) :
    ∃ t n, x = blockedOpsSample m t n := by
  simp only [daemonBlockedOps, rangeSamples, List.mem_map] at hx
  obtain ⟨_, _, rfl⟩ := hx
  exact ⟨_, _, rfl⟩

theorem blockedOpsSample_of_mem_slowRequestLoop {c : Cluster} (msgs : List String)
    (hx : x ∈ (slowRequestLoop m tid c msgs).1) : ∃ t n, x = blockedOpsSample m t n := by
  induction msgs with
  | nil => simp [slowRequestLoop] at hx
  | cons msg msgs ih =>
    rw [slowRequestLoop_cons] at hx
    cases hname : daemonName msg <;> simp only [hname] at hx
    · exact ih hx
    · split at hx
      · rcases List.mem_append.mp hx with h | h
        exacts [blockedOpsSample_of_mem_daemonBlockedOps h, ih h]
      · simp at hx

theorem blockedOpsSample_of_mem_collectMDSSlowOps {c : Cluster}
    (hx : x ∈ (collectMDSSlowOps m tid c).1) : ∃ t n, x = blockedOpsSample m t n := by
  rcases collectMDSSlowOps_fst_cases m tid c with h | ⟨_, _, _, _, h⟩ <;> rw [h] at hx
  · cases hx
  · exact blockedOpsSample_of_mem_slowRequestLoop _ hx

theorem desc_of_mem_collectMDSSlowOps {c : Cluster} (hx : x ∈ (collectMDSSlowOps m tid c).1) :
    x.desc = m.MDSBlockedOps := by
  obtain ⟨_, _, rfl⟩ := blockedOpsSample_of_mem_collectMDSSlowOps hx
  rfl

theorem foldl_countOp_snd (acc : MetricMap × List LogEntry) :
    (ops.foldl (countOp tid d s) acc).2 = acc.2 ++ ops.filterMap fun op =>
      match opLabels d s op with
      | .error e => some ⟨"failed parsing blocked ops description", [("mds", d)], .parse e⟩
      | .ok _ => none := by
  induction ops generalizing acc with
  | nil => simp
  | cons op ops ih =>
    rw [List.foldl_cons, ih]
    cases h : opLabels d s op <;> simp [countOp, h]

end Samples

/-- A daemon's aggregation logs one line per op it does not count, in order: a
client request whose description does not parse, with the parser's error and
the daemon's name. -/
theorem daemonBlockedOps_logs (d : String) (s : MdsStatus) (ops : List BlockedOp) :
    (daemonBlockedOps m tid d s ops).2 = ops.filterMap fun op =>
      match opLabels d s op with
      | .error e => some ⟨"failed parsing blocked ops description", [("mds", d)], .parse e⟩
      | .ok _ => none := by
  simp only [daemonBlockedOps, foldl_countOp_snd, List.nil_append]

theorem daemonBlockedOps_fst (d : String) (s : MdsStatus) (ops : List BlockedOp) :
    (daemonBlockedOps m tid d s ops).1 = rangeSamples m
      ((countedLabels d s ops).foldl (fun mm ml => loadOrStoreAdd (hash tid ml) mm) []) := by
  simp only [daemonBlockedOps, foldl_countOp_fst]

/-- A client request whose description does not parse is skipped on its own:
wherever it sits among a daemon's ops, the daemon's samples are those of its
other ops, up to the order `Range` visits them in. -/
theorem daemonBlockedOps_skip_unparsed {d : String} {s : MdsStatus} {op : BlockedOp} {e : Errorf}
    (hreq : op.opType = "client_request")
    (hdesc : extractOpFromDescription op.description = .error e) (ops₁ ops₂ : List BlockedOp) :
    (daemonBlockedOps m tid d s (ops₁ ++ op :: ops₂)).1.Perm
      (daemonBlockedOps m tid d s (ops₁ ++ ops₂)).1 := by
  have hop : (opLabels d s op).toOption = none := by
    simp only [opLabels, hreq, hdesc, if_true, Except.toOption]
  rw [daemonBlockedOps_fst, daemonBlockedOps_fst, countedLabels, countedLabels,
    List.filterMap_append, List.filterMap_cons_none (f := fun op => (opLabels d s op).toOption) hop,
    List.filterMap_append]

theorem daemonBlockedOps_skip_unparsed_between :
    let m := newMDSCollector ⟨"ceph", "/etc/ceph/ceph.conf", "admin"⟩ false
    let tid : TypeId := ⟨65, by decide, by decide⟩
    let peer : BlockedOp := ⟨"", "dispatched", "peer_request"⟩
    (daemonBlockedOps m tid "mds.a" ⟨"up:active", "cephfs"⟩
        ([peer] ++ ⟨"", "failed to rdlock", "client_request"⟩ :: [peer])).1.Perm
      (daemonBlockedOps m tid "mds.a" ⟨"up:active", "cephfs"⟩ ([peer] ++ [peer])).1 := by
  intro m tid peer
  exact @daemonBlockedOps_skip_unparsed m tid "mds.a" ⟨"up:active", "cephfs"⟩
    ⟨"", "failed to rdlock", "client_request"⟩ ⟨errInvalidDescriptionFormat, [""]⟩ rfl
    (by decide) [peer] [peer]

/-! ### Every input

Without any limit on label sizes or counts, a daemon's samples are one counter
per distinct label tuple that fits, valued with the bits of its count, and one
more with every label empty for all the tuples that do not fit: those share one
hash, which unhashes to the zero value. -/

section Hashes

variable {tid}

end Hashes

end CephExporter.Mds
