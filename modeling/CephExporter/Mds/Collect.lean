import CephExporter.Mds.SlowOps

/-! # One collection pass

`MDSCollector.collect` runs `mds stat`, offers a `ceph_mds_daemon_state` gauge
per filesystem and info entry, and then the blocked-op counters of
`collectMDSSlowOps`. When the stat payload names each daemon of a filesystem
once, the slow-request check names each daemon once and every counted tuple
fits gob's limit, no two samples of a pass share descriptor and label values.
-/

namespace CephExporter.Mds

open Gob MdsLabels

variable (m : MDSCollector) (tid : TypeId)

def stateSample (fsName : String) (info : MdsInfo) : Metric :=
  mustNewConstMetric m.MDSState .gauge 1 [fsName, info.name, toString info.rank, info.state]

/-- The loops over the filesystems and their `info` maps. -/
def stateSamples (ms : MdsStat) : List Metric :=
  ms.filesystems.flatMap fun fs => fs.info.map fun e => stateSample m fs.fsName e.2

/-- `MDSCollector.collect`: the samples it offers to the buffer, in order, and
its error. -/
def collect (c : Cluster) : List Metric × Option Errorf :=
  match c.mdsStat with
  | .error (.command err) => ([], some ⟨"failed getting mds stat: %w", [err]⟩)
  | .error (.unmarshal err) => ([], some ⟨"failed unmarshalling mds stat json: %w", [err]⟩)
  | .ok ms => (stateSamples m ms ++ (collectMDSSlowOps m tid c).1, none)

/-! ### No duplicates -/

/-- What identifies a sample in a scrape: its descriptor and label values. -/
def sampleKey (x : Metric) : Desc × List String := (x.desc, x.labelValues)

/-- The payload conditions under which a pass offers no two samples alike: no
two info entries share filesystem and daemon name, the slow-request check names
each daemon once, and every counted tuple is within gob's limit. -/
structure Distinct (c : Cluster) : Prop where
  stat : ∀ ms, c.mdsStat = .ok ms →
    (ms.filesystems.flatMap fun fs => fs.info.map fun e => (fs.fsName, e.2.name)).Nodup
  daemons : ∀ hc check, c.healthDetail = .ok hc → hc.checks.lookup "MDS_SLOW_REQUEST" = some check →
    (check.detail.filterMap daemonName).Nodup
  fits : ∀ d mss mso, c.mdsStatus d = .ok mss → c.blockedOps d = .ok mso →
    ∀ t ∈ countedLabels d mss mso.ops, Fits tid t

section Nodup

variable {m tid}

theorem mdsName_of_mem_countedLabels {d : String} {s : MdsStatus} {ops : List BlockedOp}
    {t : MdsLabels} (ht : t ∈ countedLabels d s ops) : t.mdsName = d := by
  obtain ⟨op, -, hop⟩ := List.mem_filterMap.mp ht
  unfold opLabels at hop
  split_ifs at hop
  · split at hop
    · simp [Except.toOption] at hop
    · simp only [Except.toOption, Option.some.injEq] at hop
      rw [← hop]
  · simp only [Except.toOption, Option.some.injEq] at hop
    rw [← hop]

theorem sampleKey_blockedOpsSample_injective :
    Function.Injective fun t => sampleKey (blockedOpsSample m t 0) := by
  intro a b h
  simp only [sampleKey, blockedOpsSample, mustNewConstMetric, Prod.mk.injEq, List.cons.injEq] at h
  cases a; cases b
  simp_all

theorem nodup_daemonBlockedOps {d : String} {s : MdsStatus} {ops : List BlockedOp}
    (hfits : ∀ t ∈ countedLabels d s ops, Fits tid t) :
    ((daemonBlockedOps m tid d s ops).1.map sampleKey).Nodup := by
  rw [daemonBlockedOps_eq m tid hfits, List.map_map]
  exact (List.nodup_dedup _).map sampleKey_blockedOpsSample_injective

theorem mdsName_of_mem_daemonBlockedOps {d : String} {s : MdsStatus} {ops : List BlockedOp}
    (hfits : ∀ t ∈ countedLabels d s ops, Fits tid t) {x : Metric}
    (hx : x ∈ (daemonBlockedOps m tid d s ops).1) : x.labelValues[1]? = some d := by
  rw [daemonBlockedOps_eq m tid hfits, List.mem_map] at hx
  obtain ⟨t, ht, rfl⟩ := hx
  simp [blockedOpsSample, mustNewConstMetric,
    mdsName_of_mem_countedLabels (List.mem_reverse.mp (List.mem_dedup.mp ht))]

section Loop

variable {c : Cluster} (hfits : ∀ d mss mso, c.mdsStatus d = .ok mss → c.blockedOps d = .ok mso →
  ∀ t ∈ countedLabels d mss mso.ops, Fits tid t)
include hfits

theorem mdsName_of_mem_slowRequestLoop (msgs : List String) {x : Metric}
    (hx : x ∈ (slowRequestLoop m tid c msgs).1) :
    ∃ d ∈ msgs.filterMap daemonName, x.labelValues[1]? = some d := by
  induction msgs with
  | nil => simp [slowRequestLoop] at hx
  | cons msg msgs ih =>
    rw [slowRequestLoop_cons] at hx
    rw [List.filterMap_cons]
    cases hname : daemonName msg <;> simp only [hname] at hx
    · exact ih hx
    · rename_i d
      split at hx
      · rename_i mss mso hs hb
        rcases List.mem_append.mp hx with h | h
        · exact ⟨d, List.mem_cons_self _ _,
            mdsName_of_mem_daemonBlockedOps (hfits d mss mso hs hb) h⟩
        · obtain ⟨d', hd', h'⟩ := ih h
          exact ⟨d', List.mem_cons_of_mem _ hd', h'⟩
      · simp at hx

theorem nodup_slowRequestLoop (msgs : List String) (hnames : (msgs.filterMap daemonName).Nodup) :
    ((slowRequestLoop m tid c msgs).1.map sampleKey).Nodup := by
  induction msgs with
  | nil => simp [slowRequestLoop]
  | cons msg msgs ih =>
    rw [slowRequestLoop_cons]
    rw [List.filterMap_cons] at hnames
    cases hname : daemonName msg with
    | none => exact ih (by simpa [hname] using hnames)
    | some d =>
      simp only [hname, List.nodup_cons] at hnames
      dsimp only
      split
      · rename_i mss mso hs hb
        rw [List.map_append, List.nodup_append]
        refine ⟨nodup_daemonBlockedOps (hfits d mss mso hs hb), ih hnames.2, ?_⟩
        simp only [List.Disjoint, List.mem_map]
        rintro _ ⟨x, hx, rfl⟩ ⟨y, hy, hxy⟩
        obtain ⟨d', hd', h'⟩ := mdsName_of_mem_slowRequestLoop hfits msgs hy
        have hx := mdsName_of_mem_daemonBlockedOps (hfits d mss mso hs hb) hx
        rw [show y.labelValues = x.labelValues from congrArg Prod.snd hxy, hx,
          Option.some.injEq] at h'
        exact hnames.1 (h' ▸ hd')
      · simp

end Loop

theorem nodup_stateSamples {ms : MdsStat}
    (h : (ms.filesystems.flatMap fun fs => fs.info.map fun e => (fs.fsName, e.2.name)).Nodup) :
    ((stateSamples m ms).map sampleKey).Nodup := by
  refine List.Nodup.of_map (fun k => (k.2.getD 0 "", k.2.getD 1 "")) ?_
  simpa [stateSamples, List.map_flatMap, sampleKey, stateSample, mustNewConstMetric] using h

end Nodup

theorem nodup_collect (e : Exporter) (bg : Bool) {c : Cluster} (hc : Distinct tid c) :
    ((collect (newMDSCollector e bg) tid c).1.map sampleKey).Nodup := by
  unfold collect
  split
  · simp
  · simp
  · rename_i ms hms
    have hslow : ((collectMDSSlowOps (newMDSCollector e bg) tid c).1.map sampleKey).Nodup := by
      rcases collectMDSSlowOps_fst_cases (newMDSCollector e bg) tid c with
        h | ⟨hd, check, hhd, hcheck, h⟩ <;> rw [h]
      · exact List.nodup_nil
      · exact nodup_slowRequestLoop hc.fits _ (hc.daemons hd check hhd hcheck)
    rw [List.map_append, List.nodup_append]
    refine ⟨nodup_stateSamples (hc.stat ms hms), hslow, ?_⟩
    simp only [List.Disjoint, List.mem_map]
    rintro _ ⟨x, hx, rfl⟩ ⟨y, hy, hxy⟩
    have hxd : x.desc = (newMDSCollector e bg).MDSState := by
      simp only [stateSamples, List.mem_flatMap, List.mem_map] at hx
      obtain ⟨_, _, _, _, rfl⟩ := hx
      rfl
    have hyd := desc_of_mem_collectMDSSlowOps hy
    exact mdsState_ne_mdsBlockedOps e bg (hxd ▸ hyd ▸ (congrArg Prod.fst hxy).symm)

end CephExporter.Mds
