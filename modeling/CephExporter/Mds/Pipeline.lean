import CephExporter.Mds.Collect

/-! # Collect, its buffer and its polling loops

`MDSCollector.Collect` either runs a collection pass inline (foreground) or
starts `backgroundCollect` (background), and then drains the collector's
buffer, a channel of capacity 100 written with non-blocking sends, until it
finds it empty. Background loops run forever, a pass every five minutes, and
write into the same buffer.

The model is a state machine over the buffer, the running loops, the `Collect`
call in progress and the calls finished. Its events are the atomic steps of
the goroutines: a `Collect` call begins (running the whole inline pass, which
no other goroutine can interleave with in foreground), receives a sample, or
finds the buffer empty and returns; a loop begins a pass, or offers its next
sample. `Collect` calls do not overlap, as its comment requires; everything
else interleaves freely.
-/

namespace CephExporter.Mds

open Gob MdsLabels

/-- The buffer's capacity, `make(chan prometheus.Metric, 100)`. -/
def capacity : Nat := 100

/-- A send in a `select` with a `default`: dropped when the buffer is full. -/
def offer (ch : List Metric) (x : Metric) : List Metric :=
  if ch.length < capacity then ch ++ [x] else ch

/-- A `Collect` call: what its inline pass generated (foreground only), and
what it has sent to its caller so far. -/
structure Scrape where
  generated : List Metric
  delivered : List Metric
  deriving DecidableEq, Repr

/-- The collector's concurrent state. Each running loop holds the samples of
its current pass it has yet to offer. -/
structure World where
  ch : List Metric
  loops : List (List Metric)
  scrape : Option Scrape
  done : List Scrape
  deriving DecidableEq, Repr

def World.init : World := ⟨[], [], none, []⟩

/-- The atomic steps of a run. A `Collect` call begins against some replies
(in foreground it runs its whole pass, in background it starts a loop), receives
a buffered sample and sends it on, or finds the buffer empty and returns. Loop
`i`, between passes, begins one against some replies, or offers the next sample
of its pass. -/
inductive Event
  | collect (c : Cluster)
  | recv
  | finish
  | cycle (i : Nat) (c : Cluster)
  | offer (i : Nat)

variable (m : MDSCollector) (tid : TypeId)

/-- One step; `none` when the event cannot happen in this state. -/
def step (w : World) : Event → Option World
  | .collect c =>
    match w.scrape with
    | some _ => none
    | none =>
      if m.background then some { w with loops := w.loops ++ [[]], scrape := some ⟨[], []⟩ }
      else some { w with ch := (collect m tid c).1.foldl offer w.ch,
                         scrape := some ⟨(collect m tid c).1, []⟩ }
  | .recv =>
    match w.scrape, w.ch with
    | some sc, x :: rest => some { w with ch := rest, scrape := some ⟨sc.generated, sc.delivered ++ [x]⟩ }
    | _, _ => none
  | .finish =>
    match w.scrape, w.ch with
    | some sc, [] => some { w with scrape := none, done := w.done ++ [sc] }
    | _, _ => none
  | .cycle i c =>
    match w.loops[i]? with
    | some [] => some { w with loops := w.loops.set i (collect m tid c).1 }
    | _ => none
  | .offer i =>
    match w.loops[i]? with
    | some (x :: rest) => some { w with ch := offer w.ch x, loops := w.loops.set i rest }
    | _ => none

def run (w : World) : List Event → Option World
  | [] => some w
  | e :: es => (step m tid w e).bind fun w' => run w' es

def Event.cluster? : Event → Option Cluster
  | .collect c => some c
  | .cycle _ c => some c
  | _ => none

/-- The states a run reaches whose replies all satisfy `ok`. -/
inductive Reachable (ok : Cluster → Prop) : World → Prop
  | init : Reachable ok .init
  | step {w w' : World} {e : Event} : Reachable ok w → (∀ c ∈ e.cluster?, ok c) →
      step m tid w e = some w' → Reachable ok w'

/-! ### Steps -/

section Steps

variable {m tid} {w w' : World} {e : Event}

theorem step_cases (h : step m tid w e = some w') :
    (∃ c, e = .collect c ∧ w.scrape = none ∧ m.background = true ∧
      w' = { w with loops := w.loops ++ [[]], scrape := some ⟨[], []⟩ }) ∨
    (∃ c, e = .collect c ∧ w.scrape = none ∧ m.background = false ∧
      w' = { w with ch := (collect m tid c).1.foldl offer w.ch,
                    scrape := some ⟨(collect m tid c).1, []⟩ }) ∨
    (∃ sc x rest, e = .recv ∧ w.scrape = some sc ∧ w.ch = x :: rest ∧
      w' = { w with ch := rest, scrape := some ⟨sc.generated, sc.delivered ++ [x]⟩ }) ∨
    (∃ sc, e = .finish ∧ w.scrape = some sc ∧ w.ch = [] ∧
      w' = { w with scrape := none, done := w.done ++ [sc] }) ∨
    (∃ i c, e = .cycle i c ∧ w.loops[i]? = some [] ∧
      w' = { w with loops := w.loops.set i (collect m tid c).1 }) ∨
    (∃ i x rest, e = .offer i ∧ w.loops[i]? = some (x :: rest) ∧
      w' = { w with ch := offer w.ch x, loops := w.loops.set i rest }) := by
  cases e with
  | collect c =>
    simp only [step] at h
    split at h
    · cases h
    · rename_i hs
      cases hbg : m.background
      · simp only [hbg] at h
        exact .inr (.inl ⟨c, rfl, hs, rfl, (Option.some.inj h).symm⟩)
      · simp only [hbg, if_true] at h
        exact .inl ⟨c, rfl, hs, rfl, (Option.some.inj h).symm⟩
  | recv =>
    simp only [step] at h
    split at h
    · exact .inr (.inr (.inl ⟨_, _, _, rfl, ‹_›, ‹_›, (Option.some.inj h).symm⟩))
    · cases h
  | finish =>
    simp only [step] at h
    split at h
    · exact .inr (.inr (.inr (.inl ⟨_, rfl, ‹_›, ‹_›, (Option.some.inj h).symm⟩)))
    · cases h
  | cycle i c =>
    simp only [step] at h
    split at h
    · exact .inr (.inr (.inr (.inr (.inl ⟨i, c, rfl, ‹_›, (Option.some.inj h).symm⟩))))
    · cases h
  | offer i =>
    simp only [step] at h
    split at h
    · exact .inr (.inr (.inr (.inr (.inr ⟨i, _, _, rfl, ‹_›, (Option.some.inj h).symm⟩))))
    · cases h

theorem step_collect_bg (hbg : m.background = true) (hs : w.scrape = none) (c : Cluster) :
    step m tid w (.collect c) =
      some { w with loops := w.loops ++ [[]], scrape := some ⟨[], []⟩ } := by
  simp [step, hs, hbg]

theorem step_collect_fg (hbg : m.background = false) (hs : w.scrape = none) (c : Cluster) :
    step m tid w (.collect c) =
      some { w with ch := (collect m tid c).1.foldl offer w.ch,
                    scrape := some ⟨(collect m tid c).1, []⟩ } := by
  simp [step, hs, hbg]

theorem step_recv {sc : Scrape} {x : Metric} {rest : List Metric} (hs : w.scrape = some sc)
    (hch : w.ch = x :: rest) :
    step m tid w .recv = some { w with ch := rest, scrape := some ⟨sc.generated, sc.delivered ++ [x]⟩ } := by
  simp [step, hs, hch]

theorem step_finish {sc : Scrape} (hs : w.scrape = some sc) (hch : w.ch = []) :
    step m tid w .finish = some { w with scrape := none, done := w.done ++ [sc] } := by
  simp [step, hs, hch]

theorem run_of_step (h : step m tid w e = some w') (es : List Event) :
    run m tid w (e :: es) = run m tid w' es := by
  simp [run, h]

theorem run_append (w : World) (es es' : List Event) :
    run m tid w (es ++ es') = (run m tid w es).bind fun w' => run m tid w' es' := by
  induction es generalizing w with
  | nil => rfl
  | cons e es ih =>
    show (step m tid w e).bind (fun w' => run m tid w' (es ++ es')) = _
    simp only [run, ih, Option.bind_assoc]

theorem reachable_of_run {ok : Cluster → Prop} (hw : Reachable m tid ok w) {es : List Event}
    (hok : ∀ e ∈ es, ∀ c ∈ e.cluster?, ok c) (h : run m tid w es = some w') :
    Reachable m tid ok w' := by
  induction es generalizing w with
  | nil => exact Option.some.inj h ▸ hw
  | cons e es ih =>
    cases hs : step m tid w e with
    | none => simp [run, hs] at h
    | some v =>
      rw [run_of_step hs] at h
      exact ih (.step hw (hok e (List.mem_cons_self e es)) hs)
        (fun e' he' => hok e' (List.mem_cons_of_mem e he')) h

theorem reachable_invariant {ok : Cluster → Prop} {P : World → Prop} (h0 : P .init)
    (hstep : ∀ {w w' : World} {e : Event}, P w → (∀ c ∈ e.cluster?, ok c) →
      step m tid w e = some w' → P w')
    (h : Reachable m tid ok w) : P w := by
  induction h with
  | init => exact h0
  | step _ hok hs ih => exact hstep ih hok hs

end Steps

/-! ### The buffer -/

section Buffer

variable {ch : List Metric} {x y : Metric}

theorem mem_offer (h : y ∈ offer ch x) : y ∈ ch ∨ y = x := by
  unfold offer at h
  split_ifs at h
  · simpa using h
  · exact .inl h

theorem mem_foldl_offer {xs : List Metric} (h : y ∈ xs.foldl offer ch) : y ∈ ch ∨ y ∈ xs := by
  induction xs generalizing ch with
  | nil => exact .inl h
  | cons x xs ih =>
    rcases ih h with h | h
    · rcases mem_offer h with h | rfl
      · exact .inl h
      · exact .inr (List.mem_cons_self _ _)
    · exact .inr (List.mem_cons_of_mem x h)

theorem foldl_offer (xs ch : List Metric) (h : ch.length ≤ capacity) :
    xs.foldl offer ch = ch ++ xs.take (capacity - ch.length) := by
  induction xs generalizing ch with
  | nil => simp
  | cons x xs ih =>
    rw [List.foldl_cons, offer]
    split_ifs with hlt
    · rw [ih _ (by simp; omega), List.length_append, List.length_singleton,
        show capacity - ch.length = capacity - (ch.length + 1) + 1 by omega, List.take_succ_cons,
        List.append_assoc, List.singleton_append]
    · rw [ih _ h, show capacity - ch.length = 0 by omega]
      simp

theorem foldl_offer_nil (xs : List Metric) : xs.foldl offer [] = xs.take capacity := by
  simpa using foldl_offer xs [] (Nat.zero_le _)

end Buffer

/-! ### Whole passes and drains -/

section Drain

variable {m tid}

theorem run_offers {w : World} {i : Nat} {xs : List Metric} (h : w.loops[i]? = some xs) :
    run m tid w (List.replicate xs.length (.offer i)) =
      some { w with ch := xs.foldl offer w.ch, loops := w.loops.set i [] } := by
  have hi : i < w.loops.length := (List.getElem?_eq_some_iff.mp h).1
  induction xs generalizing w with
  | nil =>
    have hset : w.loops.set i [] = w.loops :=
      List.ext_getElem? fun j => by by_cases hij : i = j <;> simp [List.getElem?_set, hij, hi, ← h]
    simp [run, hset]
  | cons x xs ih =>
    have hstep : step m tid w (.offer i) =
        some { w with ch := offer w.ch x, loops := w.loops.set i xs } := by simp [step, h]
    rw [List.length_cons, List.replicate_succ, run_of_step hstep,
      ih (List.getElem?_set_self hi) (by simpa using hi)]
    simp [List.set_set]

theorem run_drain (xs : List Metric) (loops : List (List Metric)) (done : List Scrape) (sc : Scrape) :
    run m tid ⟨xs, loops, some sc, done⟩ (List.replicate xs.length .recv ++ [.finish]) =
      some ⟨[], loops, none, done ++ [⟨sc.generated, sc.delivered ++ xs⟩]⟩ := by
  induction xs generalizing sc with
  | nil => simp [run, step]
  | cons x xs ih =>
    rw [List.length_cons, List.replicate_succ, List.cons_append,
      run_of_step (step_recv rfl rfl), ih]
    simp

theorem run_scrape (hbg : m.background = false) (c : Cluster) :
    run m tid .init (.collect c ::
        (List.replicate (min capacity (collect m tid c).1.length) .recv ++ [.finish])) =
      some ⟨[], [], none, [⟨(collect m tid c).1, (collect m tid c).1.take capacity⟩]⟩ := by
  rw [run_of_step (step_collect_fg hbg rfl c)]
  show run m tid
    ⟨(collect m tid c).1.foldl offer [], [], some ⟨(collect m tid c).1, []⟩, []⟩ _ = _
  rw [foldl_offer_nil, ← List.length_take, run_drain]
  rfl

theorem run_poll (hbg : m.background = true) (c : Cluster) :
    run m tid .init ([.collect c, .cycle 0 c] ++ List.replicate (collect m tid c).1.length (.offer 0) ++
        (List.replicate (min capacity (collect m tid c).1.length) .recv ++ [.finish])) =
      some ⟨[], [[]], none, [⟨[], (collect m tid c).1.take capacity⟩]⟩ := by
  have hstart : run m tid .init [.collect c, .cycle 0 c] =
      some ⟨[], [(collect m tid c).1], some ⟨[], []⟩, []⟩ := by
    simp [run, step, hbg, World.init]
  rw [run_append, run_append, hstart, Option.some_bind, run_offers rfl, Option.some_bind]
  simp only [foldl_offer_nil, List.set_cons_zero, ← List.length_take]
  rw [run_drain]
  rfl

theorem reachable_scrape (hbg : m.background = false) {ok : Cluster → Prop} {c : Cluster}
    (hc : ok c) :
    Reachable m tid ok ⟨[], [], none, [⟨(collect m tid c).1, (collect m tid c).1.take capacity⟩]⟩ := by
  refine reachable_of_run .init (fun e he d hd => ?_) (run_scrape hbg c)
  rcases List.mem_cons.mp he with rfl | he
  · exact Option.mem_some_iff.mp hd ▸ hc
  · rcases List.mem_append.mp he with he | he
    · rw [List.eq_of_mem_replicate he] at hd
      cases hd
    · rw [List.mem_singleton.mp he] at hd
      cases hd

end Drain

/-! ### What reaches the caller

Whatever the mode and the interleaving, every sample in the buffer, in a loop or
delivered was generated by some pass against the run's replies. -/

/-- A sample that a pass against replies satisfying `ok` generates. -/
def Generated (ok : Cluster → Prop) (x : Metric) : Prop :=
  ∃ c, ok c ∧ x ∈ (collect m tid c).1

/-- Every sample anywhere in the state was generated. -/
structure Sound (ok : Cluster → Prop) (w : World) : Prop where
  ch : ∀ x ∈ w.ch, Generated m tid ok x
  loops : ∀ l ∈ w.loops, ∀ x ∈ l, Generated m tid ok x
  scrape : ∀ sc, w.scrape = some sc → ∀ x ∈ sc.delivered, Generated m tid ok x
  done : ∀ sc ∈ w.done, ∀ x ∈ sc.delivered, Generated m tid ok x

section Sound

variable {m tid} {ok : Cluster → Prop} {w w' : World} {e : Event}

theorem Sound.step (hi : Sound m tid ok w) (hok : ∀ c ∈ e.cluster?, ok c)
    (h : step m tid w e = some w') : Sound m tid ok w' := by
  rcases step_cases h with ⟨c, rfl, -, -, rfl⟩ | ⟨c, rfl, -, -, rfl⟩ |
      ⟨sc, x, rest, rfl, hs, hch, rfl⟩ | ⟨sc, rfl, hs, -, rfl⟩ | ⟨i, c, rfl, -, rfl⟩ |
      ⟨i, x, rest, rfl, hl, rfl⟩
  · -- a background call starts a loop
    refine ⟨hi.ch, ?_, by rintro _ ⟨⟩; simp, hi.done⟩
    simp only [List.mem_append, List.mem_singleton]
    rintro l (hl | rfl)
    exacts [hi.loops l hl, by simp]
  · -- a foreground call runs its pass
    refine ⟨fun y hy => (mem_foldl_offer hy).elim (hi.ch y) fun hy => ⟨c, hok c rfl, hy⟩,
      hi.loops, by rintro _ ⟨⟩; simp, hi.done⟩
  · -- the call receives the head of the buffer
    have hx : ∀ y ∈ x :: rest, Generated m tid ok y := hch ▸ hi.ch
    refine ⟨fun y hy => hx y (List.mem_cons_of_mem x hy), hi.loops, ?_, hi.done⟩
    rintro _ ⟨⟩ y hy
    rcases List.mem_append.mp hy with hy | hy
    · exact hi.scrape sc hs y hy
    · exact hx y (by rw [List.mem_singleton.mp hy]; exact List.mem_cons_self x rest)
  · -- the call returns
    refine ⟨hi.ch, hi.loops, by simp, ?_⟩
    simp only [List.mem_append, List.mem_singleton]
    rintro _ (hsc | rfl)
    exacts [hi.done _ hsc, hi.scrape _ hs]
  · -- a loop begins a pass
    refine ⟨hi.ch, fun l hl => ?_, hi.scrape, hi.done⟩
    rcases List.mem_or_eq_of_mem_set hl with hl | rfl
    exacts [hi.loops l hl, fun y hy => ⟨c, hok c rfl, hy⟩]
  · -- a loop offers its next sample
    have hx := hi.loops _ (List.getElem?_mem hl)
    refine ⟨fun y hy => ?_, fun l hl' => ?_, hi.scrape, hi.done⟩
    · rcases mem_offer hy with hy | rfl
      exacts [hi.ch y hy, hx _ (List.mem_cons_self _ _)]
    · rcases List.mem_or_eq_of_mem_set hl' with hl' | rfl
      exacts [hi.loops l hl', fun y hy => hx y (List.mem_cons_of_mem _ hy)]

end Sound

/-- A foreground scrape of a cluster where one daemon has a blocked peer
request sends a `ceph_mds_blocked_ops` counter, whose descriptor `Describe`
does not announce. -/
theorem collect_blockedOps_undescribed (e : Exporter) (tid : TypeId) :
    let m := newMDSCollector e false
    let c : Cluster := ⟨.ok ⟨[]⟩, .ok ⟨[("MDS_SLOW_REQUEST",
        ⟨["mds.a(mds.0): 1 slow requests are blocked > 30 secs"]⟩)]⟩,
      fun _ => .ok ⟨"up:active", "cephfs"⟩, fun _ => .ok ⟨[⟨"", "dispatched", "peer_request"⟩]⟩⟩
    ∃ sc, run m tid .init [.collect c, .recv, .finish] = some ⟨[], [], none, [sc]⟩ ∧
      ∃ x ∈ sc.delivered, x.desc ∉ describe m := by
  intro m c
  have ha : split "mds.a(mds.0): 1 slow requests are blocked > 30 secs" '(' =
      ["mds.a", "mds.0): 1 slow requests are blocked > 30 secs"] := by decide
  have hgen : (collect m tid c).1 = [blockedOpsSample m (unHash zero (hash tid
      ⟨"cephfs", "mds.a", "up:active", "peer_request", "", "dispatched", ""⟩)).1 (int32Value 1)] := by
    simp [collect, stateSamples, collectMDSSlowOps, slowRequestLoop, ha, daemonBlockedOps, countOp,
      opLabels, rangeSamples, loadOrStoreAdd, List.lookup_cons, c]
  have h : run m tid .init (.collect c :: _) = _ := run_scrape rfl c
  rw [hgen] at h
  exact ⟨_, h, _, List.mem_singleton_self _, fun hx =>
    mdsState_ne_mdsBlockedOps e false (List.mem_singleton.mp hx).symm⟩

/-! ### Foreground

Without loops, the buffer is empty whenever no call is in progress, and a call
delivers the first `capacity` samples of its own pass. -/

/-- A call whose pass ran against replies satisfying `ok`, which has delivered
`sc.delivered` and left `ch` buffered: together, the pass's first `capacity`
samples. -/
def Pending (ok : Cluster → Prop) (sc : Scrape) (ch : List Metric) : Prop :=
  ∃ c, ok c ∧ sc.generated = (collect m tid c).1 ∧ sc.delivered ++ ch = sc.generated.take capacity

structure FgInv (ok : Cluster → Prop) (w : World) : Prop where
  loops : w.loops = []
  idle : w.scrape = none → w.ch = []
  busy : ∀ sc, w.scrape = some sc → Pending m tid ok sc w.ch
  done : ∀ sc ∈ w.done, Pending m tid ok sc []

section Foreground

variable {m tid} {ok : Cluster → Prop} {w w' : World} {e : Event}

theorem FgInv.step (hbg : m.background = false) (hi : FgInv m tid ok w)
    (hok : ∀ c ∈ e.cluster?, ok c) (h : step m tid w e = some w') : FgInv m tid ok w' := by
  rcases step_cases h with ⟨c, rfl, -, hb, rfl⟩ | ⟨c, rfl, hs, -, rfl⟩ |
      ⟨sc, x, rest, rfl, hs, hch, rfl⟩ | ⟨sc, rfl, hs, hch, rfl⟩ | ⟨i, c, rfl, hl, rfl⟩ |
      ⟨i, x, rest, rfl, hl, rfl⟩
  · simp [hbg] at hb
  · -- the pass fills the empty buffer
    refine ⟨hi.loops, by simp, ?_, hi.done⟩
    rintro _ ⟨⟩
    exact ⟨c, hok c rfl, rfl, by simp [hi.idle hs, foldl_offer_nil]⟩
  · -- the call receives the head of the buffer
    refine ⟨hi.loops, by simp, ?_, hi.done⟩
    rintro _ ⟨⟩
    obtain ⟨c, hc, hg, hd⟩ := hi.busy sc hs
    exact ⟨c, hc, hg, by rw [← hd, hch]; simp⟩
  · -- the call returns on an empty buffer
    refine ⟨hi.loops, fun _ => hch, by simp, ?_⟩
    simp only [List.mem_append, List.mem_singleton]
    rintro _ (hsc | rfl)
    exacts [hi.done _ hsc, hch ▸ hi.busy _ hs]
  · simp [hi.loops] at hl
  · simp [hi.loops] at hl

theorem fgInv_of_reachable (hbg : m.background = false) (h : Reachable m tid ok w) :
    FgInv m tid ok w :=
  reachable_invariant ⟨rfl, fun _ => rfl, by simp [World.init], by simp [World.init]⟩
    (FgInv.step hbg) h

theorem Pending.sublist {sc : Scrape} {ch : List Metric} (h : Pending m tid ok sc ch) :
    ∃ c, ok c ∧ sc.delivered.Sublist (collect m tid c).1 := by
  obtain ⟨c, hc, hg, hd⟩ := h
  exact ⟨c, hc, ((List.sublist_append_left _ ch).trans (hd ▸ List.take_sublist _ _)).trans
    (hg ▸ List.Sublist.refl _)⟩

end Foreground

/-! ### Replies for the examples

One filesystem with the active daemons `mds.a` and `mds.b` and `n` standby
daemons; the slow-request check names both active daemons, `mds.a` has two ops
blocked at one flag point and `mds.b` one at another. A pass offers `n + 4`
samples: a gauge per daemon and a counter per active daemon. -/

def slowCluster (n : Nat) : Cluster where
  mdsStat := .ok ⟨[⟨"cephfs", ("gid_4100", ⟨"mds.a", 0, "up:active"⟩) ::
    ("gid_4101", ⟨"mds.b", 1, "up:active"⟩) ::
    (List.range n).map fun i => ("gid_" ++ toString i, ⟨"mds.s" ++ toString i, -1, "up:standby"⟩)⟩]⟩
  healthDetail := .ok ⟨[("MDS_SLOW_REQUEST", ⟨["mds.a(mds.0): 2 slow requests are blocked > 30 secs",
    "mds.b(mds.1): 1 slow requests are blocked > 30 secs"]⟩)]⟩
  mdsStatus d := if d = "mds.a" ∨ d = "mds.b" then .ok ⟨"up:active", "cephfs"⟩
    else .error (.command "exit status 1")
  blockedOps d :=
    if d = "mds.a" then .ok ⟨[⟨"", "dispatched", "peer_request"⟩, ⟨"", "dispatched", "peer_request"⟩]⟩
    else if d = "mds.b" then .ok ⟨[⟨"", "failed to wrlock", "peer_request"⟩]⟩
    else .error (.command "exit status 1")

theorem slowCluster_replies {n : Nat} {d : String} {mss : MdsStatus} {mso : MdsSlowOp}
    (hs : (slowCluster n).mdsStatus d = .ok mss) (hb : (slowCluster n).blockedOps d = .ok mso) :
    mss = ⟨"up:active", "cephfs"⟩ ∧
      (d = "mds.a" ∧ mso = ⟨[⟨"", "dispatched", "peer_request"⟩, ⟨"", "dispatched", "peer_request"⟩]⟩ ∨
        d = "mds.b" ∧ mso = ⟨[⟨"", "failed to wrlock", "peer_request"⟩]⟩) := by
  simp only [slowCluster] at hs hb
  by_cases ha : d = "mds.a"
  · simp_all
  · by_cases hb' : d = "mds.b" <;> simp_all

theorem length_collect_slowCluster (n : Nat) : (collect m tid (slowCluster n)).1.length = n + 4 := by
  have ha : split "mds.a(mds.0): 2 slow requests are blocked > 30 secs" '(' =
      ["mds.a", "mds.0): 2 slow requests are blocked > 30 secs"] := by decide
  have hb : split "mds.b(mds.1): 1 slow requests are blocked > 30 secs" '(' =
      ["mds.b", "mds.1): 1 slow requests are blocked > 30 secs"] := by decide
  simp [collect, stateSamples, collectMDSSlowOps, slowRequestLoop, ha, hb, daemonBlockedOps,
    countOp, opLabels, rangeSamples, loadOrStoreAdd, List.lookup_cons, slowCluster]

theorem isSome_run_scrape_slowCluster (hbg : m.background = false) (n : Nat) :
    (run m tid .init (.collect (slowCluster n) ::
      (List.replicate (min capacity (n + 4)) .recv ++ [.finish]))).isSome := by
  rw [← length_collect_slowCluster m tid n, run_scrape hbg]
  rfl

theorem distinct_slowCluster : Distinct ⟨65, by decide, by decide⟩ (slowCluster 0) where
  stat := by rintro _ ⟨⟩; decide
  daemons := by
    rintro _ _ ⟨⟩ h
    simp only [List.lookup_cons_self, Option.some.injEq] at h
    subst h
    decide
  fits _ _ _ hs hb := by
    obtain ⟨rfl, ⟨rfl, rfl⟩ | ⟨rfl, rfl⟩⟩ := slowCluster_replies hs hb <;> decide

/-- In foreground, the buffer is empty whenever no call is in progress: a call
leaves nothing behind for the next one. -/
theorem ch_eq_nil_of_idle (hbg : m.background = false) {ok : Cluster → Prop} {w : World}
    (h : Reachable m tid ok w) (hs : w.scrape = none) : w.ch = [] :=
  (fgInv_of_reachable hbg h).idle hs

theorem ch_eq_nil_of_idle_slow_daemons :
    let m := newMDSCollector ⟨"ceph", "/etc/ceph/ceph.conf", "admin"⟩ false
    let tid : TypeId := ⟨65, by decide, by decide⟩
    let es : List Event := .collect (slowCluster 100) :: (List.replicate 100 .recv ++ [.finish])
    (run m tid .init es).isSome ∧ ∀ w, run m tid .init es = some w → w.scrape = none → w.ch = [] :=
  ⟨isSome_run_scrape_slowCluster _ _ rfl 100, fun _ hw hs => ch_eq_nil_of_idle _ _ rfl
    (reachable_of_run (Reachable.init : Reachable _ _ (fun _ => True) _) (by simp) hw) hs⟩

/-- In foreground, each call that has returned delivered exactly the first
`capacity` samples its pass generated: a pass of more loses the rest. -/
theorem delivered_eq_take (hbg : m.background = false) {ok : Cluster → Prop} {w : World}
    (h : Reachable m tid ok w) :
    ∀ sc ∈ w.done, ∃ c, ok c ∧ sc.generated = (collect m tid c).1 ∧
      sc.delivered = sc.generated.take capacity := by
  intro sc hsc
  simpa [Pending] using (fgInv_of_reachable hbg h).done sc hsc

theorem delivered_eq_take_slow_daemons :
    let m := newMDSCollector ⟨"ceph", "/etc/ceph/ceph.conf", "admin"⟩ false
    let tid : TypeId := ⟨65, by decide, by decide⟩
    let es : List Event := .collect (slowCluster 100) :: (List.replicate 100 .recv ++ [.finish])
    (run m tid .init es).isSome ∧ ∀ w, run m tid .init es = some w →
      ∀ sc ∈ w.done, ∃ c, c = slowCluster 100 ∧ sc.generated = (collect m tid c).1 ∧
        sc.delivered = sc.generated.take capacity :=
  ⟨isSome_run_scrape_slowCluster _ _ rfl 100, fun _ hw => delivered_eq_take _ _ rfl
    (reachable_of_run .init (by simp [Event.cluster?]) hw)⟩

/-- A foreground scrape of a filesystem with 101 standby daemons and no slow
requests generates 101 gauges and delivers 100 of them. -/
theorem collect_foreground_drops (e : Exporter) (tid : TypeId) :
    let c : Cluster := ⟨.ok ⟨[⟨"cephfs", (List.range 101).map fun i =>
        ("gid_" ++ toString i, ⟨"mds." ++ toString i, -1, "up:standby"⟩)⟩]⟩, .ok ⟨[]⟩,
      fun _ => .error (.command "exit status 1"), fun _ => .error (.command "exit status 1")⟩
    ∃ sc, run (newMDSCollector e false) tid .init (.collect c :: (List.replicate 100 .recv ++ [.finish])) =
      some ⟨[], [], none, [sc]⟩ ∧ sc.generated = (collect (newMDSCollector e false) tid c).1 ∧
      sc.generated.length = 101 ∧ sc.delivered.length = 100 := by
  intro c
  have hlen : (collect (newMDSCollector e false) tid c).1.length = 101 := by
    simp [collect, stateSamples, collectMDSSlowOps, c]
  have h : run (newMDSCollector e false) tid .init (.collect c :: _) = _ := run_scrape rfl c
  rw [hlen] at h
  exact ⟨_, h, rfl, hlen, by simp [hlen, capacity]⟩

/-- In foreground, when every pass's replies satisfy `Distinct`, no call sends
two samples with the same descriptor and label values, whether it has returned
or is still receiving. -/
theorem nodup_delivered (e : Exporter) {w : World}
    (h : Reachable (newMDSCollector e false) tid (Distinct tid) w) :
    ∀ sc, (w.scrape = some sc ∨ sc ∈ w.done) → (sc.delivered.map sampleKey).Nodup := by
  have hi := fgInv_of_reachable rfl h
  rintro sc hsc
  obtain ⟨c, hc, hsub⟩ :=
    hsc.elim (fun h => (hi.busy sc h).sublist) fun h => (hi.done sc h).sublist
  exact (nodup_collect tid e false hc).sublist (hsub.map _)

theorem nodup_delivered_slow_daemons :
    let e : Exporter := ⟨"ceph", "/etc/ceph/ceph.conf", "admin"⟩
    let tid : TypeId := ⟨65, by decide, by decide⟩
    let es : List Event := .collect (slowCluster 0) :: (List.replicate 4 .recv ++ [.finish])
    (run (newMDSCollector e false) tid .init es).isSome ∧
      ∀ w, run (newMDSCollector e false) tid .init es = some w →
        ∀ sc, (w.scrape = some sc ∨ sc ∈ w.done) → (sc.delivered.map sampleKey).Nodup :=
  ⟨isSome_run_scrape_slowCluster _ _ rfl 0, fun _ hw => nodup_delivered _ _
    (reachable_of_run .init (by simpa [Event.cluster?] using distinct_slowCluster) hw)⟩

def World.calls (w : World) : Nat := w.done.length + w.scrape.toList.length

section Background

variable {m tid} {ok : Cluster → Prop} {w w' : World} {e : Event}

theorem length_loops_step (hbg : m.background = true) (hi : w.loops.length = w.calls)
    (h : step m tid w e = some w') : w'.loops.length = w'.calls := by
  rcases step_cases h with ⟨c, rfl, hs, -, rfl⟩ | ⟨c, rfl, -, hb, rfl⟩ |
      ⟨sc, x, rest, rfl, hs, -, rfl⟩ | ⟨sc, rfl, hs, -, rfl⟩ | ⟨i, c, rfl, -, rfl⟩ |
      ⟨i, x, rest, rfl, -, rfl⟩
  · simp_all [World.calls]
  · simp [hbg] at hb
  · simp_all [World.calls]
  · simp_all [World.calls]
  · simpa [World.calls] using hi
  · simpa [World.calls] using hi

end Background

/-- In background, as many polling loops are running as `Collect` calls have
begun. -/
theorem length_loops (hbg : m.background = true) {ok : Cluster → Prop} {w : World}
    (h : Reachable m tid ok w) : w.loops.length = w.calls :=
  reachable_invariant (P := fun w => w.loops.length = w.calls) rfl
    (fun hi _ hs => length_loops_step hbg hi hs) h

theorem length_loops_slow_daemons :
    let m := newMDSCollector ⟨"ceph", "/etc/ceph/ceph.conf", "admin"⟩ true
    let tid : TypeId := ⟨65, by decide, by decide⟩
    let es : List Event := [.collect (slowCluster 100), .cycle 0 (slowCluster 100)] ++
      List.replicate 104 (.offer 0) ++ (List.replicate 100 .recv ++ [.finish]) ++
      [.collect (slowCluster 100)]
    (run m tid .init es).isSome ∧ ∀ w, run m tid .init es = some w → w.loops.length = w.calls := by
  intro m tid es
  have h : run m tid .init es = some ⟨[], [[], []], some ⟨[], []⟩,
      [⟨[], (collect m tid (slowCluster 100)).1.take capacity⟩]⟩ := by
    have hp := @run_poll m tid rfl (slowCluster 100)
    rw [length_collect_slowCluster, show 100 + 4 = 104 from rfl,
      show min capacity 104 = 100 from rfl] at hp
    rw [run_append, hp]
    rfl
  exact ⟨by rw [h]; rfl, fun _ hw => length_loops _ _ rfl
    (reachable_of_run (Reachable.init : Reachable _ _ (fun _ => True) _) (by simp) hw)⟩

/-- Two scrapes of a background collector leave two polling loops running. -/
theorem collect_background_two_loops (e : Exporter) (tid : TypeId) (c : Cluster) :
    (run (newMDSCollector e true) tid .init [.collect c, .finish, .collect c, .finish]).map
      (·.loops.length) = some 2 := rfl

end CephExporter.Mds
