import Akroasis.Mesh.System

/-!
# Akroasis.Mesh.Accounting

Delivery accounting over whole runs of the router.

Every event keeps the counters in balance except where it meets a record that is already
settled: a message is handed out again after it was acknowledged or failed, or it is
failed once more by a late NAK or a timeout.  `recounted` lists the destinations of such
records, and `recounts_run` is the exact account: a run is out of balance by what its
events recounted, so it is in balance if and only if none did.
-/

namespace Akroasis.Mesh

open DeliveryTracker (Accounted)

namespace MeshRouter

variable {codec : PacketCodec} {r r' : MeshRouter} {recounts : List UInt32}

/-- The destinations of settled records that an operation counts again. -/
def recounted (r : MeshRouter) : RouterOp → List UInt32
  | .nak id _ => if (r.outbound.handleNak id).1 then [] else r.delivery.settledDest id
  | .timeouts _ order => (r.processTimeouts order).1.flatMap r.delivery.settledDest
  | .send .. | .ack .. | .maintenance .. | .nodeCameOnline .. => []

theorem settledDest_timeoutStep (acc : List UInt32 × MeshRouter) {id m : UInt32} (h : m ≠ id) :
    (timeoutStep acc id).2.delivery.settledDest m = acc.2.delivery.settledDest m := by
  rw [DeliveryTracker.settledDest, DeliveryTracker.settledDest, lookup_timeoutStep acc h]

theorem accounted_timeoutStep {acc : List UInt32 × MeshRouter}
    (h : Accounted acc.2.delivery recounts) (id : UInt32) :
    Accounted (timeoutStep acc id).2.delivery
      ((if (acc.2.outbound.retry id).1 then [] else acc.2.delivery.settledDest id) ++
        recounts) := by
  rw [timeoutStep_eq]
  simp only
  split
  · exact h.recordRetry
  · exact h.markSettled id rfl

/-- The timeout loop recounts the settled records among those it reports. -/
theorem accounted_foldl_timeoutStep {order : List UInt32} (acc : List UInt32 × MeshRouter)
    (hnodup : order.Nodup) (h : Accounted acc.2.delivery recounts) :
    ∃ failed, (order.foldl timeoutStep acc).1 = acc.1 ++ failed ∧ failed ⊆ order ∧
      Accounted (order.foldl timeoutStep acc).2.delivery
        (failed.flatMap acc.2.delivery.settledDest ++ recounts) := by
  induction order generalizing acc recounts with
  | nil => exact ⟨[], (List.append_nil _).symm, List.nil_subset _, h⟩
  | cons id order ih =>
      obtain ⟨hid, hnodup⟩ := List.nodup_cons.mp hnodup
      obtain ⟨failed, hfailed, hsub, hacc⟩ := ih _ hnodup (accounted_timeoutStep h id)
      have hsame : failed.flatMap (timeoutStep acc id).2.delivery.settledDest =
          failed.flatMap acc.2.delivery.settledDest :=
        List.flatMap_congr fun m hm =>
          settledDest_timeoutStep acc fun heq => hid (heq ▸ hsub hm)
      rw [hsame] at hacc
      rw [List.foldl_cons, hfailed, timeoutStep_eq]
      rw [timeoutStep_eq] at hacc
      cases hretry : (acc.2.outbound.retry id).1 with
      | true =>
          refine ⟨failed, by simp, List.subset_cons_of_subset _ hsub, ?_⟩
          simpa [hretry] using hacc
      | false =>
          refine ⟨id :: failed, by simp, List.cons_subset_cons _ hsub, ?_⟩
          simp only [hretry, Bool.false_eq_true, if_false] at hacc
          refine hacc.perm ?_
          rw [List.flatMap_cons, ← List.append_assoc]
          exact List.perm_append_comm.append_right _

/-- An operation is out of balance by what it recounts. -/
theorem accounted_perform {op : RouterOp}
    (hop : r.perform codec op = some r') (h : Accounted r.delivery recounts)
    (hnew : ∀ id ∈ r.accepted codec op, r.delivery.records.lookup id = none) :
    Accounted r'.delivery (r.recounted op ++ recounts) := by
  cases op with
  | send packet reachable options now nowMs trackedAt =>
      obtain rfl := Option.some.inj hop
      obtain ⟨outbound, -, -, hres⟩ | ⟨e, -, hres⟩ | ⟨stored, -, -, hres⟩ |
          ⟨e, stored, -, -, hres⟩ :=
        send_cases codec r packet reachable options now nowMs trackedAt <;>
        simp only [accepted, hres, Except.isOk, Except.toBool, if_true] at hnew ⊢
      · exact h.track (hnew _ (List.mem_singleton_self _)) _ _
      · exact h
      · exact h.track (hnew _ (List.mem_singleton_self _)) _ _
      · exact h
  | ack id hops now =>
      obtain rfl := Option.some.inj hop
      exact h.markAcknowledged hops now
  | nak id reason =>
      obtain rfl := Option.some.inj hop
      simp only [handleNak, recounted]
      split
      · exact h.recordRetry
      · exact h.markSettled id rfl
  | timeouts now order =>
      rw [perform, Option.ite_none_right_eq_some] at hop
      obtain rfl := Option.some.inj hop.2
      obtain ⟨failed, hfailed, -, hacc⟩ :=
        accounted_foldl_timeoutStep ([], r) (checkTimeouts_perm hop.1).1 h
      rw [recounted, processTimeouts, hfailed]
      exact hacc
  | maintenance expireAt pruneAt nowMs drainAt =>
      obtain rfl := Option.some.inj hop
      exact (h.expireStale _ expireAt).pruneCompleted _ pruneAt
  | nodeCameOnline dest clock =>
      obtain rfl := Option.some.inj hop
      exact h

end MeshRouter

namespace System

variable {codec : PacketCodec} {s s' : System} {e : Event}

/-- The destinations of settled records that an event counts again. -/
def recounted (s : System) : Event → List UInt32
  | .op op => s.router.recounted op
  | .nextToSend now _ =>
      (s.router.outbound.nextToSend now).1.elim [] fun msg => s.router.delivery.settledDest msg.id
  | .trackSent .. => []

/-- The counters balance up to `recounts`, and only accepted packets have records. -/
structure Balanced (s : System) (recounts : List UInt32) : Prop where
  accounted : Accounted s.router.delivery recounts
  known : ∀ id, (s.router.delivery.records.lookup id).isSome → id ∈ s.history.sent

theorem balanced_start (config : OutboundConfig) (maxQueuePerDest : Nat) :
    Balanced (start config maxQueuePerDest) [] :=
  ⟨DeliveryTracker.accounted_empty, fun _ h => nomatch h⟩

/-- An event puts the counters out of balance by what it recounts. -/
theorem Balanced.step {recounts : List UInt32} (h : s.Balanced recounts) (hfresh : s.Fresh e)
    (hstep : s.step codec e = some s') : s'.Balanced (s.recounted e ++ recounts) := by
  obtain ⟨op, router, rfl, hop, rfl⟩ | ⟨now, sentAt, rfl, rfl⟩ | ⟨i, now, msg, rfl, hmsg, rfl⟩ :=
    step_cases hstep
  · refine ⟨MeshRouter.accounted_perform hop h.accounted fun id hid => ?_, fun id hsome => ?_⟩
    · have hnew := (accepted_fresh (e := .op op) hfresh hid).2
      exact Option.not_isSome_iff_eq_none.mp fun hsome => hnew (h.known id hsome)
    · refine List.mem_append.mpr ?_
      exact (MeshRouter.isSome_of_perform hop hsome).imp_right (h.known id)
  · refine ⟨?_, fun id hsome => h.known id (by rwa [MeshRouter.isSome_nextToSend] at hsome)⟩
    simp only [MeshRouter.nextToSend_eq, recounted]
    cases (s.router.outbound.nextToSend now).1 with
    | none => exact h.accounted
    | some msg => exact h.accounted.markSent msg.id sentAt
  · exact ⟨h.accounted, h.known⟩

/-- **The exact account of a run**: it is out of balance by what its events recounted. -/
theorem recounts_run {recounts : List UInt32} {events : List Event} (h : s.Balanced recounts)
    (hfresh : Machine.Meets (step codec) Fresh s events)
    (hrun : Machine.run (step codec) s events = some s') :
    ∃ more, s'.Balanced (more ++ recounts) ∧
      (more = [] ↔ Machine.Meets (step codec) (fun s e => s.recounted e = []) s events) := by
  induction events generalizing s recounts with
  | nil =>
      obtain rfl := Option.some.inj hrun
      exact ⟨[], h, iff_of_true rfl trivial⟩
  | cons e events ih =>
      obtain ⟨t, ht, hrest⟩ := Option.bind_eq_some_iff.mp (Machine.run_cons ▸ hrun)
      obtain ⟨more, hmore, hiff⟩ := ih (h.step hfresh.1 ht) (hfresh.2 t ht) hrest
      refine ⟨more ++ s.recounted e, by rwa [List.append_assoc], ?_⟩
      rw [List.append_eq_nil_iff, hiff, and_comm]
      constructor
      · rintro ⟨hnone, hmeets⟩
        refine ⟨hnone, fun t' ht' => ?_⟩
        obtain rfl := Option.some.inj (ht.symm.trans ht')
        exact hmeets
      · exact fun hmeets => ⟨hmeets.1, hmeets.2 t ht⟩

/-- The statistics of a destination account for all its messages. -/
def Accounts (s : System) (dest : UInt32) : Prop :=
  let stats := s.router.delivery.statsFor dest
  stats.acknowledged + stats.failed ≤ stats.attempted ∧
    stats.attempted - stats.acknowledged - stats.failed = s.router.delivery.active dest

/-- **Delivery accounting.**  In a run over packets with distinct ids the statistics of all
destinations are right in the end if and only if no event on the way counted a settled
record again. -/
theorem accounts_iff_never_recounted (codec : PacketCodec) (config : OutboundConfig)
    (maxQueuePerDest : Nat) (events : List Event) (s : System)
    (hfresh : Machine.Meets (step codec) Fresh (start config maxQueuePerDest) events)
    (hrun : Machine.run (step codec) (start config maxQueuePerDest) events = some s) :
    (∀ dest, s.Accounts dest) ↔
      Machine.Meets (step codec) (fun s e => s.recounted e = []) (start config maxQueuePerDest)
        events := by
  obtain ⟨recounts, hbalanced, hiff⟩ :=
    recounts_run (balanced_start config maxQueuePerDest) hfresh hrun
  rw [List.append_nil] at hbalanced
  rw [← hiff]
  constructor
  · intro h
    refine List.eq_nil_iff_forall_not_mem.mpr fun dest hdest => ?_
    have hpos := List.count_pos_iff.mpr hdest
    have hcount := hbalanced.accounted.attempted dest
    have hright := h dest
    simp only [Accounts] at hright
    omega
  · rintro rfl dest
    have hcount := hbalanced.accounted.attempted dest
    simp only [Accounts]
    rw [List.count_nil] at hcount
    omega

/-- A packet is sent, acknowledged twice, and then reported as failed by a late NAK. -/
def lateNak : List Event :=
  [.op (.send (samplePacket 1) true {} 0 0 0), .nextToSend 1 1, .trackSent 0 2,
    .op (.ack 1 none 3), .op (.ack 1 none 4), .op (.nak 1 (.nak .maxRetransmit))]

/-- After the late NAK the one message to node 7 counts both as acknowledged and as failed. -/
theorem late_nak_counts_twice :
    Machine.Meets (step sampleCodec) Fresh (start {} 50) lateNak ∧
      (Machine.run (step sampleCodec) (start {} 50) lateNak).map
          (fun s => ((s.router.delivery.statsFor 7).attempted,
            (s.router.delivery.statsFor 7).acknowledged, (s.router.delivery.statsFor 7).failed)) =
        some (1, 1, 1) := by
  decide +kernel

/-- Up to the NAK the statistics are right. -/
theorem accounts_before_late_nak :
    ∃ s, Machine.run (step sampleCodec) (start {} 50) (lateNak.take 5) = some s ∧
      ∀ dest, s.Accounts dest := by
  obtain ⟨s, hs⟩ : ∃ s, Machine.run (step sampleCodec) (start {} 50) (lateNak.take 5) = some s :=
    Option.isSome_iff_exists.mp (by decide +kernel)
  exact ⟨s, hs, (accounts_iff_never_recounted sampleCodec {} 50 _ s (by decide +kernel) hs).mpr
    (by decide +kernel)⟩

end System

end Akroasis.Mesh
