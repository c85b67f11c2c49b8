import Akroasis.Mesh.Holding
import Akroasis.Mesh.Snapshot

/-!
# Akroasis.Mesh.Forwarding

A node comes online (`node_came_online` in `router.rs`): its stored messages move to the
outbound queue as far as there is room, and the others go back where they came from.

Two bounded queues could refuse a message here.  The outbound queue does not, since no more
messages are offered to it than it has room for, so the branch that reports it full is never
taken (`fillsMidDrain_eq_false`); the store does not, since the messages that return to it
were in it before.
-/

namespace Akroasis.Mesh

namespace MeshRouter

variable {codec : PacketCodec} {r : MeshRouter} {q : OutboundQueue}

theorem forward_cons (codec : PacketCodec) (msg : StoredMessage) (rest : List StoredMessage)
    (clock : Nat → Instant) (q : OutboundQueue) :
    forward codec (msg :: rest) clock q =
      match codec.decode msg.packetBytes with
      | none => forward codec rest clock q
      | some packet =>
          match q.enqueue (msg.toPending packet (clock 0)) with
          | .error _ => q
          | .ok q => forward codec rest (fun i => clock (i + 1)) q :=
  rfl

/-- Does the loop of `node_came_online` find the outbound queue full? -/
def fillsMidDrain (codec : PacketCodec) :
    List StoredMessage → (Nat → Instant) → OutboundQueue → Bool
  | [], _, _ => false
  | msg :: rest, clock, q =>
      match codec.decode msg.packetBytes with
      | none => fillsMidDrain codec rest clock q
      | some packet =>
          match q.enqueue (msg.toPending packet (clock 0)) with
          | .error _ => true
          | .ok q => fillsMidDrain codec rest (fun i => clock (i + 1)) q

/-- Where there is room a message is queued, and room for one less is left. -/
theorem enqueue_of_room {n : Nat} (msg : PendingMessage) (h : n + 1 ≤ q.remainingCapacity) :
    ∃ pending, pending.Perm (msg :: q.pending) ∧ q.enqueue msg = .ok { q with pending := pending } ∧
      n ≤ OutboundQueue.remainingCapacity { q with pending := pending } := by
  unfold OutboundQueue.remainingCapacity at h ⊢
  cases henqueue : q.enqueue msg with
  | error back =>
      have hfull := OutboundQueue.enqueue_eq_error henqueue
      omega
  | ok q' =>
      obtain ⟨-, pending, hperm, rfl⟩ := OutboundQueue.enqueue_eq_ok henqueue
      have hlen := hperm.length_eq
      rw [List.length_cons] at hlen
      refine ⟨pending, hperm, rfl, ?_⟩
      simp only
      omega

/-- No more messages than there is room for never fill the queue. -/
theorem fillsMidDrain_eq_false {msgs : List StoredMessage} (h : msgs.length ≤ q.remainingCapacity)
    (clock : Nat → Instant) : fillsMidDrain codec msgs clock q = false := by
  induction msgs generalizing q clock with
  | nil => rfl
  | cons msg rest ih =>
      rw [List.length_cons] at h
      rw [fillsMidDrain]
      split
      · exact ih (Nat.le_of_succ_le h) clock
      · next packet _ =>
        obtain ⟨pending, -, henqueue, hroom⟩ := enqueue_of_room (msg.toPending packet (clock 0)) h
        rw [henqueue]
        exact ih hroom _

/-- A queued message is the stored one. -/
def Forwards (codec : PacketCodec) (msg : StoredMessage) (queued : PendingMessage) : Prop :=
  ∃ packet now, codec.decode msg.packetBytes = some packet ∧ queued = msg.toPending packet now

/-- Messages that decode and for which there is room are all queued. -/
theorem forward_eq {msgs : List StoredMessage} (h : msgs.length ≤ q.remainingCapacity)
    (hdecodes : ∀ m ∈ msgs, (codec.decode m.packetBytes).isSome) (clock : Nat → Instant) :
    ∃ queued pending, List.Forall₂ (Forwards codec) msgs queued ∧
      pending.Perm (q.pending ++ queued) ∧
      forward codec msgs clock q = { q with pending := pending } := by
  induction msgs generalizing q clock with
  | nil => exact ⟨[], q.pending, .nil, by simp, rfl⟩
  | cons msg rest ih =>
      obtain ⟨packet, hdecode⟩ := Option.isSome_iff_exists.mp (hdecodes msg List.mem_cons_self)
      rw [List.length_cons] at h
      obtain ⟨pending, hperm, henqueue, hroom⟩ := enqueue_of_room (msg.toPending packet (clock 0)) h
      obtain ⟨queued, pending', hqueued, hperm', hforward⟩ :=
        ih hroom (fun m hm => hdecodes m (List.mem_cons_of_mem _ hm)) fun i => clock (i + 1)
      refine ⟨_ :: queued, pending', .cons ⟨packet, clock 0, hdecode, rfl⟩ hqueued, ?_, ?_⟩
      · exact hperm'.trans ((hperm.append_right queued).trans List.perm_middle.symm)
      · rw [forward_cons, hdecode]
        simp only [henqueue, hforward]

/-- What is put back is what was there, in its order. -/
theorem queue_putBack {s : StoreForward} (hwithin : s.Within) (hlimit : 1 ≤ s.maxQueuePerDest)
    (dest : UInt32) (k : Nat) :
    ((s.drainFor dest).2.restore dest ((s.queue dest).drop k)).queue dest =
      (s.queue dest).drop k := by
  by_cases hnone : s.queue dest = []
  · rw [hnone, List.drop_nil, StoreForward.restore, List.foldl_nil, StoreForward.queue_drainFor,
      if_pos rfl]
  · have hbounded := (StoreForward.within_iff_bounded hlimit).mp hwithin
    have hlen := hwithin.length dest
    have hempty : (s.drainFor dest).2.queue dest = [] := by
      rw [StoreForward.queue_drainFor, if_pos rfl]
    have hfits : ((s.drainFor dest).2.queue dest).length + ((s.queue dest).drop k).length ≤
        max s.maxQueuePerDest 1 := by
      rw [hempty, List.length_nil, List.length_drop]
      omega
    have hzero : s.maxQueuePerDest = 0 → ∀ m ∈ (s.queue dest).drop k, 0 < m.priority := by
      omega
    have hrestore :=
      (StoreForward.queue_restore (hbounded.noDestination_drainFor hnone) hfits hzero).1
    rw [hrestore, hempty, List.nil_append]

/-- **A node comes online.**  Its stored messages split in two: the first ones, as many as
there is room for, join the outbound queue, and the others are stored as before; nothing else
changes, and the outbound queue is never found full. -/
theorem nodeCameOnline_splits (codec : PacketCodec) (r : MeshRouter) (dest : UInt32)
    (clock : Nat → Instant) (hwithin : r.storeForward.Within)
    (hlimit : 1 ≤ r.storeForward.maxQueuePerDest)
    (hdecodes : ∀ m ∈ r.storeForward.queue dest, (codec.decode m.packetBytes).isSome) :
    let stored := r.storeForward.queue dest
    let k := r.outbound.remainingCapacity
    let r' := r.nodeCameOnline codec dest clock
    fillsMidDrain codec (stored.take k) clock r.outbound = false ∧
      (∃ queued pending, List.Forall₂ (Forwards codec) (stored.take k) queued ∧
        pending.Perm (r.outbound.pending ++ queued) ∧
        r'.outbound = { r.outbound with pending := pending }) ∧
      r'.storeForward.queue dest = stored.drop k ∧
      (∀ m, m ≠ dest → r'.storeForward.queue m = r.storeForward.queue m) ∧
      r'.delivery = r.delivery := by
  intro stored k r'
  have hroom : (stored.take k).length ≤ r.outbound.remainingCapacity := by
    rw [List.length_take]
    exact Nat.min_le_left _ _
  have htaken : ∀ m ∈ stored.take k, (codec.decode m.packetBytes).isSome :=
    fun m hm => hdecodes m (List.mem_of_mem_take hm)
  refine ⟨fillsMidDrain_eq_false hroom clock, forward_eq hroom htaken clock,
    queue_putBack hwithin hlimit dest k, fun m hm => ?_, rfl⟩
  have hrestore := StoreForward.queue_restore_ne (r.storeForward.drainFor dest).2 (stored.drop k) hm
  rw [StoreForward.queue_drainFor, if_neg hm] at hrestore
  exact hrestore

/-- A router with room for one message and two stored for node 7. -/
def oneSlot : MeshRouter :=
  let stored id := toStored sampleCodec (samplePacket id) {} 0
  let store : StoreForward := { maxQueuePerDest := 2 }
  { withConfig { maxPending := 1 } 2 with
    storeForward := ((store.store 7 (stored 1)).2.store 7 (stored 2)).2 }

/-- The first is queued and the second stays stored. -/
theorem nodeCameOnline_splits_oneSlot :
    (oneSlot.nodeCameOnline sampleCodec 7 fun _ => 0).storeForward.queue 7 =
        [toStored sampleCodec (samplePacket 2) {} 0] ∧
      ∃ queued, Forwards sampleCodec (toStored sampleCodec (samplePacket 1) {} 0) queued ∧
        (oneSlot.nodeCameOnline sampleCodec 7 fun _ => 0).outbound.pending = [queued] := by
  have hstored : oneSlot.storeForward.queue 7 = [toStored sampleCodec (samplePacket 1) {} 0,
      toStored sampleCodec (samplePacket 2) {} 0] := by decide +kernel
  have hbounded : oneSlot.storeForward.Bounded :=
    ((wellFormed_withConfig sampleCodec {} 2).bounded.store 7 _).store 7 _
  obtain ⟨-, ⟨queued, pending, hqueued, hperm, houtbound⟩, hleft, -⟩ :=
    nodeCameOnline_splits sampleCodec oneSlot 7 (fun _ => 0)
      ((StoreForward.within_iff_bounded (by decide)).mpr hbounded) (by decide)
      (by rw [hstored]; decide +kernel)
  rw [hstored] at hqueued hleft
  cases hqueued with
  | cons hfirst hrest =>
      cases hrest
      refine ⟨hleft, _, hfirst, ?_⟩
      rw [houtbound]
      exact List.perm_singleton.mp hperm

end MeshRouter

end Akroasis.Mesh
