import Mathlib.Tactic.Abel
import Akroasis.Mesh.Delivery
import Akroasis.Mesh.Proto

/-!
# Akroasis.Mesh.Outbound

The outbound queue (`outbound.rs`): messages waiting to be sent, highest priority first,
and messages in flight.

What each operation does is stated through `ids`, the packet ids the queue holds: an
operation moves ids between the two parts, takes one in or lets some go, and its lemma
says which.
-/

namespace Akroasis.Mesh

/-- Outbound queue and routing tuning parameters. -/
structure OutboundConfig where
  maxInflight : Nat := 8
  maxPending : Nat := 1024
  maxRetries : UInt8 := 5
  ackTimeoutSecs : Nat := 30
  storeForwardTtlSecs : Nat := 3600
  deliveryRecordMaxAgeSecs : Nat := 7200

/-- A message waiting to be sent. -/
structure PendingMessage where
  packet : MeshPacket
  created : Instant
  ttl : Duration
  priority : Priority
  retries : UInt8
  deriving DecidableEq

/-- `PendingMessage::is_expired`. -/
def PendingMessage.isExpired (now : Instant) (m : PendingMessage) : Bool :=
  decide (m.ttl ≤ now - m.created)

/-- The packet id of a pending message. -/
def PendingMessage.id (m : PendingMessage) : UInt32 := m.packet.id

/-- A message that has been sent and is awaiting ACK. -/
structure InflightMessage where
  packet : MeshPacket
  created : Instant
  ttl : Duration
  sentAt : Instant
  retries : UInt8
  maxRetries : UInt8
  ackTimeout : Duration
  deriving DecidableEq

/-- `InflightMessage::is_expired`. -/
def InflightMessage.isExpired (now : Instant) (m : InflightMessage) : Bool :=
  decide (m.ttl ≤ now - m.created)

/-- `InflightMessage::has_timed_out`. -/
def InflightMessage.hasTimedOut (now : Instant) (m : InflightMessage) : Bool :=
  decide (m.ackTimeout ≤ now - m.sentAt)

/-- The message that goes back to the queue when an inflight one is retried. -/
def InflightMessage.requeued (msg : InflightMessage) : PendingMessage where
  packet := msg.packet
  created := msg.created
  ttl := msg.ttl
  priority := (Priority.tryFrom msg.packet.priority).getD .default
  retries := msg.retries + 1

/-- Manages outbound message flow with priority ordering and inflight tracking. -/
structure OutboundQueue where
  pending : List PendingMessage
  inflight : Table UInt32 InflightMessage
  maxInflight : Nat
  maxPending : Nat
  maxRetries : UInt8

namespace OutboundQueue

/-- `with_config`. -/
def withConfig (config : OutboundConfig) : OutboundQueue where
  pending := []
  inflight := ∅
  maxInflight := config.maxInflight
  maxPending := config.maxPending
  maxRetries := config.maxRetries

/-- `remaining_capacity`. -/
def remainingCapacity (q : OutboundQueue) : Nat := q.maxPending - q.pending.length

/-- `enqueue`: the message is handed back when the queue is full. -/
def enqueue (q : OutboundQueue) (msg : PendingMessage) : Except PendingMessage OutboundQueue :=
  if q.maxPending ≤ q.pending.length then .error msg
  else
    let insertPos := q.pending.findIdx fun existing => existing.priority.toInt < msg.priority.toInt
    .ok { q with pending := q.pending.take insertPos ++ msg :: q.pending.drop insertPos }

/-- `next_to_send`: the loop pops expired messages off the front. -/
def nextToSend (q : OutboundQueue) (now : Instant) : Option PendingMessage × OutboundQueue :=
  if q.maxInflight ≤ q.inflight.size then (none, q)
  else
    match q.pending.dropWhile (PendingMessage.isExpired now) with
    | [] => (none, { q with pending := [] })
    | front :: rest => (some front, { q with pending := rest })

/-- `mark_sent`: straight from the queue into flight, with the retries counted anew. -/
def markSent (q : OutboundQueue) (id : UInt32) (timeout : Duration) (now : Instant) :
    OutboundQueue :=
  match q.pending.find? fun m => m.packet.id = id with
  | none => q
  | some msg =>
      { q with
        pending := q.pending.eraseP fun m => m.packet.id = id
        inflight := q.inflight.insert id
          { packet := msg.packet
            created := msg.created
            ttl := msg.ttl
            sentAt := now
            retries := 0
            maxRetries := q.maxRetries
            ackTimeout := timeout } }

/-- `track_inflight`. -/
def trackInflight (q : OutboundQueue) (msg : PendingMessage) (timeout : Duration) (now : Instant) :
    OutboundQueue :=
  { q with
    inflight := q.inflight.insert msg.packet.id
      { packet := msg.packet
        created := msg.created
        ttl := msg.ttl
        sentAt := now
        retries := msg.retries
        maxRetries := q.maxRetries
        ackTimeout := timeout } }

/-- `handle_ack`. -/
def handleAck (q : OutboundQueue) (id : UInt32) : Option InflightMessage × OutboundQueue :=
  (q.inflight.lookup id, { q with inflight := q.inflight.erase id })

/-- `retry`: will the message be sent again? -/
def retry (q : OutboundQueue) (id : UInt32) : Bool × OutboundQueue :=
  match q.inflight.lookup id with
  | none => (false, q)
  | some msg =>
      let q := { q with inflight := q.inflight.erase id }
      if msg.maxRetries ≤ msg.retries then (false, q)
      else match q.enqueue msg.requeued with
        | .error _ => (false, q)
        | .ok q => (true, q)

/-- `handle_nak`. -/
def handleNak (q : OutboundQueue) (id : UInt32) : Bool × OutboundQueue := q.retry id

/-- `check_timeouts`, in the order of the table. -/
def checkTimeouts (q : OutboundQueue) (now : Instant) : List UInt32 :=
  (q.inflight.retain fun _ m => m.hasTimedOut now).keys

/-- `drain_expired`. -/
def drainExpired (q : OutboundQueue) (now : Instant) : OutboundQueue :=
  { q with
    pending := q.pending.filter fun m => !m.isExpired now
    inflight := q.inflight.retain fun _ m => !m.isExpired now }

/-! ## The ids a queue holds -/

/-- The packet ids of pending messages. -/
def pendingIds (q : OutboundQueue) : Multiset UInt32 :=
  (q.pending.map PendingMessage.id : List UInt32)

/-- All packet ids in the queue. -/
def ids (q : OutboundQueue) : Multiset UInt32 := q.pendingIds + (q.inflight.keys : Multiset UInt32)

/-- Inflight messages are filed under their packet id. -/
def Keyed (q : OutboundQueue) : Prop :=
  ∀ id m, q.inflight.lookup id = some m → m.packet.id = id

/-- What `next_to_send` drops. -/
def skipped (q : OutboundQueue) (now : Instant) : List UInt32 :=
  if q.maxInflight ≤ q.inflight.size then []
  else (q.pending.takeWhile (PendingMessage.isExpired now)).map PendingMessage.id

/-- What `drain_expired` drops. -/
def expiredIds (q : OutboundQueue) (now : Instant) : List UInt32 :=
  (q.pending.filter fun m => m.isExpired now).map PendingMessage.id ++
    (q.inflight.retain fun _ m => m.isExpired now).keys

variable {q q' : OutboundQueue} {msg : PendingMessage}

theorem enqueue_eq_ok (h : q.enqueue msg = .ok q') :
    q.pending.length < q.maxPending ∧
      ∃ pending, pending.Perm (msg :: q.pending) ∧ q' = { q with pending := pending } := by
  unfold enqueue at h
  split at h
  · cases h
  · next hroom =>
    obtain rfl := Except.ok.inj h
    refine ⟨Nat.lt_of_not_le hroom, _, ?_, rfl⟩
    refine List.perm_middle.trans ?_
    rw [List.take_append_drop]

theorem enqueue_eq_error {back : PendingMessage} (h : q.enqueue msg = .error back) :
    q.maxPending ≤ q.pending.length := by
  unfold enqueue at h
  split at h
  · assumption
  · cases h

theorem ids_enqueue (h : q.enqueue msg = .ok q') :
    q'.ids = q.ids + {msg.id} := by
  obtain ⟨-, pending, hperm, rfl⟩ := enqueue_eq_ok h
  have hids : (pending.map PendingMessage.id : Multiset UInt32) = msg.id ::ₘ q.pendingIds :=
    Multiset.coe_eq_coe.mpr (hperm.map PendingMessage.id)
  rw [ids, ids, pendingIds, hids, ← Multiset.singleton_add]
  abel

/-- The first message that is not expired leaves the queue, and the expired ones before it. -/
theorem pending_nextToSend (q : OutboundQueue) (now : Instant) :
    (q.pending.map PendingMessage.id : List UInt32) =
      q.skipped now ++ (q.nextToSend now).1.toList.map PendingMessage.id ++
        (q.nextToSend now).2.pending.map PendingMessage.id := by
  unfold skipped nextToSend
  split
  · simp
  · have hsplit :=
      List.takeWhile_append_dropWhile (p := PendingMessage.isExpired now) (l := q.pending)
    cases hrest : q.pending.dropWhile (PendingMessage.isExpired now) with
    | nil =>
        rw [hrest, List.append_nil] at hsplit
        simp [hsplit]
    | cons front rest =>
        rw [hrest] at hsplit
        conv_lhs => rw [← hsplit]
        simp

theorem nextToSend_snd (q : OutboundQueue) (now : Instant) :
    (q.nextToSend now).2 = { q with pending := (q.nextToSend now).2.pending } := by
  unfold nextToSend
  split
  · rfl
  · split <;> rfl

theorem ids_nextToSend (q : OutboundQueue) (now : Instant) :
    (q.nextToSend now).2.ids + ((q.nextToSend now).1.toList.map PendingMessage.id : List UInt32) +
      (q.skipped now : Multiset UInt32) = q.ids := by
  have hinflight : (q.nextToSend now).2.inflight = q.inflight := by rw [nextToSend_snd]
  rw [ids, ids, pendingIds, pendingIds, pending_nextToSend q now, hinflight, ← Multiset.coe_add,
    ← Multiset.coe_add]
  abel

theorem ids_trackInflight (h : q.inflight.lookup msg.id = none)
    (timeout : Duration) (now : Instant) :
    (q.trackInflight msg timeout now).ids = q.ids + {msg.id} := by
  have hkeys : (q.trackInflight msg timeout now).inflight.keys = msg.id :: q.inflight.keys :=
    Table.keys_insert_of_none h _
  rw [ids, ids, hkeys, ← Multiset.cons_coe, ← Multiset.singleton_add]
  change q.pendingIds + ({msg.id} + _) = _
  abel

theorem ids_handleAck (q : OutboundQueue) (id : UInt32) :
    (q.handleAck id).2.ids + (if (q.inflight.lookup id).isSome then {id} else 0) = q.ids := by
  rw [ids, ids, handleAck]
  change q.pendingIds + _ + _ = _
  cases h : q.inflight.lookup id with
  | none =>
      rw [Table.erase_of_none h]
      simp
  | some m =>
      rw [← Table.keys_erase_add h]
      simp only [Option.isSome_some, if_true]
      abel

/-- What `retry` can do: nothing, take the message out of flight, or queue it again. -/
theorem retry_cases (q : OutboundQueue) (id : UInt32) :
    (q.inflight.lookup id = none ∧ q.retry id = (false, q)) ∨
      ∃ msg, q.inflight.lookup id = some msg ∧
        (q.retry id = (false, (q.handleAck id).2) ∨
          ∃ q', msg.retries < msg.maxRetries ∧ (q.handleAck id).2.enqueue msg.requeued = .ok q' ∧
            q.retry id = (true, q')) := by
  unfold retry handleAck
  cases h : q.inflight.lookup id with
  | none => exact .inl ⟨rfl, rfl⟩
  | some msg =>
      refine .inr ⟨msg, rfl, ?_⟩
      by_cases hmax : msg.maxRetries ≤ msg.retries
      · exact .inl (by simp only [if_pos hmax])
      · simp only [if_neg hmax]
        cases henq : enqueue { q with inflight := q.inflight.erase id } msg.requeued with
        | error back => exact .inl rfl
        | ok q' => exact .inr ⟨q', UInt8.not_le.mp hmax, rfl, rfl⟩

/-- A retried message stays in the queue, one that is not retried leaves it. -/
theorem ids_retry (hkeyed : q.Keyed) (id : UInt32) :
    (q.retry id).2.ids +
      (if (q.retry id).1 = false ∧ (q.inflight.lookup id).isSome then {id} else 0) = q.ids := by
  have herase := ids_handleAck q id
  obtain ⟨hnone, hretry⟩ | ⟨msg, hsome, hretry | ⟨q', -, henq, hretry⟩⟩ := retry_cases q id
  · simp [hnone, hretry]
  · simpa [hsome, hretry] using herase
  · have hid : msg.requeued.id = id := hkeyed id msg hsome
    simp only [hsome, Option.isSome_some, if_true] at herase
    rw [hretry, ids_enqueue henq, hid, herase]
    simp

theorem ids_drainExpired (q : OutboundQueue) (now : Instant) :
    (q.drainExpired now).ids + (q.expiredIds now : Multiset UInt32) = q.ids := by
  have hpending :
      (((q.pending.filter fun m => !m.isExpired now).map PendingMessage.id : List UInt32) :
          Multiset UInt32) +
        ((q.pending.filter fun m => m.isExpired now).map PendingMessage.id : List UInt32) =
        q.pendingIds := by
    rw [Multiset.add_comm, Multiset.coe_add, ← List.map_append]
    exact Multiset.coe_eq_coe.mpr ((List.filter_append_perm _ _).map _)
  have hinflight := Table.keys_retain_add q.inflight fun _ m => !m.isExpired now
  simp only [Bool.not_not] at hinflight
  rw [ids, ids, ← hpending, ← hinflight, expiredIds, ← Multiset.coe_add]
  change _ + _ + _ = _
  simp only [pendingIds, drainExpired]
  abel

/-! ## Limits -/

/-- No operation but `track_inflight` puts anything in flight, and none exceeds the bound
on pending messages. -/
structure Within (q' q : OutboundQueue) : Prop where
  lookup : ∀ id m, q'.inflight.lookup id = some m → q.inflight.lookup id = some m
  size : q'.inflight.size ≤ q.inflight.size
  maxInflight : q'.maxInflight = q.maxInflight
  maxPending : q'.maxPending = q.maxPending
  pending : q.pending.length ≤ q.maxPending → q'.pending.length ≤ q'.maxPending

namespace Within

theorem refl (q : OutboundQueue) : Within q q := ⟨fun _ _ h => h, le_rfl, rfl, rfl, id⟩

theorem trans {q'' : OutboundQueue} (h' : Within q'' q') (h : Within q' q) : Within q'' q where
  lookup id m hm := h.lookup id m (h'.lookup id m hm)
  size := h'.size.trans h.size
  maxInflight := h'.maxInflight.trans h.maxInflight
  maxPending := h'.maxPending.trans h.maxPending
  pending hp := h'.pending (h.pending hp)

theorem keyed (h : Within q' q) (hkeyed : q.Keyed) : q'.Keyed :=
  fun id m hm => hkeyed id m (h.lookup id m hm)

end Within

theorem within_enqueue (h : q.enqueue msg = .ok q') : Within q' q := by
  obtain ⟨hroom, pending, hperm, rfl⟩ := enqueue_eq_ok h
  refine ⟨fun _ _ hm => hm, le_rfl, rfl, rfl, fun _ => ?_⟩
  rw [hperm.length_eq, List.length_cons]
  exact hroom

theorem within_handleAck (q : OutboundQueue) (id : UInt32) : Within (q.handleAck id).2 q := by
  refine ⟨fun m x hm => ?_, Table.size_erase_le _ _, rfl, rfl, fun h => h⟩
  rw [handleAck, Table.lookup_erase_ite] at hm
  split at hm
  · cases hm
  · exact hm

theorem within_retry (q : OutboundQueue) (id : UInt32) : Within (q.retry id).2 q := by
  obtain ⟨-, hretry⟩ | ⟨msg, -, hretry | ⟨q', -, henq, hretry⟩⟩ := retry_cases q id
  · rw [hretry]
    exact .refl q
  · rw [hretry]
    exact within_handleAck q id
  · rw [hretry]
    exact (within_enqueue henq).trans (within_handleAck q id)

theorem within_nextToSend (q : OutboundQueue) (now : Instant) : Within (q.nextToSend now).2 q := by
  have hlen := congrArg List.length (pending_nextToSend q now)
  simp only [List.length_map, List.length_append] at hlen
  rw [nextToSend_snd]
  refine ⟨fun _ _ hm => hm, le_rfl, rfl, rfl, fun h => ?_⟩
  change (q.nextToSend now).2.pending.length ≤ q.maxPending
  omega

theorem within_drainExpired (q : OutboundQueue) (now : Instant) :
    Within (q.drainExpired now) q := by
  refine ⟨fun id m hm => ?_, Table.size_retain_le _ _, rfl, rfl, fun h => ?_⟩
  · rw [drainExpired, Table.lookup_retain] at hm
    exact (Option.filter_eq_some_iff.mp hm).1
  · exact (List.length_filter_le _ _).trans h

/-- Retried or not, the message is not in flight any more. -/
theorem inflight_retry (q : OutboundQueue) (id : UInt32) :
    (q.retry id).2.inflight = q.inflight.erase id := by
  obtain ⟨hnone, hretry⟩ | ⟨msg, -, hretry | ⟨q', -, henq, hretry⟩⟩ := retry_cases q id
  · rw [hretry, Table.erase_of_none hnone]
  · rw [hretry]
    rfl
  · obtain ⟨-, pending, -, rfl⟩ := enqueue_eq_ok henq
    rw [hretry]
    rfl

end OutboundQueue

end Akroasis.Mesh
