import Akroasis.Mesh.Router

/-!
# Akroasis.Mesh.Holding

What the router holds.  Each operation takes in at most the packet it was given
(`accepted`) and lets go of `removed`; `ids_perform` is the balance of the two.

It rests on `WellFormed`: messages in flight are filed under their id, the
store-and-forward queues keep their limits, and every stored message decodes to a packet
with the id it is stored under.
-/

namespace Akroasis.Mesh

open OutboundQueue (Within)

namespace MeshRouter

variable {codec : PacketCodec} {r r' : MeshRouter}

/-! ## Inversion -/

/-- What `send` can do: queue, store, or refuse the packet. -/
theorem send_cases (codec : PacketCodec) (r : MeshRouter) (packet : MeshPacket) (reachable : Bool)
    (options : SendOptions) (now : Instant) (nowMs : Nat) (trackedAt : Instant) :
    let tracked := r.delivery.track packet.id packet.toNode trackedAt
    let result := r.send codec packet reachable options now nowMs trackedAt
    (∃ outbound, reachable = true ∧ r.outbound.enqueue (toPending packet options now) =
        .ok outbound ∧
        result = (.ok packet.id, { r with outbound := outbound, delivery := tracked })) ∨
      (∃ e, reachable = true ∧ result = (.error e, r)) ∨
      (∃ stored, reachable = false ∧
        r.storeForward.store packet.toNode (toStored codec packet options nowMs) =
          (.ok (), stored) ∧
        result = (.ok packet.id, { r with storeForward := stored, delivery := tracked })) ∨
      ∃ e stored, reachable = false ∧
        r.storeForward.store packet.toNode (toStored codec packet options nowMs) =
          (.error e, stored) ∧
        result = (.error e, { r with storeForward := stored }) := by
  intro tracked result
  cases reachable with
  | true =>
      cases henq : r.outbound.enqueue (toPending packet options now) with
      | error back =>
          exact .inr (.inl ⟨.queueFull packet.toNode, rfl, by simp [result, send, henq]⟩)
      | ok outbound => exact .inl ⟨outbound, rfl, rfl, by simp [result, send, henq, tracked]⟩
  | false =>
      obtain ⟨⟨_ | _, stored⟩, hstore⟩ :
          ∃ x, x = r.storeForward.store packet.toNode (toStored codec packet options nowMs) :=
        ⟨_, rfl⟩
      · exact .inr (.inr (.inr ⟨_, stored, rfl, hstore.symm, by simp [result, send, ← hstore]⟩))
      · exact .inr
          (.inr (.inl ⟨stored, rfl, hstore.symm, by simp [result, send, ← hstore, tracked]⟩))

/-- `next_to_send` pops the queue and marks what it returns as sent. -/
theorem nextToSend_eq (r : MeshRouter) (now sentAt : Instant) :
    r.nextToSend now sentAt =
      ((r.outbound.nextToSend now).1,
        { r with
          outbound := (r.outbound.nextToSend now).2
          delivery := (r.outbound.nextToSend now).1.elim r.delivery
            fun msg => r.delivery.markSent msg.id sentAt }) := by
  unfold nextToSend
  obtain ⟨_ | msg, outbound⟩ := r.outbound.nextToSend now <;> rfl

/-- A turn of the timeout loop reports the id if it is not retried. -/
theorem timeoutStep_eq (acc : List UInt32 × MeshRouter) (id : UInt32) :
    timeoutStep acc id =
      (if (acc.2.outbound.retry id).1 then acc.1 else acc.1 ++ [id],
        { acc.2 with
          outbound := (acc.2.outbound.retry id).2
          delivery := if (acc.2.outbound.retry id).1 then acc.2.delivery.recordRetry id
            else acc.2.delivery.markFailed id .maxRetries }) := by
  unfold timeoutStep
  split <;> rfl

/-! ## Limits -/

theorem within_forward (codec : PacketCodec) (msgs : List StoredMessage) (clock : Nat → Instant)
    (q : OutboundQueue) : Within (forward codec msgs clock q) q := by
  induction msgs generalizing clock q with
  | nil => exact .refl q
  | cons msg rest ih =>
      rw [forward]
      split
      · exact ih clock q
      · split
        · exact .refl q
        · next henq => exact (ih _ _).trans (OutboundQueue.within_enqueue henq)

/-- The loop of `process_timeouts` touches the queue and the tracker only. -/
theorem foldl_timeoutStep (order : List UInt32) (acc : List UInt32 × MeshRouter) :
    Within (order.foldl timeoutStep acc).2.outbound acc.2.outbound ∧
      (order.foldl timeoutStep acc).2.storeForward = acc.2.storeForward := by
  induction order generalizing acc with
  | nil => exact ⟨.refl _, rfl⟩
  | cons id order ih =>
      obtain ⟨hwithin, hstore⟩ := ih (timeoutStep acc id)
      rw [timeoutStep_eq] at hwithin hstore
      rw [List.foldl_cons, timeoutStep_eq]
      exact ⟨hwithin.trans (OutboundQueue.within_retry _ id), hstore⟩

/-- **No operation puts a message in flight**, and the pending queue keeps its bound. -/
theorem within_perform {op : RouterOp} (h : r.perform codec op = some r') :
    Within r'.outbound r.outbound := by
  cases op with
  | send packet reachable options now nowMs trackedAt =>
      obtain rfl := Option.some.inj h
      obtain ⟨outbound, -, henq, hres⟩ | ⟨e, -, hres⟩ | ⟨stored, -, -, hres⟩ |
          ⟨e, stored, -, -, hres⟩ :=
        send_cases codec r packet reachable options now nowMs trackedAt <;> rw [hres]
      · exact OutboundQueue.within_enqueue henq
      all_goals exact .refl _
  | ack id hops now =>
      obtain rfl := Option.some.inj h
      exact OutboundQueue.within_handleAck _ id
  | nak id reason =>
      obtain rfl := Option.some.inj h
      exact OutboundQueue.within_retry _ id
  | timeouts now order =>
      rw [perform, Option.ite_none_right_eq_some] at h
      obtain rfl := Option.some.inj h.2
      exact (foldl_timeoutStep order ([], r)).1
  | maintenance expireAt pruneAt nowMs drainAt =>
      obtain rfl := Option.some.inj h
      exact OutboundQueue.within_drainExpired _ drainAt
  | nodeCameOnline dest clock =>
      obtain rfl := Option.some.inj h
      exact within_forward _ _ _ _

/-! ## The ids a router holds -/

/-- The packet ids in the outbound queue and in store-and-forward. -/
def ids (r : MeshRouter) : Multiset UInt32 := r.outbound.ids + r.storeForward.ids

/-- What every operation keeps true of the queues. -/
structure WellFormed (codec : PacketCodec) (r : MeshRouter) : Prop where
  keyed : r.outbound.Keyed
  bounded : r.storeForward.Bounded
  decodes : ∀ dest, ∀ m ∈ r.storeForward.queue dest,
    ∃ packet, codec.decode m.packetBytes = some packet ∧ packet.id = m.packetId

/-- The id of the packet an operation takes in. -/
def accepted (codec : PacketCodec) (r : MeshRouter) : RouterOp → List UInt32
  | .send packet reachable options now nowMs trackedAt =>
      if (r.send codec packet reachable options now nowMs trackedAt).1.isOk then [packet.id] else []
  | .ack .. | .nak .. | .timeouts .. | .maintenance .. | .nodeCameOnline .. => []

/-- The ids store-and-forward lets go of in favour of a message of higher priority. -/
def evictedBy (codec : PacketCodec) (r : MeshRouter) : RouterOp → List UInt32
  | .send packet reachable options _ nowMs _ =>
      if reachable then []
      else r.storeForward.evicted packet.toNode (toStored codec packet options nowMs)
  | .ack .. | .nak .. | .timeouts .. | .maintenance .. | .nodeCameOnline .. => []

/-- The ids an operation drops because their TTL has passed. -/
def expiredBy (r : MeshRouter) : RouterOp → List UInt32
  | .maintenance _ _ nowMs drainAt =>
      r.outbound.expiredIds drainAt ++ r.storeForward.expiredIds nowMs
  | .send .. | .ack .. | .nak .. | .timeouts .. | .nodeCameOnline .. => []

/-- The ids an operation takes out of flight for good. -/
def settledBy (r : MeshRouter) : RouterOp → List UInt32
  | .ack id _ _ => if (r.outbound.inflight.lookup id).isSome then [id] else []
  | .nak id _ =>
      if (r.outbound.retry id).1 = false ∧ (r.outbound.inflight.lookup id).isSome then [id] else []
  | .timeouts _ order => (r.processTimeouts order).1
  | .send .. | .maintenance .. | .nodeCameOnline .. => []

/-- All ids an operation lets go of. -/
def removed (codec : PacketCodec) (r : MeshRouter) (op : RouterOp) : List UInt32 :=
  r.evictedBy codec op ++ r.expiredBy op ++ r.settledBy op

theorem ids_send (codec : PacketCodec) (r : MeshRouter) (packet : MeshPacket) (reachable : Bool)
    (options : SendOptions) (now : Instant) (nowMs : Nat) (trackedAt : Instant) :
    let op := RouterOp.send packet reachable options now nowMs trackedAt
    (r.send codec packet reachable options now nowMs trackedAt).2.ids +
      (r.evictedBy codec op : Multiset UInt32) =
        r.ids + (r.accepted codec op : Multiset UInt32) := by
  intro op
  simp only [op, evictedBy, accepted]
  obtain ⟨outbound, rfl, henq, hres⟩ | ⟨e, rfl, hres⟩ | ⟨stored, rfl, hstore, hres⟩ |
    ⟨e, stored, rfl, hstore, hres⟩ :=
      send_cases codec r packet reachable options now nowMs trackedAt <;>
    simp only [hres, Except.isOk, Except.toBool, if_true, ids, Bool.false_eq_true, if_false]
  · rw [OutboundQueue.ids_enqueue henq]
    change r.outbound.ids + {packet.id} + _ + 0 = _ + {packet.id}
    abel
  · have hids :=
      StoreForward.ids_store r.storeForward packet.toNode (toStored codec packet options nowMs)
    simp only [hstore, Except.isOk, Except.toBool, if_true] at hids
    change _ = _ + ({packet.id} : Multiset UInt32)
    rw [add_assoc, hids, ← add_assoc]
    rfl
  · have hids :=
      StoreForward.ids_store r.storeForward packet.toNode (toStored codec packet options nowMs)
    simp only [hstore, Except.isOk, Except.toBool, Bool.false_eq_true, if_false, add_zero] at hids
    rw [add_assoc, hids]
    simp

/-- The timeout loop visits messages in flight, each once: those it reports leave. -/
theorem ids_foldl_timeoutStep {order : List UInt32} (acc : List UInt32 × MeshRouter)
    (hkeyed : acc.2.outbound.Keyed) (hnodup : order.Nodup)
    (hinflight : ∀ id ∈ order, (acc.2.outbound.inflight.lookup id).isSome) :
    (order.foldl timeoutStep acc).2.ids + ((order.foldl timeoutStep acc).1 : Multiset UInt32) =
      acc.2.ids + (acc.1 : Multiset UInt32) := by
  induction order generalizing acc with
  | nil => rfl
  | cons id order ih =>
      obtain ⟨hid, hnodup⟩ := List.nodup_cons.mp hnodup
      have hretry := OutboundQueue.ids_retry hkeyed id
      rw [List.foldl_cons]
      rw [ih _ ?_ hnodup ?_, timeoutStep_eq, ids, ids]
      · simp only [hinflight id List.mem_cons_self, and_true] at hretry
        rw [← hretry]
        cases (acc.2.outbound.retry id).1 with
        | true => simp
        | false =>
            simp only [Bool.false_eq_true, if_false, if_true, ← Multiset.coe_add,
              Multiset.coe_singleton]
            abel
      · rw [timeoutStep_eq]
        exact (OutboundQueue.within_retry _ id).keyed hkeyed
      · intro m hm
        rw [timeoutStep_eq]
        have hne : m ≠ id := fun heq => hid (heq ▸ hm)
        simp only [OutboundQueue.inflight_retry, Table.lookup_erase_ite, if_neg hne]
        exact hinflight m (List.mem_cons_of_mem _ hm)

/-- `check_timeouts` names messages in flight, each once. -/
theorem checkTimeouts_perm {q : OutboundQueue} {now : Instant} {order : List UInt32}
    (h : order.Perm (q.checkTimeouts now)) :
    order.Nodup ∧ ∀ id ∈ order, (q.inflight.lookup id).isSome := by
  refine ⟨h.nodup_iff.mpr (AList.keys_nodup _), fun id hid => ?_⟩
  obtain ⟨m, hm⟩ := (Table.mem_keys_iff _ _).mp (h.mem_iff.mp hid)
  rw [Table.lookup_retain] at hm
  exact Option.isSome_of_mem (Option.filter_eq_some_iff.mp hm).1

/-- Messages that fit and decode are all queued. -/
theorem ids_forward {msgs : List StoredMessage} {q : OutboundQueue}
    (hroom : msgs.length ≤ q.remainingCapacity)
    (hdecodes : ∀ m ∈ msgs, ∃ packet, codec.decode m.packetBytes = some packet ∧
      packet.id = m.packetId) (clock : Nat → Instant) :
    (forward codec msgs clock q).ids = q.ids + (StoreForward.idsOf msgs : Multiset UInt32) := by
  induction msgs generalizing q clock with
  | nil => exact (add_zero _).symm
  | cons msg rest ih =>
      obtain ⟨packet, hdecode, hid⟩ := hdecodes msg List.mem_cons_self
      rw [List.length_cons, OutboundQueue.remainingCapacity] at hroom
      simp only [forward, hdecode]
      split
      · next henq =>
        have := OutboundQueue.enqueue_eq_error henq
        omega
      · next q' henq =>
        have hids := OutboundQueue.ids_enqueue henq
        obtain ⟨-, pending, hperm, rfl⟩ := OutboundQueue.enqueue_eq_ok henq
        have hlen := hperm.length_eq
        rw [List.length_cons] at hlen
        rw [ih ?_ (fun m hm => hdecodes m (List.mem_cons_of_mem _ hm)), hids, add_assoc]
        · change _ + ({packet.id} + _) = _
          rw [hid]
          rfl
        · rw [OutboundQueue.remainingCapacity]
          change rest.length ≤ q.maxPending - pending.length
          omega

/-- **A node coming online loses nothing**: what does not fit the outbound queue fits the
queue it came from. -/
theorem ids_nodeCameOnline (h : r.WellFormed codec) (dest : UInt32) (clock : Nat → Instant) :
    (r.nodeCameOnline codec dest clock).ids = r.ids := by
  set stored := r.storeForward.queue dest with hstored
  set capacity := r.outbound.remainingCapacity with hcapacity
  have hroom : (stored.take capacity).length ≤ r.outbound.remainingCapacity := by
    rw [List.length_take]
    exact Nat.min_le_left _ _
  have hforward := ids_forward hroom (fun m hm => h.decodes dest m (List.mem_of_mem_take hm)) clock
  have hrestore : ((r.storeForward.drainFor dest).2.restore dest (stored.drop capacity)).ids =
      (r.storeForward.drainFor dest).2.ids +
        (StoreForward.idsOf (stored.drop capacity) : Multiset UInt32) := by
    by_cases hnone : stored = []
    · rw [hnone, List.drop_nil]
      exact (add_zero _).symm
    · -- a queue was taken away, so there is room for one destination
      have hdest := h.bounded.noDestination_drainFor hnone
      refine (StoreForward.queue_restore hdest ?_ fun h0 m hm => ?_).2
      · rw [StoreForward.queue_drainFor, if_pos rfl, List.length_drop]
        have hlen : stored.length ≤ max r.storeForward.maxQueuePerDest 1 := h.bounded.length dest
        change 0 + _ ≤ max r.storeForward.maxQueuePerDest 1
        omega
      · exact h.bounded.positive h0 dest m (List.mem_of_mem_drop hm)
  have hsplit : (StoreForward.idsOf stored : Multiset UInt32) =
      (StoreForward.idsOf (stored.take capacity) : Multiset UInt32) +
        (StoreForward.idsOf (stored.drop capacity) : Multiset UInt32) := by
    rw [← StoreForward.idsOf_append, List.take_append_drop]
  have hdrain := StoreForward.ids_drainFor r.storeForward dest
  change (forward codec (stored.take capacity) clock r.outbound).ids +
    ((r.storeForward.drainFor dest).2.restore dest (stored.drop capacity)).ids = _
  rw [hforward, hrestore, ids, ← hdrain]
  change _ = _ + (_ + (StoreForward.idsOf stored : Multiset UInt32))
  rw [hsplit]
  abel

/-- **Balance**: an operation adds what it accepts to what the router holds, and takes
away what it removes. -/
theorem ids_perform (hwf : r.WellFormed codec) {op : RouterOp} (h : r.perform codec op = some r') :
    r'.ids + (r.removed codec op : Multiset UInt32) =
      r.ids + (r.accepted codec op : Multiset UInt32) := by
  cases op with
  | send packet reachable options now nowMs trackedAt =>
      obtain rfl := Option.some.inj h
      simpa [removed, expiredBy, settledBy] using
        ids_send codec r packet reachable options now nowMs trackedAt
  | ack id hops now =>
      obtain rfl := Option.some.inj h
      have hids := OutboundQueue.ids_handleAck r.outbound id
      rw [ids, ids, ← hids]
      simp only [removed, evictedBy, expiredBy, settledBy, accepted, handleAck, List.nil_append,
        Multiset.coe_nil, add_zero]
      split
      · rw [Multiset.coe_singleton]
        abel
      · rw [Multiset.coe_nil, add_zero, add_zero]
  | nak id reason =>
      obtain rfl := Option.some.inj h
      have hids := OutboundQueue.ids_retry hwf.keyed id
      rw [ids, ids, ← hids]
      change (r.outbound.retry id).2.ids + r.storeForward.ids + _ = _
      simp only [removed, evictedBy, expiredBy, settledBy, accepted, List.nil_append,
        Multiset.coe_nil, add_zero]
      split
      · rw [Multiset.coe_singleton]
        abel
      · rw [Multiset.coe_nil, add_zero, add_zero]
  | timeouts now order =>
      rw [perform, Option.ite_none_right_eq_some] at h
      obtain rfl := Option.some.inj h.2
      obtain ⟨hnodup, hinflight⟩ := checkTimeouts_perm h.1
      have hids := ids_foldl_timeoutStep ([], r) hwf.keyed hnodup hinflight
      simpa [removed, evictedBy, expiredBy, settledBy, accepted, processTimeouts] using hids
  | maintenance expireAt pruneAt nowMs drainAt =>
      obtain rfl := Option.some.inj h
      have hout := OutboundQueue.ids_drainExpired r.outbound drainAt
      have hstore := StoreForward.ids_pruneExpired r.storeForward nowMs
      rw [ids, ids, ← hout, ← hstore]
      simp only [removed, evictedBy, expiredBy, settledBy, accepted, runMaintenance,
        List.nil_append, List.append_nil, ← Multiset.coe_add, Multiset.coe_nil]
      abel
  | nodeCameOnline dest clock =>
      obtain rfl := Option.some.inj h
      simpa [removed, evictedBy, expiredBy, settledBy, accepted] using
        ids_nodeCameOnline hwf dest clock

/-! ## Well-formedness -/

theorem wellFormed_withConfig (codec : PacketCodec) (config : OutboundConfig)
    (maxQueuePerDest : Nat) :
    (withConfig config maxQueuePerDest).WellFormed codec where
  keyed := fun _ _ h => nomatch h
  bounded := ⟨Nat.zero_le _, fun _ => Nat.zero_le _, fun _ _ _ h => nomatch h⟩
  decodes := fun _ _ h => nomatch h

/-- An operation that changes nothing in store-and-forward but what `store` and its
siblings do keeps a router well formed. -/
theorem WellFormed.of_within (h : r.WellFormed codec) (hwithin : Within r'.outbound r.outbound)
    (hbounded : r'.storeForward.Bounded)
    (hmem : ∀ dest, ∀ m ∈ r'.storeForward.queue dest, m ∈ r.storeForward.queue dest ∨
      ∃ packet, codec.decode m.packetBytes = some packet ∧ packet.id = m.packetId) :
    r'.WellFormed codec where
  keyed := hwithin.keyed h.keyed
  bounded := hbounded
  decodes dest m hm := (hmem dest m hm).elim (h.decodes dest m) id

theorem WellFormed.perform (hcodec : codec.KeepsId) (h : r.WellFormed codec) {op : RouterOp}
    (hop : r.perform codec op = some r') : r'.WellFormed codec := by
  have hwithin := within_perform hop
  have hsame : r'.storeForward = r.storeForward → r'.WellFormed codec := fun heq =>
    h.of_within hwithin (heq ▸ h.bounded) fun dest m hm => .inl (heq ▸ hm)
  cases op with
  | send packet reachable options now nowMs trackedAt =>
      obtain rfl := Option.some.inj hop
      have hstored : ∀ outcome stored,
          r.storeForward.store packet.toNode (toStored codec packet options nowMs) =
            (outcome, stored) →
          (r.send codec packet reachable options now nowMs trackedAt).2.storeForward = stored →
          (r.send codec packet reachable options now nowMs trackedAt).2.WellFormed codec := by
        intro outcome stored hstore heq
        have heq : (r.send codec packet reachable options now nowMs trackedAt).2.storeForward =
            (r.storeForward.store packet.toNode (toStored codec packet options nowMs)).2 := by
          rw [heq, hstore]
        refine h.of_within hwithin (heq ▸ h.bounded.store _ _) fun dest m hm => ?_
        rw [heq] at hm
        obtain hm | ⟨-, rfl⟩ := StoreForward.mem_queue_store hm
        · exact .inl hm
        · exact .inr (hcodec packet)
      obtain ⟨outbound, -, -, hres⟩ | ⟨e, -, hres⟩ | ⟨stored, -, hstore, hres⟩ |
        ⟨e, stored, -, hstore, hres⟩ :=
          send_cases codec r packet reachable options now nowMs trackedAt
      · exact hsame (by rw [hres])
      · exact hsame (by rw [hres])
      · exact hstored _ stored hstore (by rw [hres])
      · exact hstored _ stored hstore (by rw [hres])
  | ack id hops now =>
      obtain rfl := Option.some.inj hop
      exact hsame rfl
  | nak id reason =>
      obtain rfl := Option.some.inj hop
      exact hsame rfl
  | timeouts now order =>
      rw [MeshRouter.perform, Option.ite_none_right_eq_some] at hop
      obtain rfl := Option.some.inj hop.2
      exact hsame (foldl_timeoutStep order ([], r)).2
  | maintenance expireAt pruneAt nowMs drainAt =>
      obtain rfl := Option.some.inj hop
      refine h.of_within hwithin (h.bounded.pruneExpired nowMs) fun dest m hm => ?_
      change m ∈ (r.storeForward.pruneExpired nowMs).queue dest at hm
      rw [StoreForward.queue_pruneExpired] at hm
      exact .inl (List.mem_of_mem_filter hm)
  | nodeCameOnline dest clock =>
      obtain rfl := Option.some.inj hop
      refine h.of_within hwithin ((h.bounded.drainFor dest).restore dest _) fun m x hx => .inl ?_
      obtain hx | ⟨rfl, hx⟩ := StoreForward.mem_queue_restore hx
      · change x ∈ (r.storeForward.drainFor dest).2.queue m at hx
        rw [StoreForward.queue_drainFor] at hx
        split at hx
        · cases hx
        · exact hx
      · exact List.mem_of_mem_drop hx

end MeshRouter

end Akroasis.Mesh
