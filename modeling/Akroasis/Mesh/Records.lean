import Akroasis.Mesh.Holding

/-!
# Akroasis.Mesh.Records

What the router's operations do to delivery records.  An operation opens the record of the
packet it accepts, updates records, or, in maintenance, also prunes settled ones
(`delivery_perform`).  What it takes out of flight for good it settles
(`settled_of_settledBy`).
-/

namespace Akroasis.Mesh

open DeliveryTracker (Updates)

namespace MeshRouter

variable {codec : PacketCodec} {r r' : MeshRouter} {op : RouterOp} {id : UInt32}

/-- The packet's record is in a terminal state. -/
def Settled (r : MeshRouter) (id : UInt32) : Prop :=
  ∃ record, r.delivery.records.lookup id = some record ∧ record.status.isActive = false

/-- The settled records an operation prunes. -/
def prunedBy (r : MeshRouter) : RouterOp → List UInt32
  | .maintenance expireAt pruneAt _ _ =>
      ((r.delivery.expireStale r.recordMaxAge expireAt).2.records.retain fun _ record =>
        !(record.status.isActive || decide (pruneAt - record.created < r.recordMaxAge))).keys
  | .send .. | .ack .. | .nak .. | .timeouts .. | .nodeCameOnline .. => []

/-- Updating records keeps settled ones settled. -/
theorem settled_of_updates {t t' : DeliveryTracker} (h : Updates t' t)
    (hsettled : ∃ record, t.records.lookup id = some record ∧ record.status.isActive = false) :
    ∃ record, t'.records.lookup id = some record ∧ record.status.isActive = false := by
  obtain ⟨record, hrecord, hinactive⟩ := hsettled
  have hsome := h.isSome id
  rw [hrecord, Option.isSome_some] at hsome
  obtain ⟨record', hrecord'⟩ := Option.isSome_iff_exists.mp hsome
  exact ⟨record', hrecord', h.settled id record record' hrecord hrecord' hinactive⟩

/-! ## Timeouts -/

theorem updates_timeoutStep (acc : List UInt32 × MeshRouter) (id : UInt32) :
    Updates (timeoutStep acc id).2.delivery acc.2.delivery := by
  rw [timeoutStep_eq]
  simp only
  split
  · exact Updates.recordRetry _ id
  · exact Updates.markSettled _ id rfl

theorem updates_foldl_timeoutStep (order : List UInt32) (acc : List UInt32 × MeshRouter) :
    Updates (order.foldl timeoutStep acc).2.delivery acc.2.delivery := by
  induction order generalizing acc with
  | nil => exact .refl _
  | cons id order ih => exact (ih _).trans (updates_timeoutStep acc id)

/-- The timeout loop leaves the records of messages it does not visit alone. -/
theorem lookup_timeoutStep (acc : List UInt32 × MeshRouter) {m : UInt32} (h : m ≠ id) :
    (timeoutStep acc id).2.delivery.records.lookup m = acc.2.delivery.records.lookup m := by
  rw [timeoutStep_eq]
  simp only
  split
  · rw [DeliveryTracker.lookup_recordRetry, if_neg h]
  · rw [DeliveryTracker.markFailed, DeliveryTracker.lookup_markSettled, if_neg h]

theorem lookup_foldl_timeoutStep {order : List UInt32} (acc : List UInt32 × MeshRouter)
    (h : id ∉ order) :
    (order.foldl timeoutStep acc).2.delivery.records.lookup id =
      acc.2.delivery.records.lookup id := by
  induction order generalizing acc with
  | nil => rfl
  | cons m order ih =>
      obtain ⟨hne, hrest⟩ := not_or.mp (mt List.mem_cons.mpr h)
      rw [List.foldl_cons, ih _ hrest, lookup_timeoutStep acc hne]

/-- A message the timeout loop reports has a settled record, if it has one at all. -/
theorem settled_foldl_timeoutStep {order : List UInt32} (acc : List UInt32 × MeshRouter)
    (hacc : ∀ id ∈ acc.1, (acc.2.delivery.records.lookup id).isSome → acc.2.Settled id) :
    ∀ id ∈ (order.foldl timeoutStep acc).1,
      ((order.foldl timeoutStep acc).2.delivery.records.lookup id).isSome →
        (order.foldl timeoutStep acc).2.Settled id := by
  induction order generalizing acc with
  | nil => exact hacc
  | cons m order ih =>
      refine ih _ fun id hid hsome => ?_
      have hupdates := updates_timeoutStep acc m
      have hkept : id ∈ acc.1 → (timeoutStep acc m).2.Settled id := by
        intro hid
        rw [hupdates.isSome] at hsome
        exact settled_of_updates hupdates (hacc id hid hsome)
      rw [timeoutStep_eq] at hid
      simp only at hid
      split at hid
      · exact hkept hid
      · next hretry =>
        rcases List.mem_append.mp hid with hid | hid
        · exact hkept hid
        · obtain rfl := List.mem_singleton.mp hid
          rw [timeoutStep_eq] at hsome ⊢
          simp only [if_neg hretry, Settled, DeliveryTracker.markFailed,
            DeliveryTracker.lookup_markSettled, if_true] at hsome ⊢
          cases hrecord : acc.2.delivery.records.lookup id with
          | none => rw [hrecord] at hsome; cases hsome
          | some record => exact ⟨_, rfl, rfl⟩

/-- Marking a message as sent neither opens nor closes a record. -/
theorem isSome_nextToSend (r : MeshRouter) (now sentAt : Instant) (id : UInt32) :
    ((r.nextToSend now sentAt).2.delivery.records.lookup id).isSome =
      (r.delivery.records.lookup id).isSome := by
  rw [nextToSend_eq]
  cases (r.outbound.nextToSend now).1 with
  | none => rfl
  | some msg =>
      simp only [Option.elim, DeliveryTracker.lookup_markSent]
      split
      · next heq => rw [Option.isSome_map, heq]
      · rfl

/-! ## All operations -/

/-- What an operation can do to the delivery tracker. -/
theorem delivery_perform (h : r.perform codec op = some r') :
    (∃ (packet : MeshPacket) (trackedAt : Instant), r.accepted codec op = [packet.id] ∧
        r.prunedBy op = [] ∧
        r'.delivery = r.delivery.track packet.id packet.toNode trackedAt) ∨
      (r.accepted codec op = [] ∧ r.prunedBy op = [] ∧ Updates r'.delivery r.delivery) ∨
      ∃ expireAt pruneAt nowMs drainAt, op = .maintenance expireAt pruneAt nowMs drainAt ∧
        r'.delivery = (r.delivery.expireStale r.recordMaxAge expireAt).2.pruneCompleted
          r.recordMaxAge pruneAt := by
  cases op with
  | send packet reachable options now nowMs trackedAt =>
      obtain rfl := Option.some.inj h
      obtain ⟨outbound, -, henq, hres⟩ | ⟨e, -, hres⟩ | ⟨stored, -, -, hres⟩ |
          ⟨e, stored, -, -, hres⟩ :=
        send_cases codec r packet reachable options now nowMs trackedAt <;>
        simp only [accepted, hres, Except.isOk, Except.toBool, if_true,
          Bool.false_eq_true, if_false]
      · exact .inl ⟨packet, trackedAt, rfl, rfl, rfl⟩
      · exact .inr (.inl ⟨trivial, rfl, .refl _⟩)
      · exact .inl ⟨packet, trackedAt, rfl, rfl, rfl⟩
      · exact .inr (.inl ⟨trivial, rfl, .refl _⟩)
  | ack id hops now =>
      obtain rfl := Option.some.inj h
      exact .inr (.inl ⟨rfl, rfl, .markAcknowledged _ id hops now⟩)
  | nak id reason =>
      obtain rfl := Option.some.inj h
      refine .inr (.inl ⟨rfl, rfl, ?_⟩)
      simp only [handleNak]
      split
      · exact .recordRetry _ id
      · exact .markSettled _ id rfl
  | timeouts now order =>
      rw [perform, Option.ite_none_right_eq_some] at h
      obtain rfl := Option.some.inj h.2
      exact .inr (.inl ⟨rfl, rfl, updates_foldl_timeoutStep order ([], r)⟩)
  | maintenance expireAt pruneAt nowMs drainAt =>
      obtain rfl := Option.some.inj h
      exact .inr (.inr ⟨expireAt, pruneAt, nowMs, drainAt, rfl, rfl⟩)
  | nodeCameOnline dest clock =>
      obtain rfl := Option.some.inj h
      exact .inr (.inl ⟨rfl, rfl, .refl _⟩)

/-- Only an accepted packet gets a new record. -/
theorem isSome_of_perform (h : r.perform codec op = some r')
    (hsome : (r'.delivery.records.lookup id).isSome) :
    id ∈ r.accepted codec op ∨ (r.delivery.records.lookup id).isSome := by
  obtain ⟨packet, trackedAt, haccepted, -, htrack⟩ | ⟨-, -, hupdates⟩ |
    ⟨expireAt, pruneAt, nowMs, drainAt, -, hprune⟩ := delivery_perform h
  · rw [htrack, DeliveryTracker.lookup_track] at hsome
    split at hsome
    · next heq => exact .inl (by rw [haccepted, heq]; exact List.mem_singleton_self _)
    · exact .inr hsome
  · exact .inr (by rwa [hupdates.isSome] at hsome)
  · rw [hprune, DeliveryTracker.lookup_pruneCompleted] at hsome
    refine .inr ?_
    rw [← (Updates.expireStale r.delivery r.recordMaxAge expireAt).isSome id]
    exact Option.isSome_of_isSome_filter _ _ hsome

/-- An accepted packet has a record. -/
theorem isSome_of_accepted (h : r.perform codec op = some r') (hid : id ∈ r.accepted codec op) :
    (r'.delivery.records.lookup id).isSome := by
  obtain ⟨packet, trackedAt, haccepted, -, htrack⟩ | ⟨haccepted, -, -⟩ |
    ⟨expireAt, pruneAt, nowMs, drainAt, rfl, -⟩ := delivery_perform h
  · rw [haccepted] at hid
    obtain rfl := List.mem_singleton.mp hid
    rw [htrack, DeliveryTracker.lookup_track, if_pos rfl]
    rfl
  · rw [haccepted] at hid
    cases hid
  · cases hid

/-- Maintenance keeps an updated record or lists it as pruned. -/
theorem mem_prunedBy {expireAt pruneAt : Instant} (nowMs : Nat) (drainAt : Instant)
    {record : DeliveryRecord}
    (h : (r.delivery.expireStale r.recordMaxAge expireAt).2.records.lookup id = some record) :
    ((r.delivery.expireStale r.recordMaxAge expireAt).2.pruneCompleted r.recordMaxAge
        pruneAt).records.lookup id = some record ∨
      id ∈ r.prunedBy (.maintenance expireAt pruneAt nowMs drainAt) := by
  rw [DeliveryTracker.lookup_pruneCompleted, h]
  cases hkeep : record.status.isActive || decide (pruneAt - record.created < r.recordMaxAge) with
  | true => exact .inl (Option.filter_eq_some_iff.mpr ⟨rfl, hkeep⟩)
  | false =>
      refine .inr ((Table.mem_keys_iff _ _).mpr ⟨record, ?_⟩)
      rw [Table.lookup_retain, h]
      exact Option.filter_eq_some_iff.mpr ⟨rfl, by rw [hkeep]; rfl⟩

/-- A record stays until it is pruned. -/
theorem isSome_perform (h : r.perform codec op = some r')
    (hsome : (r.delivery.records.lookup id).isSome) :
    (r'.delivery.records.lookup id).isSome ∨ id ∈ r.prunedBy op := by
  obtain ⟨packet, trackedAt, -, -, htrack⟩ | ⟨-, -, hupdates⟩ |
    ⟨expireAt, pruneAt, nowMs, drainAt, rfl, hprune⟩ := delivery_perform h
  · rw [htrack, DeliveryTracker.lookup_track]
    split
    · exact .inl rfl
    · exact .inl hsome
  · exact .inl (by rwa [hupdates.isSome])
  · rw [← (Updates.expireStale r.delivery r.recordMaxAge expireAt).isSome id] at hsome
    obtain ⟨record, hrecord⟩ := Option.isSome_iff_exists.mp hsome
    rw [hprune]
    exact (mem_prunedBy nowMs drainAt hrecord).imp_left fun hkept => by rw [hkept]; rfl

/-- A settled record stays settled until it is pruned. -/
theorem settled_perform (h : r.perform codec op = some r') (hnew : id ∉ r.accepted codec op)
    (hsettled : r.Settled id) : r'.Settled id ∨ id ∈ r.prunedBy op := by
  obtain ⟨record, hrecord, hinactive⟩ := hsettled
  obtain ⟨packet, trackedAt, haccepted, -, htrack⟩ | ⟨-, -, hupdates⟩ |
    ⟨expireAt, pruneAt, nowMs, drainAt, rfl, hprune⟩ := delivery_perform h
  · have hne : id ≠ packet.id :=
      fun heq => hnew (by rw [haccepted, heq]; exact List.mem_singleton_self _)
    exact .inl
      ⟨record, by rw [htrack, DeliveryTracker.lookup_track, if_neg hne, hrecord], hinactive⟩
  · exact .inl (settled_of_updates hupdates ⟨record, hrecord, hinactive⟩)
  · obtain ⟨record', hrecord', hinactive'⟩ := settled_of_updates
      (Updates.expireStale r.delivery r.recordMaxAge expireAt) ⟨record, hrecord, hinactive⟩
    refine (mem_prunedBy nowMs drainAt hrecord').imp_left fun hkept => ?_
    exact ⟨record', by rw [hprune, hkept], hinactive'⟩

/-- **What is taken out of flight for good is settled.** -/
theorem settled_of_settledBy (h : r.perform codec op = some r') (hid : id ∈ r.settledBy op)
    (hsome : (r.delivery.records.lookup id).isSome) : r'.Settled id := by
  obtain ⟨record, hrecord⟩ := Option.isSome_iff_exists.mp hsome
  cases op with
  | send | maintenance | nodeCameOnline => cases hid
  | ack m hops now =>
      obtain rfl := Option.some.inj h
      simp only [settledBy] at hid
      split at hid
      · obtain rfl := List.mem_singleton.mp hid
        rw [← (Updates.markAcknowledged r.delivery id hops now).isSome id] at hsome
        obtain ⟨record', hrecord'⟩ := Option.isSome_iff_exists.mp hsome
        exact ⟨record', hrecord', DeliveryStatus.isActive_of_isAcknowledged
          (DeliveryTracker.isAcknowledged_of_markAcknowledged hrecord')⟩
      · cases hid
  | nak m reason =>
      obtain rfl := Option.some.inj h
      simp only [settledBy] at hid
      split at hid
      · next hgone =>
        obtain rfl := List.mem_singleton.mp hid
        have hnot : (r.outbound.handleNak id).1 = false := hgone.1
        refine ⟨{ record with status := .failed reason }, ?_, rfl⟩
        simp only [handleNak, hnot, Bool.false_eq_true, if_false, DeliveryTracker.markFailed,
          DeliveryTracker.lookup_markSettled, if_true, hrecord]
        rfl
      · cases hid
  | timeouts now order =>
      rw [perform, Option.ite_none_right_eq_some] at h
      obtain rfl := Option.some.inj h.2
      refine settled_foldl_timeoutStep ([], r) (fun _ hm => absurd hm List.not_mem_nil) id hid ?_
      rw [(updates_foldl_timeoutStep order ([], r)).isSome]
      exact hsome

end MeshRouter

end Akroasis.Mesh
