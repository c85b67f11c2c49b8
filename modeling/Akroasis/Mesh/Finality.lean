import Akroasis.Mesh.System

/-!
# Akroasis.Mesh.Finality

Is an acknowledgement final?  `handle_ack` takes the message out of flight and marks its
record.  A copy that is anywhere else stays: waiting to be sent again after a retry, in
store-and-forward, or with a caller that has taken it and not tracked it yet.  And
`mark_failed` overwrites an acknowledged record.

`Timely` rules these two out, event by event: no ACK arrives while its message is
`waiting`, and no NAK for a record that is acknowledged.  `ack_final` is the theorem: in
runs of timely events, an acknowledged packet is not returned by `next_to_send` again, and
its record stays acknowledged until it is pruned.
-/

namespace Akroasis.Mesh

namespace MeshRouter

variable {codec : PacketCodec} {r r' : MeshRouter} {op : RouterOp} {id : UInt32}

theorem lookup_send (packet : MeshPacket) (reachable : Bool) (options : SendOptions)
    (now : Instant) (nowMs : Nat) (trackedAt : Instant)
    (h : id ∉ r.accepted codec (.send packet reachable options now nowMs trackedAt)) :
    (r.send codec packet reachable options now nowMs trackedAt).2.delivery.records.lookup id =
      r.delivery.records.lookup id := by
  obtain ⟨outbound, -, -, hres⟩ | ⟨e, -, hres⟩ | ⟨stored, -, -, hres⟩ | ⟨e, stored, -, -, hres⟩ :=
    send_cases codec r packet reachable options now nowMs trackedAt <;>
    simp only [accepted, hres, Except.isOk, Except.toBool, if_true, List.mem_singleton] at h ⊢
  · rw [DeliveryTracker.lookup_track, if_neg h]
  · rw [DeliveryTracker.lookup_track, if_neg h]

/-- An acknowledged record of a message that is not in flight stays acknowledged, unless a
NAK names it. -/
theorem acknowledged_perform (h : r.perform codec op = some r') (hnew : id ∉ r.accepted codec op)
    (hidle : r.outbound.inflight.lookup id = none)
    (hnak : ∀ reason, op = .nak id reason →
      ∀ record, r.delivery.records.lookup id = some record → record.status.isAcknowledged = false)
    (hack : ∀ record, r.delivery.records.lookup id = some record → record.status.isAcknowledged)
    {record : DeliveryRecord} (hrecord : r'.delivery.records.lookup id = some record) :
    record.status.isAcknowledged := by
  cases op with
  | send packet reachable options now nowMs trackedAt =>
      obtain rfl := Option.some.inj h
      rw [lookup_send _ _ _ _ _ _ hnew] at hrecord
      exact hack record hrecord
  | ack m hops now =>
      obtain rfl := Option.some.inj h
      by_cases hm : id = m
      · subst hm
        exact DeliveryTracker.isAcknowledged_of_markAcknowledged hrecord
      · simp only [handleAck, DeliveryTracker.lookup_markAcknowledged, if_neg hm] at hrecord
        exact hack record hrecord
  | nak m reason =>
      obtain rfl := Option.some.inj h
      by_cases hm : id = m
      · subst hm
        -- the NAK finds no record, for one would be acknowledged
        have hnone : r.delivery.records.lookup id = none :=
          Option.eq_none_iff_forall_ne_some.mpr fun old hold =>
            Bool.false_ne_true ((hnak reason rfl old hold).symm.trans (hack old hold))
        simp only [handleNak, DeliveryTracker.markFailed] at hrecord
        split at hrecord
        · rw [DeliveryTracker.lookup_recordRetry, hnone] at hrecord
          simp at hrecord
        · rw [DeliveryTracker.lookup_markSettled, hnone] at hrecord
          simp at hrecord
      · simp only [handleNak, DeliveryTracker.markFailed] at hrecord
        split at hrecord
        · rw [DeliveryTracker.lookup_recordRetry, if_neg hm] at hrecord
          exact hack record hrecord
        · rw [DeliveryTracker.lookup_markSettled, if_neg hm] at hrecord
          exact hack record hrecord
  | timeouts now order =>
      rw [perform, Option.ite_none_right_eq_some] at h
      obtain rfl := Option.some.inj h.2
      have hmem : id ∉ order := fun hmem => by
        have hsome := (checkTimeouts_perm h.1).2 id hmem
        rw [hidle] at hsome
        cases hsome
      rw [processTimeouts, lookup_foldl_timeoutStep _ hmem] at hrecord
      exact hack record hrecord
  | maintenance expireAt pruneAt nowMs drainAt =>
      obtain rfl := Option.some.inj h
      simp only [runMaintenance, DeliveryTracker.lookup_pruneCompleted,
        DeliveryTracker.lookup_expireStale] at hrecord
      obtain ⟨old, hold, rfl⟩ := Option.map_eq_some_iff.mp (Option.filter_eq_some_iff.mp hrecord).1
      have hold := hack old hold
      rw [if_neg]
      · exact hold
      · simp [DeliveryTracker.isStale, DeliveryStatus.isActive_of_isAcknowledged hold]
  | nodeCameOnline dest clock =>
      obtain rfl := Option.some.inj h
      exact hack record hrecord

end MeshRouter

/-! ## Timely events -/

/-- The packet an event acknowledges. -/
def Event.acks : Event → List UInt32
  | .op (.ack id _ _) => [id]
  | .op _ | .nextToSend .. | .trackSent .. => []

/-- The packet an event reports as failed. -/
def Event.naks : Event → List UInt32
  | .op (.nak id _) => [id]
  | .op _ | .nextToSend .. | .trackSent .. => []

namespace System

variable {codec : PacketCodec} {s s' : System} {e : Event} {id : UInt32}

/-- The ids of messages that are held but not in flight. -/
def waiting (s : System) : Multiset UInt32 :=
  s.router.outbound.pendingIds + s.router.storeForward.ids +
    (s.handed.map PendingMessage.id : List UInt32)

theorem held_eq (s : System) :
    s.held = s.waiting + (s.router.outbound.inflight.keys : Multiset UInt32) := by
  rw [held, waiting, MeshRouter.ids, OutboundQueue.ids]
  abel

/-- No ACK for a message that is waiting, no NAK for a record that is acknowledged. -/
def Timely (s : System) (e : Event) : Prop :=
  (∀ id ∈ e.acks, id ∉ s.waiting) ∧
    ∀ id ∈ e.naks, ∀ record ∈ s.router.delivery.records.lookup id,
      record.status.isAcknowledged = false

instance (s : System) (e : Event) : Decidable (s.Timely e) :=
  have := List.decidableBAll (fun id => id ∉ s.waiting) e.acks
  have := List.decidableBAll (fun id => ∀ record ∈ s.router.delivery.records.lookup id,
    record.status.isAcknowledged = false) e.naks
  instDecidableAnd

/-! ## The invariant -/

/-- Acknowledged packets are gone and their records are acknowledged. -/
structure AcksFinal (codec : PacketCodec) (s : System) : Prop where
  sound : s.Sound codec
  sent : ∀ id ∈ s.history.acked, id ∈ s.history.sent
  gone : ∀ id ∈ s.history.acked, id ∉ s.held
  record : ∀ id ∈ s.history.acked, ∀ record, s.router.delivery.records.lookup id = some record →
    record.status.isAcknowledged

theorem acksFinal_start (codec : PacketCodec) (config : OutboundConfig) (maxQueuePerDest : Nat) :
    (start config maxQueuePerDest).AcksFinal codec where
  sound := sound_start codec config maxQueuePerDest
  sent := fun _ h => nomatch h
  gone := fun _ h => nomatch h
  record := fun _ h => nomatch h

/-- A packet that was accepted and is not held stays so. -/
theorem Sound.not_held (h : s.Sound codec) (hfresh : s.Fresh e) (hstep : s.step codec e = some s')
    (hsent : id ∈ s.history.sent) (hgone : id ∉ s.held) : id ∉ s'.held := by
  intro hid
  have hmem : id ∈ s.held + (s.accepted codec e : Multiset UInt32) :=
    h.held_step hstep ▸ Multiset.mem_add.mpr (.inl hid)
  rcases Multiset.mem_add.mp hmem with hid | hid
  · exact hgone hid
  · exact (accepted_fresh hfresh (Multiset.mem_coe.mp hid)).2 hsent

theorem not_inflight (h : id ∉ s.held) : s.router.outbound.inflight.lookup id = none := by
  refine Option.eq_none_iff_forall_ne_some.mpr fun m hm => h ?_
  rw [held_eq]
  exact Multiset.mem_add.mpr (.inr (Multiset.mem_coe.mpr ((Table.mem_keys_iff _ _).mpr ⟨m, hm⟩)))

/-- An ACK for a message that is in flight, if it is held at all, removes it. -/
theorem Sound.not_held_of_ack (h : s.Sound codec) {hops : Option UInt8} {now : Instant}
    (hstep : s.step codec (.op (.ack id hops now)) = some s') (hwaiting : id ∉ s.waiting) :
    id ∉ s'.held := by
  intro hid
  have hbalance := congrArg (Multiset.count id) (h.held_step hstep)
  have honce := Multiset.nodup_iff_count_le_one.mp h.nodup id
  have hpos := Multiset.count_pos.mpr hid
  simp only [Multiset.count_add] at hbalance
  cases hinflight : s.router.outbound.inflight.lookup id with
  | none =>
      have hgone : id ∉ s.held := by
        rw [held_eq, Multiset.mem_add, Multiset.mem_coe, Table.mem_keys_iff]
        rintro (hid | ⟨m, hm⟩)
        · exact hwaiting hid
        · rw [hinflight] at hm
          cases hm
      rw [Multiset.count_eq_zero_of_notMem hgone] at hbalance
      simp only [accepted, MeshRouter.accepted, Multiset.coe_nil, Multiset.count_zero] at hbalance
      omega
  | some m =>
      have hremoved : s.removed codec (.op (.ack id hops now)) = [id] := by
        simp [removed, MeshRouter.removed, MeshRouter.evictedBy, MeshRouter.expiredBy,
          MeshRouter.settledBy, hinflight]
      simp only [hremoved, Multiset.coe_singleton, Multiset.count_singleton_self, accepted,
        MeshRouter.accepted, Multiset.coe_nil, Multiset.count_zero] at hbalance
      omega

/-- The message that `next_to_send` returns was held. -/
theorem mem_held_of_nextToSend {now : Instant} {msg : PendingMessage}
    (h : (s.router.outbound.nextToSend now).1 = some msg) : msg.id ∈ s.held := by
  have hids := OutboundQueue.ids_nextToSend s.router.outbound now
  rw [held, MeshRouter.ids, ← hids, h]
  simp

/-- A timely event keeps acknowledgements final. -/
theorem AcksFinal.step (hcodec : codec.KeepsId) (h : s.AcksFinal codec) (hfresh : s.Fresh e)
    (htimely : s.Timely e) (hstep : s.step codec e = some s') : s'.AcksFinal codec := by
  have hsound := h.sound.step hcodec hfresh hstep
  have hkeeps : ∀ id ∈ s.history.acked, id ∉ s'.held := fun id hid =>
    h.sound.not_held hfresh hstep (h.sent id hid) (h.gone id hid)
  have hsent : ∀ id ∈ s.history.sent, id ∈ s'.history.sent := fun id hid => by
    rw [sent_step hstep]
    exact List.mem_append.mpr (.inr hid)
  have hstep' := hstep
  obtain ⟨op, router, rfl, hop, rfl⟩ | ⟨now, sentAt, rfl, rfl⟩ | ⟨i, now, msg, rfl, hmsg, rfl⟩ :=
    step_cases hstep
  · -- a packet that this operation acknowledges
    have hnew : ∀ id ∈ s.history.ackedBy op, ∃ hops now, op = .ack id hops now ∧
        id ∈ s.history.sent := by
      intro id hid
      cases op with
      | ack m hops now =>
          simp only [History.ackedBy] at hid
          split at hid
          · next hm =>
            obtain rfl := List.mem_singleton.mp hid
            exact ⟨hops, now, rfl, hm⟩
          · cases hid
      | send | nak | timeouts | maintenance | nodeCameOnline => cases hid
    refine ⟨hsound, fun id hid => ?_, fun id hid => ?_, fun id hid record hrecord => ?_⟩
    all_goals rcases List.mem_append.mp hid with hid | hid
    · obtain ⟨hops, now, rfl, hm⟩ := hnew id hid
      exact hsent id hm
    · exact hsent id (h.sent id hid)
    · obtain ⟨hops, now, rfl, hm⟩ := hnew id hid
      exact h.sound.not_held_of_ack hstep' (htimely.1 id (List.mem_singleton_self _))
    · exact hkeeps id hid
    · obtain ⟨hops, now, rfl, hm⟩ := hnew id hid
      obtain rfl := Option.some.inj hop
      exact DeliveryTracker.isAcknowledged_of_markAcknowledged hrecord
    · refine MeshRouter.acknowledged_perform hop (fun haccepted => ?_)
        (not_inflight (h.gone id hid))
        (fun reason heq old hold => ?_) (h.record id hid) hrecord
      · exact (accepted_fresh (e := .op op) hfresh haccepted).2 (h.sent id hid)
      · subst heq
        exact htimely.2 id (List.mem_singleton_self _) old hold
  · refine ⟨hsound, fun id hid => hsent id (h.sent id hid), hkeeps, fun id hid record hrecord => ?_⟩
    simp only [MeshRouter.nextToSend_eq] at hrecord
    cases hmsg : (s.router.outbound.nextToSend now).1 with
    | none =>
        rw [hmsg] at hrecord
        exact h.record id hid record hrecord
    | some msg =>
        have hne : id ≠ msg.id := fun heq => h.gone id hid (heq ▸ mem_held_of_nextToSend hmsg)
        simp only [hmsg, Option.elim, DeliveryTracker.lookup_markSent, if_neg hne] at hrecord
        exact h.record id hid record hrecord
  · exact ⟨hsound, fun id hid => hsent id (h.sent id hid), hkeeps, h.record⟩

/-- **Acknowledgement is final** in every run of timely events over packets with distinct
ids: `next_to_send` does not return an acknowledged packet, and the packet's record is
acknowledged or pruned. -/
theorem ack_final (codec : PacketCodec) (hcodec : codec.KeepsId) (config : OutboundConfig)
    (maxQueuePerDest : Nat) (events : List Event) (s : System)
    (hmeets : Machine.Meets (step codec) (fun s e => s.Fresh e ∧ s.Timely e)
      (start config maxQueuePerDest) events)
    (hrun : Machine.run (step codec) (start config maxQueuePerDest) events = some s) :
    ∀ id ∈ s.history.acked,
      (∀ now sentAt msg, (s.router.nextToSend now sentAt).1 = some msg → msg.id ≠ id) ∧
        match s.router.delivery.deliveryStatus id with
        | some status => status.isAcknowledged
        | none => id ∈ s.history.pruned := by
  have hfinal : s.AcksFinal codec :=
    Machine.run_invariant (fun s e s' h hp hstep => h.step hcodec hp.1 hp.2 hstep)
      (acksFinal_start codec config maxQueuePerDest) hmeets hrun
  intro id hid
  constructor
  · intro now sentAt msg hmsg heq
    rw [MeshRouter.nextToSend_eq] at hmsg
    exact hfinal.gone id hid (heq ▸ mem_held_of_nextToSend hmsg)
  · rw [DeliveryTracker.deliveryStatus]
    cases hrecord : s.router.delivery.records.lookup id with
    | none =>
        refine (hfinal.sound.tracked id (hfinal.sent id hid)).resolve_left ?_
        rw [hrecord]
        exact Bool.false_ne_true
    | some record => exact hfinal.record id hid record hrecord

/-- The flush task takes a packet at one second and transmits it; the ACK arrives before
the packet is tracked, and the next flush is at forty seconds. -/
def ackBeforeTrack : List Event :=
  [.op (.send (samplePacket 1) true {} 0 0 0),
    .op (.timeouts (fromSecs 1) []),
    .op (.maintenance (fromSecs 1) (fromSecs 1) 1000 (fromSecs 1)),
    .nextToSend (fromSecs 1) (fromSecs 1), .nextToSend (fromSecs 1) (fromSecs 1),
    .op (.ack 1 none (fromSecs 2)), .trackSent 0 (fromSecs 3),
    .op (.timeouts (fromSecs 40) [1]),
    .op (.maintenance (fromSecs 40) (fromSecs 40) 40000 (fromSecs 40))]

/-- The acknowledged packet times out, is handed out again, and its record says sent. -/
theorem acked_packet_sent_again :
    Machine.Meets (step sampleCodec) Fresh (start {} 50) ackBeforeTrack ∧
      (Machine.run (step sampleCodec) (start {} 50) ackBeforeTrack).map (fun s =>
          let (msg, router) := s.router.nextToSend (fromSecs 40) (fromSecs 40)
          (s.history.acked, msg.map PendingMessage.id, router.delivery.deliveryStatus 1)) =
        some ([1], some 1, some (.sent (fromSecs 40))) := by
  decide +kernel

/-- A packet is acknowledged in flight, twice. -/
def ackInFlight : List Event :=
  [.op (.send (samplePacket 1) true {} 0 0 0), .nextToSend 1 1, .trackSent 0 2,
    .op (.ack 1 none 3), .op (.ack 1 none 4), .op (.timeouts (fromSecs 40) [])]

/-- It is done with. -/
theorem ack_in_flight_final :
    ∃ s, Machine.run (step sampleCodec) (start {} 50) ackInFlight = some s ∧
      ∀ now sentAt msg, (s.router.nextToSend now sentAt).1 = some msg → msg.id ≠ 1 := by
  have hacked : (Machine.run (step sampleCodec) (start {} 50) ackInFlight).map
      (fun s => s.history.acked) = some [1, 1] := by decide +kernel
  obtain ⟨s, hs, hlist⟩ := Option.map_eq_some_iff.mp hacked
  have hmem : 1 ∈ s.history.acked := hlist ▸ List.mem_cons_self
  exact ⟨s, hs, (ack_final sampleCodec sampleCodec_keepsId {} 50 _ s (by decide +kernel) hs
    1 hmem).1⟩

end System

end Akroasis.Mesh
