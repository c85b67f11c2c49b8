import Akroasis.Mesh.System

/-!
# Akroasis.Mesh.Lifetime

How long does a message live?  `next_to_send` drops what is older than its TTL, counted
from `created`.  `send` sets `created`, and `track_inflight` and `retry` carry it over; but
`node_came_online` sets it to the time of the release, so a parked message starts its TTL
anew.

`TimedSystem` is the system under one clock that does not go back, with the sends that
returned `Ok` on record.  `ttl_respected` says that a message is returned before the TTL
counted from its send has passed, in every run of `Prompt` releases: those that take no
time after the send.
-/

namespace Akroasis.Mesh

namespace OutboundQueue

variable {q q' : OutboundQueue} {m : PendingMessage}

theorem mem_pending_enqueue {msg : PendingMessage} (h : q.enqueue msg = .ok q')
    (hm : m ∈ q'.pending) : m = msg ∨ m ∈ q.pending := by
  obtain ⟨-, pending, hperm, rfl⟩ := enqueue_eq_ok h
  exact List.mem_cons.mp (hperm.mem_iff.mp hm)

theorem mem_pending_retry {id : UInt32} (hm : m ∈ (q.retry id).2.pending) :
    m ∈ q.pending ∨ ∃ msg, q.inflight.lookup id = some msg ∧ m = msg.requeued := by
  obtain ⟨-, hretry⟩ | ⟨msg, hmsg, hretry | ⟨q', -, henq, hretry⟩⟩ := retry_cases q id
  · rw [hretry] at hm
    exact .inl hm
  · rw [hretry] at hm
    exact .inl hm
  · rw [hretry] at hm
    rcases mem_pending_enqueue henq hm with rfl | hm
    · exact .inr ⟨msg, hmsg, rfl⟩
    · exact .inl hm

/-- `next_to_send` returns a pending message that has not expired. -/
theorem nextToSend_eq_some {now : Instant} (h : (q.nextToSend now).1 = some m) :
    m ∈ q.pending ∧ now < m.created + m.ttl := by
  unfold nextToSend at h
  split at h
  · cases h
  · split at h
    · cases h
    · next front rest hrest =>
      obtain rfl := Option.some.inj h
      have hmem : front ∈ q.pending.dropWhile (PendingMessage.isExpired now) :=
        hrest ▸ List.mem_cons_self
      refine ⟨(List.dropWhile_sublist _).mem hmem, ?_⟩
      have hlive := List.head?_dropWhile_not (PendingMessage.isExpired now) q.pending
      rw [hrest] at hlive
      have hage : ¬ front.ttl ≤ now - front.created := by
        simpa [PendingMessage.isExpired] using hlive
      exact lt_add_of_tsub_lt_left (not_le.mp hage)

theorem mem_pending_nextToSend {now : Instant} (hm : m ∈ (q.nextToSend now).2.pending) :
    m ∈ q.pending := by
  unfold nextToSend at hm
  split at hm
  · exact hm
  · split at hm
    · cases hm
    · next front rest hrest =>
      refine (List.dropWhile_sublist (PendingMessage.isExpired now)).mem ?_
      rw [hrest]
      exact List.mem_cons_of_mem _ hm

end OutboundQueue

namespace MeshRouter

variable {codec : PacketCodec} {r r' : MeshRouter} {m : PendingMessage}

/-- What the release loop queues was queued before or is one of the stored messages. -/
theorem mem_pending_forward {msgs : List StoredMessage} {clock : Nat → Instant} {q : OutboundQueue}
    (hm : m ∈ (forward codec msgs clock q).pending) :
    m ∈ q.pending ∨ ∃ msg ∈ msgs, ∃ packet, ∃ i < msgs.length,
      codec.decode msg.packetBytes = some packet ∧ m = msg.toPending packet (clock i) := by
  induction msgs generalizing clock q with
  | nil => exact .inl hm
  | cons msg rest ih =>
      have hlater : ∀ {clock' : Nat → Instant} (k : Nat), k ≤ 1 → (∀ i, clock' i = clock (i + k)) →
          (∃ msg' ∈ rest, ∃ packet, ∃ i < rest.length,
            codec.decode msg'.packetBytes = some packet ∧ m = msg'.toPending packet (clock' i)) →
          ∃ msg' ∈ msg :: rest, ∃ packet, ∃ i < (msg :: rest).length,
            codec.decode msg'.packetBytes = some packet ∧ m = msg'.toPending packet (clock i) := by
        rintro clock' k hk hclock ⟨msg', hmem, packet, i, hi, hdecode, rfl⟩
        refine ⟨msg', List.mem_cons_of_mem _ hmem, packet, i + k, ?_, hdecode, by rw [hclock]⟩
        rw [List.length_cons]
        omega
      rw [forward] at hm
      split at hm
      · exact (ih hm).imp_right (hlater 0 (Nat.zero_le 1) fun _ => rfl)
      · next packet hdecode =>
        split at hm
        · exact .inl hm
        · next q' henq =>
          rcases ih hm with hm | hm
          · rcases OutboundQueue.mem_pending_enqueue henq hm with rfl | hm
            · exact .inr ⟨msg, List.mem_cons_self, packet, 0, Nat.succ_pos _, hdecode, rfl⟩
            · exact .inl hm
          · exact .inr (hlater 1 le_rfl (fun _ => rfl) hm)

/-- What waits after the timeout loop waited before or was in flight. -/
theorem mem_pending_foldl_timeoutStep {order : List UInt32} {acc : List UInt32 × MeshRouter}
    (hm : m ∈ (order.foldl timeoutStep acc).2.outbound.pending) :
    m ∈ acc.2.outbound.pending ∨
      ∃ id msg, acc.2.outbound.inflight.lookup id = some msg ∧ m = msg.requeued := by
  induction order generalizing acc with
  | nil => exact .inl hm
  | cons id order ih =>
      rw [List.foldl_cons] at hm
      rcases ih hm with hm | ⟨id', msg, hmsg, rfl⟩
      · rw [timeoutStep_eq] at hm
        exact (OutboundQueue.mem_pending_retry hm).imp_right fun ⟨msg, h⟩ => ⟨id, msg, h⟩
      · rw [timeoutStep_eq] at hmsg
        exact .inr ⟨id', msg, (OutboundQueue.within_retry _ id).lookup id' msg hmsg, rfl⟩

/-- The stored messages that `node_came_online` moves. -/
def moved (r : MeshRouter) (dest : UInt32) : List StoredMessage :=
  (r.storeForward.queue dest).take r.outbound.remainingCapacity

/-- **Where a pending message comes from**: it was pending, it was in flight, it was just
sent, or it was parked. -/
theorem mem_pending_perform {op : RouterOp} (h : r.perform codec op = some r')
    (hm : m ∈ r'.outbound.pending) :
    m ∈ r.outbound.pending ∨
      (∃ id msg, r.outbound.inflight.lookup id = some msg ∧ m = msg.requeued) ∨
      (∃ packet options now nowMs trackedAt, op = .send packet true options now nowMs trackedAt ∧
        (r.send codec packet true options now nowMs trackedAt).1 = .ok packet.id ∧
        m = toPending packet options now) ∨
      ∃ dest clock, op = .nodeCameOnline dest clock ∧ ∃ msg ∈ r.moved dest, ∃ packet,
        ∃ i < (r.moved dest).length, codec.decode msg.packetBytes = some packet ∧
          m = msg.toPending packet (clock i) := by
  cases op with
  | send packet reachable options now nowMs trackedAt =>
      obtain rfl := Option.some.inj h
      obtain ⟨outbound, rfl, henq, hres⟩ | ⟨e, -, hres⟩ | ⟨stored, -, -, hres⟩ |
        ⟨e, stored, -, -, hres⟩ :=
          send_cases codec r packet reachable options now nowMs trackedAt <;> rw [hres] at hm
      · rcases OutboundQueue.mem_pending_enqueue henq hm with rfl | hm
        · exact .inr (.inr (.inl ⟨packet, options, now, nowMs, trackedAt, rfl, by rw [hres], rfl⟩))
        · exact .inl hm
      all_goals exact .inl hm
  | ack id hops now =>
      obtain rfl := Option.some.inj h
      exact .inl hm
  | nak id reason =>
      obtain rfl := Option.some.inj h
      exact (OutboundQueue.mem_pending_retry hm).imp_right fun ⟨msg, h⟩ => .inl ⟨id, msg, h⟩
  | timeouts now order =>
      rw [perform, Option.ite_none_right_eq_some] at h
      obtain rfl := Option.some.inj h.2
      exact (mem_pending_foldl_timeoutStep hm).imp_right .inl
  | maintenance expireAt pruneAt nowMs drainAt =>
      obtain rfl := Option.some.inj h
      exact .inl (List.mem_of_mem_filter hm)
  | nodeCameOnline dest clock =>
      obtain rfl := Option.some.inj h
      exact (mem_pending_forward hm).imp_right fun h => .inr (.inr ⟨dest, clock, rfl, h⟩)

end MeshRouter

/-! ## The system under one clock -/

/-- A send that returned `Ok`. -/
structure AcceptedSend where
  id : UInt32
  ttlSecs : Nat
  returned : Instant
  deriving DecidableEq

/-- When the TTL of the message has passed. -/
def AcceptedSend.deadline (send : AcceptedSend) : Instant := send.returned + fromSecs send.ttlSecs

/-- The readings an event makes of the monotonic clock, in order. -/
def Event.readings (s : System) : Event → List Instant
  | .op (.send _ _ _ now _ trackedAt) => [now, trackedAt]
  | .op (.ack _ _ now) => [now]
  | .op (.nak ..) => []
  | .op (.timeouts now _) => [now]
  | .op (.maintenance expireAt pruneAt _ drainAt) => [expireAt, pruneAt, drainAt]
  | .op (.nodeCameOnline dest clock) => (List.range (s.router.moved dest).length).map clock
  | .nextToSend now sentAt => [now, sentAt]
  | .trackSent _ now => [now]

/-- The send of an event, if it returns `Ok`. -/
def Event.sent (codec : PacketCodec) (s : System) : Event → List AcceptedSend
  | .op (.send packet reachable options now nowMs trackedAt) =>
      if (s.router.send codec packet reachable options now nowMs trackedAt).1.isOk then
        [⟨packet.id, options.ttlSecs, trackedAt⟩]
      else []
  | .op (.ack ..) | .op (.nak ..) | .op (.timeouts ..) | .op (.maintenance ..)
  | .op (.nodeCameOnline ..) | .nextToSend .. | .trackSent .. => []

/-- The system, the time, and the sends that returned `Ok`. -/
structure TimedSystem where
  system : System
  clock : Instant := 0
  sends : List AcceptedSend := []

namespace TimedSystem

/-- A router just configured. -/
def start (config : OutboundConfig) (maxQueuePerDest : Nat) : TimedSystem where
  system := .start config maxQueuePerDest

/-- One event; the clock does not go back. -/
def step (codec : PacketCodec) (t : TimedSystem) (e : Event) : Option TimedSystem :=
  if (t.clock :: e.readings t.system).Pairwise (· ≤ ·) then
    (t.system.step codec e).map fun system =>
      { system := system
        clock := (e.readings t.system).getLastD t.clock
        sends := e.sent codec t.system ++ t.sends }
  else none

variable {codec : PacketCodec} {t t' : TimedSystem} {e : Event}

theorem step_eq_some (h : t.step codec e = some t') :
    (t.clock :: e.readings t.system).Pairwise (· ≤ ·) ∧
      t.system.step codec e = some t'.system ∧ t'.sends = e.sent codec t.system ++ t.sends := by
  rw [step, Option.ite_none_right_eq_some] at h
  obtain ⟨hclock, h⟩ := h
  obtain ⟨system, hsystem, rfl⟩ := Option.map_eq_some_iff.mp h
  exact ⟨hclock, hsystem, rfl⟩

/-- Some send of the packet had this TTL and returned no earlier than `created`. -/
def Backed (t : TimedSystem) (id : UInt32) (created : Instant) (ttl : Duration) : Prop :=
  ∃ send ∈ t.sends, send.id = id ∧ ttl = fromSecs send.ttlSecs ∧ created ≤ send.returned

/-- The clock of a release has not moved since the messages it moves were sent. -/
def Prompt (t : TimedSystem) : Event → Prop
  | .op (.nodeCameOnline dest clock) =>
      ∀ msg ∈ t.system.router.moved dest,
        ∀ now ∈ (List.range (t.system.router.moved dest).length).map clock, ∃ send ∈ t.sends,
        send.id = msg.packetId ∧ send.ttlSecs = msg.ttlSecs ∧ now ≤ send.returned
  | .op (.send ..) | .op (.ack ..) | .op (.nak ..) | .op (.timeouts ..) | .op (.maintenance ..)
  | .nextToSend .. | .trackSent .. => True

instance (t : TimedSystem) : ∀ e, Decidable (t.Prompt e)
  | .op (.nodeCameOnline dest clock) =>
      have (msg : StoredMessage) (now : Instant) : Decidable (∃ send ∈ t.sends,
          send.id = msg.packetId ∧ send.ttlSecs = msg.ttlSecs ∧ now ≤ send.returned) :=
        List.decidableBEx (fun send => send.id = msg.packetId ∧ send.ttlSecs = msg.ttlSecs ∧
          now ≤ send.returned) t.sends
      have (msg : StoredMessage) : Decidable (∀ now ∈
          (List.range (t.system.router.moved dest).length).map clock, ∃ send ∈ t.sends,
            send.id = msg.packetId ∧ send.ttlSecs = msg.ttlSecs ∧ now ≤ send.returned) :=
        List.decidableBAll _ _
      List.decidableBAll _ (t.system.router.moved dest)
  | .op (.send ..) | .op (.ack ..) | .op (.nak ..) | .op (.timeouts ..) | .op (.maintenance ..)
  | .nextToSend .. | .trackSent .. => inferInstanceAs (Decidable True)

/-- Every message in the queue, in flight or with a caller is backed by its send. -/
structure Lives (codec : PacketCodec) (t : TimedSystem) : Prop where
  wellFormed : t.system.router.WellFormed codec
  pending : ∀ m ∈ t.system.router.outbound.pending, t.Backed m.id m.created m.ttl
  inflight : ∀ id m, t.system.router.outbound.inflight.lookup id = some m →
    t.Backed m.packet.id m.created m.ttl
  handed : ∀ m ∈ t.system.handed, t.Backed m.id m.created m.ttl

theorem lives_start (codec : PacketCodec) (config : OutboundConfig) (maxQueuePerDest : Nat) :
    (start config maxQueuePerDest).Lives codec where
  wellFormed := MeshRouter.wellFormed_withConfig codec config maxQueuePerDest
  pending := fun _ h => nomatch h
  inflight := fun _ _ h => nomatch h
  handed := fun _ h => nomatch h

theorem Backed.step {id : UInt32} {created : Instant} {ttl : Duration} (h : t.Backed id created ttl)
    (hstep : t.step codec e = some t') : t'.Backed id created ttl := by
  obtain ⟨send, hsend, hbacked⟩ := h
  refine ⟨send, ?_, hbacked⟩
  rw [(step_eq_some hstep).2.2]
  exact List.mem_append_right _ hsend

/-- A message that an operation leaves pending is backed. -/
theorem Lives.pending_perform (h : t.Lives codec) {op : RouterOp} (hprompt : t.Prompt (.op op))
    (hstep : t.step codec (.op op) = some t') {router : MeshRouter}
    (hop : t.system.router.perform codec op = some router) {m : PendingMessage}
    (hm : m ∈ router.outbound.pending) : t'.Backed m.id m.created m.ttl := by
  obtain hm | ⟨id, msg, hmsg, rfl⟩ | ⟨packet, options, now, nowMs, trackedAt, rfl, hok, rfl⟩ |
    ⟨dest, clock, rfl, msg, hmsg, packet, i, hi, hdecode, rfl⟩ :=
      MeshRouter.mem_pending_perform hop hm
  · exact (h.pending m hm).step hstep
  · exact (h.inflight id msg hmsg).step hstep
  · obtain ⟨hclock, -, hsends⟩ := step_eq_some hstep
    refine ⟨⟨packet.id, options.ttlSecs, trackedAt⟩, ?_, rfl, rfl, ?_⟩
    · rw [hsends]
      refine List.mem_append_left _ ?_
      simp [Event.sent, hok, Except.isOk, Except.toBool]
    · have hreadings := (List.pairwise_cons.mp hclock).2
      exact (List.pairwise_cons.mp hreadings).1 trackedAt (List.mem_singleton_self _)
  · -- a parked message takes the time of its release
    have hnow : clock i ∈ (List.range (t.system.router.moved dest).length).map clock :=
      List.mem_map_of_mem (List.mem_range.mpr hi)
    obtain ⟨send, hsend, hid, httl, hle⟩ := hprompt msg hmsg (clock i) hnow
    obtain ⟨packet', hdecode', hkeep⟩ := h.wellFormed.decodes dest msg (List.mem_of_mem_take hmsg)
    obtain rfl := Option.some.inj (hdecode.symm.trans hdecode')
    exact Backed.step ⟨send, hsend, hid.trans hkeep.symm, by rw [httl]; rfl, hle⟩ hstep

/-- A prompt event keeps every message backed. -/
theorem Lives.step (hcodec : codec.KeepsId) (h : t.Lives codec) (hprompt : t.Prompt e)
    (hstep : t.step codec e = some t') : t'.Lives codec := by
  obtain ⟨-, hsystem, -⟩ := step_eq_some hstep
  have hwellFormed := System.wellFormed_step hcodec h.wellFormed hsystem
  obtain ⟨op, router, rfl, hop, hs⟩ | ⟨now, sentAt, rfl, hs⟩ | ⟨i, now, msg, rfl, hmsg, hs⟩ :=
    System.step_cases hsystem
  · refine ⟨hwellFormed, fun m hm => ?_, fun id m hm => ?_, fun m hm => ?_⟩ <;> rw [hs] at hm
    · exact h.pending_perform hprompt hstep hop hm
    · exact (h.inflight id m ((MeshRouter.within_perform hop).lookup id m hm)).step hstep
    · exact (h.handed m hm).step hstep
  · refine ⟨hwellFormed, fun m hm => ?_, fun id m hm => ?_, fun m hm => ?_⟩ <;>
      simp only [hs, MeshRouter.nextToSend_eq] at hm
    · exact (h.pending m (OutboundQueue.mem_pending_nextToSend hm)).step hstep
    · have hwithin := OutboundQueue.within_nextToSend t.system.router.outbound now
      exact (h.inflight id m (hwithin.lookup id m hm)).step hstep
    · rcases List.mem_append.mp hm with hm | hm
      · exact (h.handed m hm).step hstep
      · have hmem := (OutboundQueue.nextToSend_eq_some (Option.mem_toList.mp hm)).1
        exact (h.pending m hmem).step hstep
  · refine ⟨hwellFormed, fun m hm => ?_, fun id m hm => ?_, fun m hm => ?_⟩ <;> rw [hs] at hm
    · exact (h.pending m hm).step hstep
    · simp only [MeshRouter.trackSent, OutboundQueue.trackInflight, Table.lookup_insert_ite] at hm
      split at hm
      · obtain rfl := Option.some.inj hm
        exact (h.handed msg (List.mem_of_getElem? hmsg)).step hstep
      · exact (h.inflight id m hm).step hstep
    · exact (h.handed m (List.mem_of_mem_eraseIdx hm)).step hstep

/-- **The TTL is respected** in every run of prompt releases: a message is returned before
the TTL counted from its send has passed.  If no two sends used the same id, that is the
deadline of every send of the packet. -/
theorem ttl_respected (codec : PacketCodec) (hcodec : codec.KeepsId) (config : OutboundConfig)
    (maxQueuePerDest : Nat) (events : List Event) (t : TimedSystem)
    (hmeets : Machine.Meets (step codec) Prompt (start config maxQueuePerDest) events)
    (hrun : Machine.run (step codec) (start config maxQueuePerDest) events = some t)
    (now sentAt : Instant) (msg : PendingMessage)
    (hmsg : (t.system.router.nextToSend now sentAt).1 = some msg) :
    (∃ send ∈ t.sends, send.id = msg.id ∧ msg.ttl = fromSecs send.ttlSecs ∧ now < send.deadline) ∧
      ((t.sends.map AcceptedSend.id).Nodup → ∀ send ∈ t.sends, send.id = msg.id →
      now < send.deadline) := by
  have hlives : t.Lives codec :=
    Machine.run_invariant (fun t e t' h hp hstep => h.step hcodec hp hstep)
      (lives_start codec config maxQueuePerDest) hmeets hrun
  rw [MeshRouter.nextToSend_eq] at hmsg
  obtain ⟨hmem, hlt⟩ := OutboundQueue.nextToSend_eq_some hmsg
  obtain ⟨send, hsend, hid, httl, hcreated⟩ := hlives.pending msg hmem
  have hdeadline : now < send.deadline := by
    rw [httl] at hlt
    exact hlt.trans_le (Nat.add_le_add_right hcreated _)
  refine ⟨⟨send, hsend, hid, httl, hdeadline⟩, fun hnodup other hother hsame => ?_⟩
  obtain rfl := List.inj_on_of_nodup_map hnodup hother hsend (hsame.trans hid.symm)
  exact hdeadline

/-- A packet with a TTL of ten seconds is parked at once, and released after nine. -/
def lateRelease : List Event :=
  [.op (.send (samplePacket 1) false { ttlSecs := 10 } 0 0 0),
    .op (.maintenance (fromSecs 9) (fromSecs 9) 9000 (fromSecs 9)),
    .op (.nodeCameOnline 7 fun _ => fromSecs 9),
    .op (.maintenance (fromSecs 18) (fromSecs 18) 18000 (fromSecs 18))]

/-- It is handed out after eighteen seconds. -/
theorem released_message_outlives_ttl :
    (Machine.run (step sampleCodec) (start {} 50) lateRelease).map (fun t =>
        (t.sends,
          (t.system.router.nextToSend (fromSecs 18) (fromSecs 18)).1.map PendingMessage.id)) =
      some ([⟨1, 10, 0⟩], some 1) ∧
    (⟨1, 10, 0⟩ : AcceptedSend).deadline ≤ fromSecs 18 := by
  decide +kernel

/-- A packet is released the moment it was parked, sent, and retried after a timeout. -/
def promptRelease : List Event :=
  [.op (.send (samplePacket 1) false { ttlSecs := 60 } 5 0 5),
    .op (.nodeCameOnline 7 fun _ => 5),
    .nextToSend (fromSecs 1) (fromSecs 1), .trackSent 0 (fromSecs 1),
    .op (.timeouts (fromSecs 40) [1])]

/-- It is handed out again before its deadline. -/
theorem ttl_respected_after_retry :
    ∃ t, Machine.run (step sampleCodec) (start {} 50) promptRelease = some t ∧
      ∃ msg, (t.system.router.nextToSend (fromSecs 41) (fromSecs 41)).1 = some msg ∧
        ∃ send ∈ t.sends, send.id = msg.id ∧ fromSecs 41 < send.deadline := by
  have hreturned : (Machine.run (step sampleCodec) (start {} 50) promptRelease).map (fun t =>
      (t.system.router.nextToSend (fromSecs 41) (fromSecs 41)).1.isSome) = some true := by
    decide +kernel
  obtain ⟨t, ht, hsome⟩ := Option.map_eq_some_iff.mp hreturned
  obtain ⟨msg, hmsg⟩ := Option.isSome_iff_exists.mp hsome
  obtain ⟨send, hsend, hid, -, hlt⟩ := (ttl_respected sampleCodec sampleCodec_keepsId {} 50
    promptRelease t (by decide +kernel) ht (fromSecs 41) (fromSecs 41) msg hmsg).1
  exact ⟨t, ht, msg, hmsg, send, hsend, hid, hlt⟩

end TimedSystem

end Akroasis.Mesh
