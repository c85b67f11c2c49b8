import Akroasis.Mesh.System

/-!
# Akroasis.Mesh.Conservation

Where an accepted message can be.  Every path of the router keeps it, settles its delivery
record, or lets it go for one of two reasons: its TTL has passed, or a message of higher
priority displaced it from a full store-and-forward queue.  In these two cases the record
stays active until `expire_stale` finds it, so being held and being settled are not the
only alternatives; `message_conserved` lists all of them.
-/

namespace Akroasis.Mesh

namespace System

variable {codec : PacketCodec} {s s' : System} {e : Event} {id : UInt32} {op : RouterOp}
  {router : MeshRouter}

/-- The message is held, its record is or was in a terminal state, or it was let go. -/
inductive Conserved (s : System) (id : UInt32) : Prop where
  | held (h : s.held.count id = 1)
  | settled (h : s.router.Settled id)
  | pruned (h : id ∈ s.history.pruned)
  | expired (h : id ∈ s.history.expired)
  | evicted (h : id ∈ s.history.evicted)

/-- In a sound system nothing is held twice. -/
theorem Sound.conserved_of_mem (h : s.Sound codec) (hid : id ∈ s.held) : s.Conserved id :=
  .held (Multiset.count_eq_one_of_mem h.nodup hid)

/-- What an event takes in or finds held is held afterwards, or the event let it go. -/
theorem Sound.conserved_or_removed (h : s.Sound codec) (h' : s'.Sound codec)
    (hstep : s.step codec e = some s') (hid : id ∈ s.held ∨ id ∈ s.accepted codec e) :
    s'.Conserved id ∨ id ∈ s.removed codec e := by
  have hmem : id ∈ s.held + (s.accepted codec e : Multiset UInt32) :=
    Multiset.mem_add.mpr (hid.imp_right Multiset.mem_coe.mpr)
  rw [← h.held_step hstep] at hmem
  exact (Multiset.mem_add.mp hmem).imp h'.conserved_of_mem Multiset.mem_coe.mp

theorem step_op (hop : s.router.perform codec op = some router) :
    s.step codec (.op op) =
      some { s with router := router, history := s.history.after codec s.router op } := by
  rw [System.step, hop]
  rfl

/-- An operation accounts for what it removes. -/
theorem conserved_of_removed
    (hop : s.router.perform codec op = some router)
    (htracked : (s.router.delivery.records.lookup id).isSome ∨ id ∈ s.history.pruned)
    (hid : id ∈ s.router.removed codec op) :
    Conserved { s with router := router, history := s.history.after codec s.router op } id := by
  rcases List.mem_append.mp hid with hid | hid
  · rcases List.mem_append.mp hid with hid | hid
    · exact .evicted (List.mem_append.mpr (.inl hid))
    · exact .expired (List.mem_append.mpr (.inl hid))
  · rcases htracked with hsome | hpruned
    · exact .settled (MeshRouter.settled_of_settledBy hop hid hsome)
    · exact .pruned (List.mem_append.mpr (.inr hpruned))

/-- An operation accounts for the packet it accepts. -/
theorem conserved_of_accepted (h : s.Sound codec)
    (h' : Sound codec { s with router := router, history := s.history.after codec s.router op })
    (hop : s.router.perform codec op = some router) (hid : id ∈ s.router.accepted codec op) :
    Conserved { s with router := router, history := s.history.after codec s.router op } id := by
  rcases h.conserved_or_removed h' (step_op hop) (.inr hid) with hconserved | hremoved
  · exact hconserved
  · cases op with
    | send packet reachable options now nowMs trackedAt =>
        refine .evicted (List.mem_append.mpr (.inl ?_))
        simpa [removed, MeshRouter.removed, MeshRouter.expiredBy,
          MeshRouter.settledBy] using hremoved
    | ack | nak | timeouts | maintenance | nodeCameOnline => cases hid

/-- An operation accounts for every message that was accounted for. -/
theorem Conserved.perform (hc : s.Conserved id)
    (h : s.Sound codec)
    (h' : Sound codec { s with router := router, history := s.history.after codec s.router op })
    (hsent : id ∈ s.history.sent) (hnew : id ∉ s.router.accepted codec op)
    (hop : s.router.perform codec op = some router) :
    Conserved { s with router := router, history := s.history.after codec s.router op } id := by
  cases hc with
  | held hcount =>
      have hmem : id ∈ s.held := Multiset.count_pos.mp (by omega)
      rcases h.conserved_or_removed h' (step_op hop) (.inl hmem) with hconserved | hremoved
      · exact hconserved
      · exact conserved_of_removed hop (h.tracked id hsent) hremoved
  | settled hsettled =>
      rcases MeshRouter.settled_perform hop hnew hsettled with hsettled | hpruned
      · exact .settled hsettled
      · exact .pruned (List.mem_append.mpr (.inl hpruned))
  | pruned hid => exact .pruned (List.mem_append.mpr (.inr hid))
  | expired hid => exact .expired (List.mem_append.mpr (.inr hid))
  | evicted hid => exact .evicted (List.mem_append.mpr (.inr hid))

/-- So does handing out a message: a settled record is marked as sent only for the message
handed out. -/
theorem Conserved.nextToSend {now sentAt : Instant} (hc : s.Conserved id) (h : s.Sound codec)
    (h' : s'.Sound codec) (hstep : s.step codec (.nextToSend now sentAt) = some s') :
    s'.Conserved id := by
  have hs' := Option.some.inj hstep
  cases hc with
  | held hcount =>
      have hmem : id ∈ s.held := Multiset.count_pos.mp (by omega)
      rcases h.conserved_or_removed h' hstep (.inl hmem) with hconserved | hremoved
      · exact hconserved
      · rw [← hs']
        exact .expired (List.mem_append.mpr (.inl hremoved))
  | settled hsettled =>
      obtain ⟨record, hrecord, hinactive⟩ := hsettled
      cases hmsg : (s.router.outbound.nextToSend now).1 with
      | none =>
          refine .settled ⟨record, ?_, hinactive⟩
          rw [← hs']
          simpa only [MeshRouter.nextToSend_eq, hmsg, Option.elim] using hrecord
      | some msg =>
          by_cases hid : id = msg.id
          · refine h'.conserved_of_mem ?_
            rw [← hs', hid]
            simp only [System.held, MeshRouter.nextToSend_eq, hmsg]
            simp
          · refine .settled ⟨record, ?_, hinactive⟩
            rw [← hs']
            simpa only [MeshRouter.nextToSend_eq, hmsg, Option.elim,
              DeliveryTracker.lookup_markSent, if_neg hid] using hrecord
  | pruned hid => exact .pruned (hs' ▸ hid)
  | expired hid => exact .expired (hs' ▸ List.mem_append.mpr (.inr hid))
  | evicted hid => exact .evicted (hs' ▸ hid)

/-- The invariant of runs over packets with distinct ids. -/
structure Conserves (codec : PacketCodec) (s : System) : Prop where
  sound : s.Sound codec
  conserved : ∀ id ∈ s.history.sent, s.Conserved id

theorem Conserves.step (hcodec : codec.KeepsId) (h : s.Conserves codec) (hfresh : s.Fresh e)
    (hstep : s.step codec e = some s') : s'.Conserves codec := by
  have hsound := h.sound.step hcodec hfresh hstep
  refine ⟨hsound, fun id hid => ?_⟩
  have hstep' := hstep
  obtain ⟨op, router, rfl, hop, rfl⟩ | ⟨now, sentAt, rfl, rfl⟩ | ⟨i, now, msg, rfl, hmsg, rfl⟩ :=
    step_cases hstep
  · rcases List.mem_append.mp hid with haccepted | hid
    · exact conserved_of_accepted h.sound hsound hop haccepted
    · refine (h.conserved id hid).perform h.sound hsound hid (fun haccepted => ?_) hop
      exact (accepted_fresh (e := .op op) hfresh haccepted).2 hid
  · exact (h.conserved id hid).nextToSend h.sound hsound hstep'
  · cases h.conserved id hid with
    | held hcount =>
        have hmem : id ∈ s.held := Multiset.count_pos.mp (by omega)
        rcases h.sound.conserved_or_removed hsound hstep' (.inl hmem) with hconserved | hremoved
        · exact hconserved
        · cases hremoved
    | settled hsettled => exact .settled hsettled
    | pruned hid => exact .pruned hid
    | expired hid => exact .expired hid
    | evicted hid => exact .evicted hid

/-- **Message conservation.**  In every run over packets with distinct ids, each accepted
message is held exactly once, or its record is or was in a terminal state, or it was
dropped when its TTL had passed, or displaced in store-and-forward. -/
theorem message_conserved (codec : PacketCodec) (hcodec : codec.KeepsId) (config : OutboundConfig)
    (maxQueuePerDest : Nat) (events : List Event) (s : System)
    (hfresh : Machine.Meets (step codec) Fresh (start config maxQueuePerDest) events)
    (hrun : Machine.run (step codec) (start config maxQueuePerDest) events = some s) :
    ∀ id ∈ s.history.sent, s.Conserved id := by
  have hconserves : s.Conserves codec :=
    Machine.run_invariant (fun s e s' h hp hstep => h.step hcodec hp hstep)
      ⟨sound_start codec config maxQueuePerDest, fun _ h => nomatch h⟩ hfresh hrun
  exact hconserves.conserved

/-- A packet is stored for an unreachable node, and maintenance runs an hour later. -/
def storedTooLong : List Event :=
  [.op (.send (samplePacket 1) false {} 0 0 0),
    .op (.maintenance (fromSecs 3600) (fromSecs 3600) 3600000 (fromSecs 3600))]

/-- Two packets are stored for an unreachable node, the second with a higher priority. -/
def storedTwice : List Event :=
  [.op (.send (samplePacket 1) false { priority := .background } 0 0 0),
    .op (.send (samplePacket 2) false { priority := .reliable } 0 0 0)]

/-- One packet id is sent twice. -/
def sentTwice : List Event :=
  [.op (.send (samplePacket 1) true {} 0 0 0), .op (.send (samplePacket 1) true {} 0 0 0)]

/-- What the run makes of packet 1: what was sent, how often the packet is held, its record, and
what was pruned. -/
def fate (maxQueuePerDest : Nat) (events : List Event) :
    Option (List UInt32 × Nat × Option DeliveryStatus × List UInt32) :=
  (Machine.run (step sampleCodec) (start {} maxQueuePerDest) events).map fun s =>
    (s.history.sent, s.held.count 1, s.router.delivery.deliveryStatus 1, s.history.pruned)

/-- Either way the first packet is gone, and its record says that it is queued; the packet that is
sent twice is held twice. -/
theorem dropped_while_queued :
    (Machine.Meets (step sampleCodec) Fresh (start {} 50) storedTooLong ∧
      fate 50 storedTooLong = some ([1], 0, some .queued, [])) ∧
    (Machine.Meets (step sampleCodec) Fresh (start {} 1) storedTwice ∧
      fate 1 storedTwice = some ([2, 1], 0, some .queued, [])) ∧
    ¬ Machine.Meets (step sampleCodec) Fresh (start {} 50) sentTwice ∧
      fate 50 sentTwice = some ([1, 1], 2, some .queued, []) := by
  refine ⟨⟨?_, ?_⟩, ⟨?_, ?_⟩, ?_, ?_⟩ <;> decide +kernel

/-- A node comes online: of the two packets for it, one is in flight and one pending. -/
theorem message_conserved_online :
    ∃ s, Machine.run (step sampleCodec) (start {} 50)
        [.op (.send (samplePacket 1) true {} 0 0 0), .op (.send (samplePacket 2) false {} 0 0 0),
          .nextToSend 1 1, .trackSent 0 2, .op (.nodeCameOnline 7 fun _ => 3)] = some s ∧
      ∀ id ∈ s.history.sent, s.Conserved id := by
  obtain ⟨s, hs⟩ := Option.isSome_iff_exists.mp (by decide +kernel :
    (Machine.run (step sampleCodec) (start {} 50)
      [.op (.send (samplePacket 1) true {} 0 0 0), .op (.send (samplePacket 2) false {} 0 0 0),
        .nextToSend 1 1, .trackSent 0 2, .op (.nodeCameOnline 7 fun _ => 3)]).isSome)
  exact ⟨s, hs, message_conserved sampleCodec sampleCodec_keepsId {} 50 _ s (by decide +kernel) hs⟩

end System

end Akroasis.Mesh
