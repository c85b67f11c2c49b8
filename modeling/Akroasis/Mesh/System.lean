import Akroasis.Machine
import Akroasis.Mesh.Records

/-!
# Akroasis.Mesh.System

The router and its callers, as a machine.  A message that `next_to_send` has handed out
is with its caller until `track_sent`; in between the lock is free and any other event
can happen.

`History` remembers what no structure of the router does: which packets were accepted,
acknowledged, pruned, dropped or displaced.  Nothing in `step` depends on it.

`held` are the ids of all messages in the system.  In a system whose packets have
distinct ids (`Fresh`) no id is held twice, none is held that was not accepted, and every
accepted packet has a record until that is pruned (`Sound`).
-/

namespace Akroasis.Mesh

/-- What has happened to packets so far. -/
structure History where
  -- `send` returned `Ok`
  sent : List UInt32 := []
  -- an ACK was applied after that
  acked : List UInt32 := []
  -- a settled delivery record was pruned
  pruned : List UInt32 := []
  -- dropped because its TTL had passed
  expired : List UInt32 := []
  -- displaced in store-and-forward by a message of higher priority
  evicted : List UInt32 := []

/-- The router, and the messages its callers have taken but not tracked. -/
structure System where
  router : MeshRouter
  handed : List PendingMessage := []
  history : History := {}

/-- What can happen under one hold of the router's lock. -/
inductive Event where
  | op (op : RouterOp)
  | nextToSend (now sentAt : Instant)
  | trackSent (i : Nat) (now : Instant)

namespace History

/-- The accepted packet an operation acknowledges. -/
def ackedBy (h : History) : RouterOp → List UInt32
  | .ack id _ _ => if id ∈ h.sent then [id] else []
  | .send .. | .nak .. | .timeouts .. | .maintenance .. | .nodeCameOnline .. => []

/-- The history after an operation on the router `r`. -/
def after (codec : PacketCodec) (r : MeshRouter) (h : History) (op : RouterOp) : History where
  sent := r.accepted codec op ++ h.sent
  acked := h.ackedBy op ++ h.acked
  pruned := r.prunedBy op ++ h.pruned
  expired := r.expiredBy op ++ h.expired
  evicted := r.evictedBy codec op ++ h.evicted

end History

namespace System

/-- A router just configured. -/
def start (config : OutboundConfig) (maxQueuePerDest : Nat) : System where
  router := .withConfig config maxQueuePerDest

/-- One event; `none` if it cannot happen. -/
def step (codec : PacketCodec) (s : System) : Event → Option System
  | .op op => (s.router.perform codec op).map fun router =>
      { s with router := router, history := s.history.after codec s.router op }
  | .nextToSend now sentAt =>
      some {
        router := (s.router.nextToSend now sentAt).2
        handed := s.handed ++ (s.router.nextToSend now sentAt).1.toList
        history :=
          { s.history with expired := s.router.outbound.skipped now ++ s.history.expired } }
  | .trackSent i now => s.handed[i]?.map fun msg =>
      { s with router := s.router.trackSent msg now, handed := s.handed.eraseIdx i }

/-- What an event can do, by its kind. -/
theorem step_cases {codec : PacketCodec} {s s' : System} {e : Event}
    (h : s.step codec e = some s') :
    (∃ op router, e = .op op ∧ s.router.perform codec op = some router ∧
      s' = { s with router := router, history := s.history.after codec s.router op }) ∨
    (∃ now sentAt, e = .nextToSend now sentAt ∧
      s' = {
        router := (s.router.nextToSend now sentAt).2
        handed := s.handed ++ (s.router.outbound.nextToSend now).1.toList
        history :=
          { s.history with expired := s.router.outbound.skipped now ++ s.history.expired } }) ∨
    ∃ i now msg, e = .trackSent i now ∧ s.handed[i]? = some msg ∧
      s' = { s with router := s.router.trackSent msg now, handed := s.handed.eraseIdx i } := by
  cases e with
  | op op =>
      obtain ⟨router, hperform, rfl⟩ := Option.map_eq_some_iff.mp h
      exact .inl ⟨op, router, rfl, hperform, rfl⟩
  | nextToSend now sentAt =>
      obtain rfl := Option.some.inj h
      refine .inr (.inl ⟨now, sentAt, rfl, ?_⟩)
      rw [MeshRouter.nextToSend_eq]
  | trackSent i now =>
      obtain ⟨msg, hmsg, rfl⟩ := Option.map_eq_some_iff.mp h
      exact .inr (.inr ⟨i, now, msg, rfl, hmsg, rfl⟩)

end System

/-! ## Distinct ids -/

/-- The packet an event offers to the router. -/
def Event.offered : Event → List UInt32
  | .op (.send packet ..) => [packet.id]
  | .op _ | .nextToSend .. | .trackSent .. => []

/-- The packet offered has an id that no accepted packet has. -/
def System.Fresh (s : System) (e : Event) : Prop := ∀ id ∈ e.offered, id ∉ s.history.sent

instance (s : System) (e : Event) : Decidable (s.Fresh e) :=
  List.decidableBAll (fun id => id ∉ s.history.sent) e.offered

theorem MeshRouter.accepted_offered {codec : PacketCodec} {r : MeshRouter} {op : RouterOp}
    {id : UInt32} (h : id ∈ r.accepted codec op) :
    r.accepted codec op = [id] ∧ id ∈ (Event.op op).offered := by
  cases op with
  | send packet reachable options now nowMs trackedAt =>
      simp only [MeshRouter.accepted] at h ⊢
      split at h
      · next hok =>
        obtain rfl := List.mem_singleton.mp h
        exact ⟨if_pos hok, List.mem_singleton_self _⟩
      · cases h
  | ack | nak | timeouts | maintenance | nodeCameOnline => cases h

/-! ## The ids a system holds -/

namespace System

variable {codec : PacketCodec} {s s' : System} {e : Event}

/-- The ids of all messages in the queues and with the callers. -/
def held (s : System) : Multiset UInt32 :=
  s.router.ids + (s.handed.map PendingMessage.id : List UInt32)

/-- The id an event takes in. -/
def accepted (codec : PacketCodec) (s : System) : Event → List UInt32
  | .op op => s.router.accepted codec op
  | .nextToSend .. | .trackSent .. => []

/-- The ids an event lets go of. -/
def removed (codec : PacketCodec) (s : System) : Event → List UInt32
  | .op op => s.router.removed codec op
  | .nextToSend now _ => s.router.outbound.skipped now
  | .trackSent .. => []

/-- What holds of every system whose packets have distinct ids. -/
structure Sound (codec : PacketCodec) (s : System) : Prop where
  wellFormed : s.router.WellFormed codec
  nodup : s.held.Nodup
  known : ∀ id ∈ s.held, id ∈ s.history.sent
  tracked : ∀ id ∈ s.history.sent,
    (s.router.delivery.records.lookup id).isSome ∨ id ∈ s.history.pruned

/-- A message with a caller is not in flight. -/
theorem Sound.lookup_handed (h : s.Sound codec) {msg : PendingMessage} (hmsg : msg ∈ s.handed) :
    s.router.outbound.inflight.lookup msg.id = none := by
  obtain ⟨-, -, hdisjoint⟩ := Multiset.nodup_add.mp h.nodup
  refine Option.eq_none_iff_forall_ne_some.mpr fun m hm => ?_
  refine Multiset.disjoint_left.mp hdisjoint (?_ : msg.id ∈ s.router.ids) ?_
  · refine Multiset.mem_add.mpr (.inl (Multiset.mem_add.mpr (.inr ?_)))
    exact Multiset.mem_coe.mpr ((Table.mem_keys_iff _ _).mpr ⟨m, hm⟩)
  · exact Multiset.mem_coe.mpr (List.mem_map_of_mem hmsg)

/-- **Balance** of a step. -/
theorem Sound.held_step (h : s.Sound codec) (hstep : s.step codec e = some s') :
    s'.held + (s.removed codec e : Multiset UInt32) =
      s.held + (s.accepted codec e : Multiset UInt32) := by
  obtain ⟨op, router, rfl, hop, rfl⟩ | ⟨now, sentAt, rfl, rfl⟩ | ⟨i, now, msg, rfl, hmsg, rfl⟩ :=
    step_cases hstep
  · have hids := MeshRouter.ids_perform h.wellFormed hop
    change router.ids + _ + _ = s.router.ids + _ + _
    rw [add_right_comm, removed, hids, add_right_comm]
    rfl
  · have hids := OutboundQueue.ids_nextToSend s.router.outbound now
    simp only [held, MeshRouter.nextToSend_eq, MeshRouter.ids, removed, accepted, List.map_append,
      ← Multiset.coe_add, Multiset.coe_nil, add_zero]
    rw [← hids]
    abel
  · obtain ⟨hi, rfl⟩ := List.getElem?_eq_some_iff.mp hmsg
    have htrack := OutboundQueue.ids_trackInflight (h.lookup_handed (List.getElem_mem hi))
      s.router.ackTimeout now
    have hhanded : ((s.handed.map PendingMessage.id : List UInt32) : Multiset UInt32) =
        {s.handed[i].id} + ((s.handed.eraseIdx i).map PendingMessage.id : List UInt32) :=
      (Multiset.coe_eq_coe.mpr ((List.getElem_cons_eraseIdx_perm hi).map PendingMessage.id)).symm
    simp only [held, MeshRouter.ids, MeshRouter.trackSent, htrack, removed, accepted,
      Multiset.coe_nil, add_zero]
    rw [hhanded]
    abel

theorem sound_start (codec : PacketCodec) (config : OutboundConfig) (maxQueuePerDest : Nat) :
    (start config maxQueuePerDest).Sound codec where
  wellFormed := MeshRouter.wellFormed_withConfig codec config maxQueuePerDest
  nodup := Multiset.nodup_zero
  known := fun _ h => absurd h (Multiset.notMem_zero _)
  tracked := fun _ h => nomatch h

/-- What an event accepts joins the history, which forgets nothing. -/
theorem sent_step (hstep : s.step codec e = some s') :
    s'.history.sent = s.accepted codec e ++ s.history.sent := by
  obtain ⟨op, router, rfl, hop, rfl⟩ | ⟨now, sentAt, rfl, rfl⟩ | ⟨i, now, msg, rfl, hmsg, rfl⟩ :=
    step_cases hstep <;> rfl

theorem accepted_fresh (hfresh : s.Fresh e) {id : UInt32} (hid : id ∈ s.accepted codec e) :
    s.accepted codec e = [id] ∧ id ∉ s.history.sent := by
  cases e with
  | op op =>
      obtain ⟨heq, hoffered⟩ := MeshRouter.accepted_offered hid
      exact ⟨heq, hfresh id hoffered⟩
  | nextToSend | trackSent => cases hid

/-- A step keeps the router well formed. -/
theorem wellFormed_step (hcodec : codec.KeepsId) (h : s.router.WellFormed codec)
    (hstep : s.step codec e = some s') : s'.router.WellFormed codec := by
  obtain ⟨op, router, rfl, hop, rfl⟩ | ⟨now, sentAt, rfl, rfl⟩ | ⟨i, now, msg, rfl, hmsg, rfl⟩ :=
    step_cases hstep
  · exact h.perform hcodec hop
  · refine ⟨?_, ?_, ?_⟩ <;> simp only [MeshRouter.nextToSend_eq]
    · exact (OutboundQueue.within_nextToSend _ now).keyed h.keyed
    · exact h.bounded
    · exact h.decodes
  · refine ⟨fun id m hm => ?_, h.bounded, h.decodes⟩
    simp only [MeshRouter.trackSent, OutboundQueue.trackInflight, Table.lookup_insert_ite] at hm
    split at hm
    · next heq =>
      obtain rfl := Option.some.inj hm
      exact heq.symm
    · exact h.keyed id m hm

/-- A step under distinct ids keeps a system sound. -/
theorem Sound.step (hcodec : codec.KeepsId) (h : s.Sound codec) (hfresh : s.Fresh e)
    (hstep : s.step codec e = some s') : s'.Sound codec := by
  have hle : s'.held ≤ s.held + (s.accepted codec e : Multiset UInt32) :=
    h.held_step hstep ▸ Multiset.le_add_right _ _
  constructor
  · exact wellFormed_step hcodec h.wellFormed hstep
  · refine Multiset.nodup_of_le hle (Multiset.nodup_add.mpr ⟨h.nodup, ?_, ?_⟩)
    · rw [Multiset.coe_nodup]
      cases hacc : s.accepted codec e with
      | nil => exact List.nodup_nil
      | cons id rest =>
          have hsingle := (accepted_fresh hfresh (hacc ▸ List.mem_cons_self)).1
          rw [← hacc, hsingle]
          exact List.nodup_singleton id
    · refine Multiset.disjoint_left.mpr fun {id} hheld hid => ?_
      exact (accepted_fresh hfresh (Multiset.mem_coe.mp hid)).2 (h.known id hheld)
  · intro id hid
    rw [sent_step hstep, List.mem_append]
    rcases Multiset.mem_add.mp (Multiset.mem_of_le hle hid) with hid | hid
    · exact .inr (h.known id hid)
    · exact .inl (Multiset.mem_coe.mp hid)
  · intro id hid
    obtain ⟨op, router, rfl, hop, rfl⟩ | ⟨now, sentAt, rfl, rfl⟩ | ⟨i, now, msg, rfl, hmsg, rfl⟩ :=
      step_cases hstep
    · rcases List.mem_append.mp hid with hid | hid
      · exact .inl (MeshRouter.isSome_of_accepted hop hid)
      · rcases h.tracked id hid with hsome | hpruned
        · exact (MeshRouter.isSome_perform hop hsome).imp_right
            fun hpruned => List.mem_append.mpr (.inl hpruned)
        · exact .inr (List.mem_append.mpr (.inr hpruned))
    · rw [MeshRouter.isSome_nextToSend]
      exact h.tracked id hid
    · exact h.tracked id hid

end System

end Akroasis.Mesh
