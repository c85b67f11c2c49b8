import Akroasis.Machine
import Akroasis.StableQueue
import Akroasis.Mesh.Router

/-!
# Akroasis.Mesh.Tickets

The outbound queue with a ticket beside every message, so that it can be said which message
is which: two messages may be equal, and one that is retried is queued anew.

A ticket says by which enqueue the message came in and with what priority, and by which
enqueue it was queued last.  It goes where the message goes: along the queue, to a caller of
`next_to_send`, into flight and back.  The queue itself takes no notice of it: in
every branch of `step` it is the queue that the operation returns.

Two results rest on the tickets.  Messages leave in the order of their priorities and among
equal priorities in the order in which they were queued (`Ordered`), and they come back from
flight with the priority they had, as long as that is the one their packet names (`Kept`).
-/

namespace Akroasis.Mesh

/-- What is known of a message besides itself. -/
structure Ticket where
  /-- The number of the enqueue that accepted it. -/
  birth : Nat
  /-- The number of the enqueue that queued it last. -/
  number : Nat
  /-- The priority it was accepted with. -/
  origin : Priority
  deriving DecidableEq

/-- An outbound queue and the tickets of its messages. -/
structure TicketedQueue where
  queue : OutboundQueue
  /-- The pending messages. -/
  line : List (PendingMessage × Ticket) := []
  /-- The messages handed out by `next_to_send` and not tracked yet. -/
  handed : List (PendingMessage × Ticket) := []
  /-- The tickets of the messages in flight. -/
  flights : Table UInt32 Ticket := ∅
  /-- The number of enqueues so far. -/
  issued : Nat := 0
  /-- The messages handed out so far, the last one first. -/
  log : List Nat := []

/-- The calls that change an outbound queue.  `handle_nak` is `retry`. -/
inductive QueueOp where
  | enqueue (msg : PendingMessage)
  | nextToSend (now : Instant)
  | markSent (id : UInt32) (timeout : Duration) (now : Instant)
  | trackInflight (i : Nat) (timeout : Duration) (now : Instant)
  | handleAck (id : UInt32)
  | retry (id : UInt32)
  | drainExpired (now : Instant)

namespace TicketedQueue

/-- The key of the queue. -/
def priorityOf (p : PendingMessage × Ticket) : Int := p.1.priority.toInt

/-- The order in which messages are to leave. -/
def Before : PendingMessage × Ticket → PendingMessage × Ticket → Prop :=
  StableQueue.Ahead priorityOf fun p => p.2.number

/-- An empty queue. -/
def start (config : OutboundConfig) : TicketedQueue where
  queue := .withConfig config

/-- A message that was accepted joins the line. -/
def joined (t : TicketedQueue) (queue : OutboundQueue) (msg : PendingMessage) (ticket : Ticket) :
    TicketedQueue :=
  { t with
    queue := queue
    line := StableQueue.insert priorityOf (msg, ticket) t.line
    issued := t.issued + 1 }

/-- A message that is no longer in flight. -/
def landed (t : TicketedQueue) (id : UInt32) : TicketedQueue :=
  { t with queue := (t.queue.handleAck id).2, flights := t.flights.erase id }

/-- One call; `none` if there is no message to track. -/
def step (t : TicketedQueue) : QueueOp → Option TicketedQueue
  | .enqueue msg =>
      match t.queue.enqueue msg with
      | .error _ => some t
      | .ok queue => some (t.joined queue msg ⟨t.issued, t.issued, msg.priority⟩)
  | .nextToSend now =>
      let t' := { t with queue := (t.queue.nextToSend now).2 }
      if t.queue.maxInflight ≤ t.queue.inflight.size then some t'
      else
        match t.line.dropWhile fun p => p.1.isExpired now with
        | [] => some { t' with line := [] }
        | p :: rest =>
            some { t' with line := rest, handed := t.handed ++ [p], log := p.2.birth :: t.log }
  | .markSent id timeout now =>
      match t.line.find? fun p => p.1.packet.id = id with
      | none => some t
      | some p =>
          some { t with
            queue := t.queue.markSent id timeout now
            line := t.line.eraseP fun p => p.1.packet.id = id
            flights := t.flights.insert id p.2 }
  | .trackInflight i timeout now => t.handed[i]?.map fun p =>
      { t with
        queue := t.queue.trackInflight p.1 timeout now
        handed := t.handed.eraseIdx i
        flights := t.flights.insert p.1.packet.id p.2 }
  | .handleAck id => some (t.landed id)
  | .retry id =>
      match (t.queue.retry id).1, t.queue.inflight.lookup id, t.flights.lookup id with
      | true, some msg, some ticket =>
          some ((t.landed id).joined (t.queue.retry id).2 msg.requeued
            { ticket with number := t.issued })
      | _, _, _ => some { t.landed id with queue := (t.queue.retry id).2 }
  | .drainExpired now =>
      some { t with
        queue := t.queue.drainExpired now
        line := t.line.filter fun p => !p.1.isExpired now
        flights :=
          t.flights.retain fun id _ => ((t.queue.drainExpired now).inflight.lookup id).isSome }

variable {t t' : TicketedQueue} {op : QueueOp}

/-- An accepted message stands before the first one of a lower priority. -/
theorem enqueue_ok {q q' : OutboundQueue} {msg : PendingMessage} (h : q.enqueue msg = .ok q') :
    q' = { q with pending := StableQueue.insert (fun m => m.priority.toInt) msg q.pending } := by
  unfold OutboundQueue.enqueue at h
  split at h
  · cases h
  · exact (Except.ok.inj h).symm

/-! ## What a call does -/

/-- The line is the pending queue, in the order of service, and every message in flight has
its ticket. -/
structure Ordered (t : TicketedQueue) : Prop where
  pending : t.line.map Prod.fst = t.queue.pending
  sorted : t.line.Pairwise Before
  issued : ∀ p ∈ t.line, p.2.number < t.issued
  aboard : ∀ id msg, t.queue.inflight.lookup id = some msg →
    ∃ ticket, t.flights.lookup id = some ticket

section Aboard

/- A message in flight and its ticket, before a call and after it. -/

variable {id k : UInt32} {msg m : InflightMessage} {ticket tk : Ticket}

theorem aboard_of_landed (hm : (t.landed id).queue.inflight.lookup k = some m)
    (htk : (t.landed id).flights.lookup k = some tk) :
    t.queue.inflight.lookup k = some m ∧ t.flights.lookup k = some tk := by
  simp only [landed, OutboundQueue.handleAck, Table.lookup_erase_ite] at hm htk
  split at hm
  · cases hm
  · rw [if_neg ‹_›] at htk
    exact ⟨hm, htk⟩

theorem aboard_of_insert (hm : AList.lookup k (t.queue.inflight.insert id msg) = some m)
    (htk : AList.lookup k (t.flights.insert id ticket) = some tk) :
    (m = msg ∧ tk = ticket) ∨
    (t.queue.inflight.lookup k = some m ∧ t.flights.lookup k = some tk) := by
  rw [Table.lookup_insert_ite] at hm htk
  split at hm
  · rw [if_pos ‹_›] at htk
    exact .inl ⟨(Option.some.inj hm).symm, (Option.some.inj htk).symm⟩
  · rw [if_neg ‹_›] at htk
    exact .inr ⟨hm, htk⟩

theorem aboard_of_drained {now : Instant} {p : UInt32 → Ticket → Bool}
    (hm : (t.queue.drainExpired now).inflight.lookup k = some m)
    (htk : (t.flights.retain p).lookup k = some tk) :
    t.queue.inflight.lookup k = some m ∧ t.flights.lookup k = some tk := by
  rw [Table.lookup_retain] at htk
  exact ⟨(OutboundQueue.within_drainExpired t.queue now).lookup k m hm,
    (Option.filter_eq_some_iff.mp htk).1⟩

end Aboard

/-- What a call can do to an ordered queue. -/
inductive Moves (t : TicketedQueue) : QueueOp → TicketedQueue → Prop where
  | idle {op : QueueOp} : Moves t op t
  | accepted {msg : PendingMessage} {queue : OutboundQueue}
    (henqueue : t.queue.enqueue msg = .ok queue) :
      Moves t (.enqueue msg) (t.joined queue msg ⟨t.issued, t.issued, msg.priority⟩)
  | emptied {now : Instant} :
      Moves t (.nextToSend now) { t with queue := { t.queue with pending := [] }, line := [] }
  | handedOut {now : Instant} {p : PendingMessage × Ticket} {rest : List (PendingMessage × Ticket)}
      (hline : t.line.dropWhile (fun p => p.1.isExpired now) = p :: rest) :
      Moves t (.nextToSend now)
        { t with
          queue := { t.queue with pending := rest.map Prod.fst }
          line := rest
          handed := t.handed ++ [p]
          log := p.2.birth :: t.log }
  | marked {id : UInt32} {timeout : Duration} {now : Instant} {p : PendingMessage × Ticket}
      (hfind : t.line.find? (fun p => p.1.packet.id = id) = some p) :
      Moves t (.markSent id timeout now)
        { t with
          queue := t.queue.markSent id timeout now
          line := t.line.eraseP fun p => p.1.packet.id = id
          flights := t.flights.insert id p.2 }
  | tracked {i : Nat} {timeout : Duration} {now : Instant} {p : PendingMessage × Ticket}
      (hhanded : t.handed[i]? = some p) :
      Moves t (.trackInflight i timeout now)
        { t with
          queue := t.queue.trackInflight p.1 timeout now
          handed := t.handed.eraseIdx i
          flights := t.flights.insert p.1.packet.id p.2 }
  | removed {op : QueueOp} {id : UInt32} (hop : op = .handleAck id ∨ op = .retry id) :
      Moves t op (t.landed id)
  | requeued {id : UInt32} {msg : InflightMessage} {ticket : Ticket} {queue : OutboundQueue}
      (hmsg : t.queue.inflight.lookup id = some msg) (hticket : t.flights.lookup id = some ticket)
      (hlt : msg.retries < msg.maxRetries)
      (henqueue : (t.landed id).queue.enqueue msg.requeued = .ok queue) :
      Moves t (.retry id)
        ((t.landed id).joined queue msg.requeued { ticket with number := t.issued })
  | drained {now : Instant} :
      Moves t (.drainExpired now)
        { t with
          queue := t.queue.drainExpired now
          line := t.line.filter fun p => !p.1.isExpired now
          flights := t.flights.retain fun id _ =>
            ((t.queue.drainExpired now).inflight.lookup id).isSome }

/-- `next_to_send` looks at the line. -/
theorem Ordered.moves_nextToSend (h : t.Ordered) {now : Instant}
    (hstep : t.step (.nextToSend now) = some t') : Moves t (.nextToSend now) t' := by
  have hdrop : t.queue.pending.dropWhile (PendingMessage.isExpired now) =
      (t.line.dropWhile fun p => p.1.isExpired now).map Prod.fst := by
    rw [← h.pending, List.dropWhile_map]
    rfl
  simp only [step] at hstep
  split at hstep
  · next hfull =>
    obtain rfl := Option.some.inj hstep
    simp only [OutboundQueue.nextToSend, if_pos hfull]
    exact .idle
  · next hroom =>
    split at hstep
    · next hline =>
      obtain rfl := Option.some.inj hstep
      simp only [OutboundQueue.nextToSend, if_neg hroom, hdrop, hline, List.map_nil]
      exact .emptied
    · next p rest hline =>
      obtain rfl := Option.some.inj hstep
      simp only [OutboundQueue.nextToSend, if_neg hroom, hdrop, hline, List.map_cons]
      exact .handedOut hline

theorem Ordered.moves_retry (h : t.Ordered) {id : UInt32} (hstep : t.step (.retry id) = some t') :
    Moves t (.retry id) t' := by
  simp only [step] at hstep
  obtain ⟨hnone, hretry⟩ | ⟨msg, hmsg, hretry | ⟨queue, hlt, henqueue, hretry⟩⟩ :=
    OutboundQueue.retry_cases t.queue id
  · have hlanded : t.queue.retry id = (false, (t.queue.handleAck id).2) := by
      simp only [hretry, OutboundQueue.handleAck, Table.erase_of_none hnone]
    simp only [hlanded] at hstep
    obtain rfl := Option.some.inj hstep
    exact .removed (.inr rfl)
  · simp only [hretry] at hstep
    obtain rfl := Option.some.inj hstep
    exact .removed (.inr rfl)
  · obtain ⟨ticket, hticket⟩ := h.aboard id msg hmsg
    simp only [hmsg, hticket, hretry] at hstep
    obtain rfl := Option.some.inj hstep
    exact .requeued hmsg hticket hlt henqueue

theorem Ordered.moves (h : t.Ordered) (hstep : t.step op = some t') : Moves t op t' := by
  cases op with
  | enqueue msg =>
      simp only [step] at hstep
      split at hstep
      · obtain rfl := Option.some.inj hstep
        exact .idle
      · next queue henqueue =>
        obtain rfl := Option.some.inj hstep
        exact .accepted henqueue
  | nextToSend now => exact h.moves_nextToSend hstep
  | markSent id timeout now =>
      simp only [step] at hstep
      split at hstep
      · obtain rfl := Option.some.inj hstep
        exact .idle
      · next p hfind =>
        obtain rfl := Option.some.inj hstep
        exact .marked hfind
  | trackInflight i timeout now =>
      obtain ⟨p, hp, rfl⟩ := Option.map_eq_some_iff.mp hstep
      exact .tracked hp
  | handleAck id =>
      obtain rfl := Option.some.inj hstep
      exact .removed (.inl rfl)
  | retry id => exact h.moves_retry hstep
  | drainExpired now =>
      obtain rfl := Option.some.inj hstep
      exact .drained

/-! ## The order of service -/

namespace Ordered

theorem start (config : OutboundConfig) : (start config).Ordered where
  pending := rfl
  sorted := List.Pairwise.nil
  issued := fun _ h => nomatch h
  aboard := fun _ _ h => nomatch h

/-- A message queued with the next number. -/
theorem joined (h : t.Ordered) {queue : OutboundQueue} {msg : PendingMessage} {ticket : Ticket}
    (henqueue : t.queue.enqueue msg = .ok queue) (hnumber : ticket.number = t.issued) :
    (t.joined queue msg ticket).Ordered := by
  obtain rfl := enqueue_ok henqueue
  constructor
  · change (StableQueue.insert priorityOf (msg, ticket) t.line).map Prod.fst = _
    rw [← h.pending]
    exact StableQueue.map_insert (fun m : PendingMessage => m.priority.toInt) Prod.fst _ _
  · exact StableQueue.pairwise_insert h.sorted fun p hp => hnumber ▸ h.issued p hp
  · intro p hp
    obtain rfl | hp := StableQueue.mem_insert.mp hp
    · exact hnumber ▸ Nat.lt_succ_self _
    · exact (h.issued p hp).trans (Nat.lt_succ_self _)
  · exact h.aboard

/-- Messages that leave the line do not disturb its order. -/
theorem of_sublist (h : t.Ordered) (hline : t'.line.Sublist t.line)
    (hpending : t'.line.map Prod.fst = t'.queue.pending) (hissued : t'.issued = t.issued)
    (haboard : ∀ id msg, t'.queue.inflight.lookup id = some msg →
      ∃ ticket, t'.flights.lookup id = some ticket) : t'.Ordered where
  pending := hpending
  sorted := h.sorted.sublist hline
  issued := fun p hp => hissued ▸ h.issued p (hline.subset hp)
  aboard := haboard

theorem landed (h : t.Ordered) (id : UInt32) : (t.landed id).Ordered := by
  refine h.of_sublist (List.Sublist.refl _) h.pending rfl fun m msg hm => ?_
  simp only [TicketedQueue.landed, OutboundQueue.handleAck, Table.lookup_erase_ite] at hm ⊢
  split at hm
  · cases hm
  · next hne =>
    rw [if_neg hne]
    exact h.aboard m msg hm

theorem pending_markSent (h : t.Ordered) {id : UInt32} {p : PendingMessage × Ticket}
    (hfind : t.line.find? (fun p => p.1.packet.id = id) = some p) (timeout : Duration)
    (now : Instant) :
    t.queue.markSent id timeout now =
      { t.queue with
        pending := (t.line.eraseP fun p => p.1.packet.id = id).map Prod.fst
        inflight := t.queue.inflight.insert id
          ⟨p.1.packet, p.1.created, p.1.ttl, now, 0, t.queue.maxRetries, timeout⟩ } := by
  have hpending : t.queue.pending.find? (fun m => m.packet.id = id) = some p.1 := by
    rw [← h.pending, List.find?_map, Function.comp_def, hfind, Option.map_some]
  have herase : t.queue.pending.eraseP (fun m => m.packet.id = id) =
      (t.line.eraseP fun p => p.1.packet.id = id).map Prod.fst := by
    rw [← h.pending, List.eraseP_map]
    rfl
  rw [OutboundQueue.markSent, hpending, herase]

/-- **A call keeps the order.** -/
theorem step (h : t.Ordered) (hstep : t.step op = some t') : t'.Ordered := by
  have hinsert : ∀ id (msg : InflightMessage) (ticket : Ticket) k m,
      AList.lookup k (t.queue.inflight.insert id msg) = some m →
        ∃ ticket', AList.lookup k (t.flights.insert id ticket) = some ticket' := by
    intro id msg ticket k m hm
    rw [Table.lookup_insert_ite] at hm ⊢
    split at hm
    · exact ⟨ticket, if_pos ‹_›⟩
    · rw [if_neg ‹_›]
      exact h.aboard k m hm
  cases h.moves hstep with
  | idle => exact h
  | accepted henqueue => exact h.joined henqueue rfl
  | emptied => exact h.of_sublist (List.nil_sublist _) rfl rfl h.aboard
  | handedOut hline =>
      refine h.of_sublist ?_ rfl rfl h.aboard
      exact (List.sublist_cons_self _ _).trans (hline ▸ List.dropWhile_sublist _)
  | marked hfind =>
      refine h.of_sublist List.eraseP_sublist ?_ rfl ?_
      · rw [h.pending_markSent hfind]
      · rw [h.pending_markSent hfind]
        exact hinsert _ _ _
  | tracked hhanded => exact h.of_sublist (List.Sublist.refl _) h.pending rfl (hinsert _ _ _)
  | removed hop => exact h.landed _
  | requeued hmsg hticket hlt henqueue => exact (h.landed _).joined henqueue rfl
  | @drained now =>
      refine h.of_sublist List.filter_sublist ?_ rfl fun id msg hm => ?_
      · simp only [OutboundQueue.drainExpired, ← h.pending, List.filter_map]
        rfl
      · have hbefore := (OutboundQueue.within_drainExpired t.queue now).lookup id msg hm
        obtain ⟨ticket, hticket⟩ := h.aboard id msg hbefore
        refine ⟨ticket, ?_⟩
        simp only [Table.lookup_retain, hticket, Option.filter_some, hm,
          Option.isSome_some, if_true]

/-- What `next_to_send` returns, seen in the line. -/
theorem nextToSend_fst (h : t.Ordered) (now : Instant) :
    (t.queue.nextToSend now).1 =
      if t.queue.maxInflight ≤ t.queue.inflight.size then none
      else (t.line.dropWhile fun p => p.1.isExpired now).head?.map Prod.fst := by
  have hdrop : t.queue.pending.dropWhile (PendingMessage.isExpired now) =
      (t.line.dropWhile fun p => p.1.isExpired now).map Prod.fst := by
    rw [← h.pending, List.dropWhile_map]
    rfl
  rw [OutboundQueue.nextToSend, hdrop]
  split
  · rfl
  · cases t.line.dropWhile fun p => p.1.isExpired now <;> rfl

/-- `next_to_send` returns a message if one may be sent and one is not expired. -/
theorem nextToSend_eq_none (h : t.Ordered) (now : Instant) :
    (t.queue.nextToSend now).1 = none ↔
      t.queue.maxInflight ≤ t.queue.inflight.size ∨ ∀ p ∈ t.line, p.1.isExpired now = true := by
  rw [h.nextToSend_fst]
  split
  · next hfull => simp [hfull]
  · next hroom => simp [hroom, List.dropWhile_eq_nil_iff]

/-- **First among those that may go**: no message has a higher priority, or the same one and
an earlier place. -/
theorem nextToSend_first (h : t.Ordered) {now : Instant} {msg : PendingMessage}
    (hsend : (t.queue.nextToSend now).1 = some msg) :
    ∃ ticket, (msg, ticket) ∈ t.line ∧ msg.isExpired now = false ∧
      ∀ p ∈ t.line, p.1.isExpired now = false → ¬ msg.priority.toInt < p.1.priority.toInt ∧
        ¬ (p.1.priority = msg.priority ∧ p.2.number < ticket.number) := by
  rw [h.nextToSend_fst] at hsend
  split at hsend
  · cases hsend
  · obtain ⟨⟨_, ticket⟩, hhead, rfl⟩ := Option.map_eq_some_iff.mp hsend
    obtain ⟨rest, hrest⟩ : ∃ rest, t.line.dropWhile (fun p => p.1.isExpired now) =
        (_, ticket) :: rest :=
      ⟨_, List.eq_cons_of_mem_head? hhead⟩
    refine ⟨ticket, (List.dropWhile_sublist _).subset (hrest ▸ List.mem_cons_self), ?_,
      fun p hp hlive => ?_⟩
    · have hnot :=
        List.head?_dropWhile_not (fun p : PendingMessage × Ticket => p.1.isExpired now) t.line
      simpa [hrest] using hnot
    · obtain rfl | hahead := StableQueue.ahead_of_dropWhile h.sorted hrest hp hlive
      · simp
      · obtain hlower | ⟨heq, hearlier⟩ := hahead
        · have hne : p.1.priority ≠ _ := fun heq => absurd (congrArg Priority.toInt heq) hlower.ne
          exact ⟨not_lt.mpr hlower.le, fun hp => hne hp.1⟩
        · exact ⟨not_lt.mpr heq.ge, fun hp => absurd hp.2 (not_lt.mpr hearlier.le)⟩

end Ordered

theorem ordered_run {config : OutboundConfig} {ops : List QueueOp}
    (hrun : Machine.run step (start config) ops = some t) : t.Ordered :=
  Machine.run_preserves (fun _ _ _ h hstep => h.step hstep) (Ordered.start config) hrun

/-! ## Retries -/

end TicketedQueue

/-- The priority is the one the packet's own field names. -/
def PendingMessage.NamesPriority (msg : PendingMessage) : Prop :=
  msg.priority = (Priority.tryFrom msg.packet.priority).getD .default

instance (msg : PendingMessage) : Decidable msg.NamesPriority := inferInstanceAs (Decidable (_ = _))

/-- The message enqueued, if any, has the priority its packet names. -/
def QueueOp.NamesPriority : QueueOp → Prop
  | .enqueue msg => msg.NamesPriority
  | .nextToSend _ | .markSent .. | .trackInflight .. | .handleAck _ | .retry _ | .drainExpired _ =>
      True

instance : ∀ op : QueueOp, Decidable op.NamesPriority
  | .enqueue msg => inferInstanceAs (Decidable msg.NamesPriority)
  | .nextToSend _ | .markSent .. | .trackInflight .. | .handleAck _ | .retry _ | .drainExpired _ =>
      inferInstanceAs (Decidable True)

namespace TicketedQueue

variable {t t' : TicketedQueue} {op : QueueOp}

/-- A message and its ticket agree with its packet on the priority. -/
def Agrees (p : PendingMessage × Ticket) : Prop := p.1.NamesPriority ∧ p.1.priority = p.2.origin

/-- Every message has the priority it was accepted with, or will have it again when it is
retried. -/
structure Kept (t : TicketedQueue) : Prop where
  line : ∀ p ∈ t.line, Agrees p
  handed : ∀ p ∈ t.handed, Agrees p
  flights : ∀ id msg ticket, t.queue.inflight.lookup id = some msg →
    t.flights.lookup id = some ticket → msg.requeued.priority = ticket.origin

namespace Kept

theorem start (config : OutboundConfig) : (start config).Kept where
  line := fun _ h => nomatch h
  handed := fun _ h => nomatch h
  flights := fun _ _ _ h => nomatch h

theorem landed (h : t.Kept) (id : UInt32) : (t.landed id).Kept where
  line := h.line
  handed := h.handed
  flights := by
    intro k msg ticket hmsg hticket
    obtain ⟨hmsg, hticket⟩ := aboard_of_landed hmsg hticket
    exact h.flights k msg ticket hmsg hticket

theorem joined (h : t.Kept) {queue : OutboundQueue} {msg : PendingMessage} {ticket : Ticket}
    (hqueue : t.queue.enqueue msg = .ok queue) (hmsg : Agrees (msg, ticket)) :
    (t.joined queue msg ticket).Kept where
  line := by
    intro p hp
    obtain rfl | hp := StableQueue.mem_insert.mp hp
    · exact hmsg
    · exact h.line p hp
  handed := h.handed
  flights := by
    obtain rfl := enqueue_ok hqueue
    exact h.flights

/-- A message that goes into flight. -/
theorem flights_insert (h : t.Kept) {id : UInt32} {p : PendingMessage × Ticket}
    {msg : InflightMessage} (hp : Agrees p) (hpacket : msg.packet = p.1.packet) (k : UInt32)
    (m : InflightMessage) (ticket : Ticket)
    (hm : AList.lookup k (t.queue.inflight.insert id msg) = some m)
    (hticket : AList.lookup k (t.flights.insert id p.2) = some ticket) :
    m.requeued.priority = ticket.origin := by
  obtain ⟨rfl, rfl⟩ | ⟨hm, hticket⟩ := aboard_of_insert hm hticket
  · simp only [InflightMessage.requeued, hpacket]
    exact hp.1.symm.trans hp.2
  · exact h.flights k m ticket hm hticket

theorem step (h : t.Kept) (hordered : t.Ordered) (hop : op.NamesPriority)
    (hstep : t.step op = some t') : t'.Kept := by
  cases hordered.moves hstep with
  | idle => exact h
  | accepted henqueue => exact h.joined henqueue ⟨hop, rfl⟩
  | emptied => exact ⟨fun _ hp => (nomatch hp), h.handed, h.flights⟩
  | @handedOut now p rest hline =>
      have hsub : p :: rest ⊆ t.line := hline ▸ (List.dropWhile_sublist _).subset
      refine ⟨fun q hq => h.line q (hsub (List.mem_cons_of_mem _ hq)), fun q hq => ?_, h.flights⟩
      obtain hq | hq := List.mem_append.mp hq
      · exact h.handed q hq
      · obtain rfl := List.mem_singleton.mp hq
        exact h.line q (hsub List.mem_cons_self)
  | marked hfind =>
      refine ⟨fun q hq => h.line q (List.mem_of_mem_eraseP hq), h.handed, ?_⟩
      rw [hordered.pending_markSent hfind]
      exact h.flights_insert (h.line _ (List.mem_of_find?_eq_some hfind)) rfl
  | tracked hhanded =>
      refine ⟨h.line, fun q hq => h.handed q (List.mem_of_mem_eraseIdx hq), ?_⟩
      exact h.flights_insert (h.handed _ (List.mem_of_getElem? hhanded)) rfl
  | removed => exact h.landed _
  | requeued hmsg hticket hlt henqueue =>
      have hpriority := h.flights _ _ _ hmsg hticket
      exact (h.landed _).joined henqueue ⟨rfl, hpriority⟩
  | @drained now =>
      refine ⟨fun q hq => h.line q (List.mem_of_mem_filter hq), h.handed,
        fun id msg ticket hmsg hticket => ?_⟩
      obtain ⟨hmsg, hticket⟩ := aboard_of_drained hmsg hticket
      exact h.flights id msg ticket hmsg hticket

end Kept

/-- **Order of service.**  In every state of an outbound queue, `next_to_send` returns the
pending message that is first among those not expired, if a message may be sent at all; and
if every message was enqueued with the priority its packet names, every message pending, or
in flight and yet to be retried, has the priority it was enqueued with. -/
theorem nextToSend_order (config : OutboundConfig) (ops : List QueueOp) (t : TicketedQueue)
    (hrun : Machine.run step (start config) ops = some t) :
    t.line.map Prod.fst = t.queue.pending ∧
      (∀ now, ((t.queue.nextToSend now).1 = none ↔
        t.queue.maxInflight ≤ t.queue.inflight.size ∨ ∀ p ∈ t.line, p.1.isExpired now = true) ∧
        ∀ msg, (t.queue.nextToSend now).1 = some msg →
          ∃ ticket, (msg, ticket) ∈ t.line ∧ msg.isExpired now = false ∧
            ∀ p ∈ t.line, p.1.isExpired now = false → ¬ msg.priority.toInt < p.1.priority.toInt ∧
              ¬ (p.1.priority = msg.priority ∧ p.2.number < ticket.number)) ∧
      ((∀ op ∈ ops, op.NamesPriority) → (∀ p ∈ t.line, p.1.priority = p.2.origin) ∧
        ∀ id msg, t.queue.inflight.lookup id = some msg →
          ∃ ticket, t.flights.lookup id = some ticket ∧ msg.requeued.priority = ticket.origin) := by
  have hordered := ordered_run hrun
  refine ⟨hordered.pending, fun now => ⟨hordered.nextToSend_eq_none now,
    fun msg => hordered.nextToSend_first⟩, fun hops => ?_⟩
  obtain ⟨-, hkept⟩ : t.Ordered ∧ t.Kept :=
    Machine.run_invariant (I := fun t => t.Ordered ∧ t.Kept) (P := fun _ op => op.NamesPriority)
      (fun _ _ _ h hop hstep => ⟨h.1.step hstep, h.2.step h.1 hop hstep⟩)
      ⟨Ordered.start config, Kept.start config⟩
      (Machine.meets_of_forall_mem (fun op hop _ => hops op hop) _) hrun
  refine ⟨fun p hp => (hkept.line p hp).2, fun id msg hmsg => ?_⟩
  obtain ⟨ticket, hticket⟩ := hordered.aboard id msg hmsg
  exact ⟨ticket, hticket, hkept.flights id msg ticket hmsg hticket⟩

/-- Two packets of priority 70 are queued, and the first is sent and retried. -/
def twoSent (options : SendOptions) : List QueueOp :=
  [.enqueue (MeshRouter.toPending (samplePacket 1) options 0),
    .enqueue (MeshRouter.toPending (samplePacket 2) options 0), .nextToSend 1,
    .trackInflight 0 30 1, .retry 1]

/-- Sent with that priority, the first comes back behind the second. -/
theorem nextToSend_order_two :
    ∃ t msg ticket, Machine.run step (start {}) (twoSent { priority := .reliable }) = some t ∧
      (t.queue.nextToSend 2).1 = some msg ∧ msg.id = 2 ∧ (msg, ticket) ∈ t.line ∧
      (∀ p ∈ t.line, p.1.isExpired 2 = false → ¬ msg.priority.toInt < p.1.priority.toInt ∧
        ¬ (p.1.priority = msg.priority ∧ p.2.number < ticket.number)) ∧
      ∀ p ∈ t.line, p.1.priority = p.2.origin := by
  have hnext : (Machine.run step (start {}) (twoSent { priority := .reliable })).bind
      (fun t => (t.queue.nextToSend 2).1.map PendingMessage.id) = some 2 := by decide +kernel
  obtain ⟨t, hrun, hnext⟩ := Option.bind_eq_some_iff.mp hnext
  obtain ⟨msg, hmsg, hid⟩ := Option.map_eq_some_iff.mp hnext
  obtain ⟨-, hsend, hkept⟩ := nextToSend_order {} _ t hrun
  obtain ⟨ticket, hline, -, hfirst⟩ := (hsend 2).2 msg hmsg
  exact ⟨t, msg, ticket, hrun, hmsg, hid, hline, hfirst, (hkept (by decide +kernel)).1⟩

/-- Sent with the default priority, it comes back with the priority of its packet and
overtakes the second. -/
theorem retry_takes_priority_of_packet :
    ∃ t p, Machine.run step (start {}) (twoSent {}) = some t ∧ p ∈ t.line ∧
      p.1.priority = .reliable ∧ p.2.origin = .default ∧
      (t.queue.nextToSend 2).1.map PendingMessage.id = some 1 := by
  have hview : (Machine.run step (start {}) (twoSent {})).map
      (fun t => ((t.line.map fun p => (p.1.priority, p.2.origin)).head?,
        (t.queue.nextToSend 2).1.map PendingMessage.id)) =
          some (some (.reliable, .default), some 1) := by decide +kernel
  obtain ⟨t, hrun, hview⟩ := Option.map_eq_some_iff.mp hview
  obtain ⟨hline, hnext⟩ := Prod.mk.inj hview
  obtain ⟨p, hp, hpriority⟩ := List.mem_map.mp (List.mem_of_mem_head? hline)
  obtain ⟨hnow, horigin⟩ := Prod.mk.inj hpriority
  exact ⟨t, p, hrun, hp, hnow, horigin, hnext⟩

end TicketedQueue

end Akroasis.Mesh
