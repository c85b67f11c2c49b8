import Akroasis.Mesh.Flush
import Akroasis.Mesh.Forwarding
import Akroasis.Mesh.Tickets

/-!
# Akroasis.Mesh.Calls

The router and its flush task, seen from the outbound queue: the calls they make on it.

A ticketed queue that stands for the outbound queue and for the messages its callers hold
(`Follows`) keeps up with the router if it is given the same calls.  `calls` lists them for an
operation of the router and for an event of the flush task, with the answers of the queue
deciding where a loop ends, and `FlushTask.leads_run` says that a run of the task is a run of
the ticketed queue over the calls it makes.
-/

namespace Akroasis.Mesh

namespace TicketedQueue

variable {t t' : TicketedQueue}

/-! ## Following a queue -/

/-- The ticketed queue stands for a queue and the messages its callers have. -/
structure Follows (t : TicketedQueue) (q : OutboundQueue) (handed : List PendingMessage) :
    Prop where
  ordered : t.Ordered
  queue : t.queue = q
  handed : t.handed.map Prod.fst = handed

namespace Follows

variable {q q' : OutboundQueue} {hs : List PendingMessage} {msg : PendingMessage}

/-- A call after which queue and callers are as they should be. -/
theorem of_step (h : t.Follows q hs) {op : QueueOp} {hs' : List PendingMessage}
    (hstep : t.step op = some t') (hafter : t'.queue = q' ∧ t'.handed.map Prod.fst = hs') :
    t'.Follows q' hs' :=
  ⟨h.ordered.step hstep, hafter.1, hafter.2⟩

theorem enqueue (h : t.Follows q hs) (henqueue : q.enqueue msg = .ok q') :
    ∃ t', t.step (.enqueue msg) = some t' ∧ t'.Follows q' hs := by
  obtain rfl := h.queue
  have hstep :
      t.step (.enqueue msg) = some (t.joined q' msg ⟨t.issued, t.issued, msg.priority⟩) := by
    simp only [TicketedQueue.step, henqueue]
  exact ⟨_, hstep, h.of_step hstep ⟨rfl, h.handed⟩⟩

theorem enqueue_full (h : t.Follows q hs) {back : PendingMessage}
    (henqueue : q.enqueue msg = .error back) :
    ∃ t', t.step (.enqueue msg) = some t' ∧ t'.Follows q hs := by
  obtain rfl := h.queue
  exact ⟨t, by simp only [TicketedQueue.step, henqueue], h⟩

theorem nextToSend (h : t.Follows q hs) (now : Instant) :
    ∃ t', t.step (.nextToSend now) = some t' ∧
      t'.Follows (q.nextToSend now).2 (hs ++ (q.nextToSend now).1.toList) := by
  obtain rfl := h.queue
  obtain ⟨t', hstep⟩ : ∃ t', t.step (.nextToSend now) = some t' := by
    simp only [TicketedQueue.step]
    split
    · exact ⟨_, rfl⟩
    · split <;> exact ⟨_, rfl⟩
  refine ⟨t', hstep, h.of_step hstep ?_⟩
  have hfst := h.ordered.nextToSend_fst now
  simp only [TicketedQueue.step] at hstep
  split at hstep
  · next hfull =>
    obtain rfl := Option.some.inj hstep
    exact ⟨rfl, by simp [hfst, hfull, h.handed]⟩
  · next hroom =>
    split at hstep
    · next hline =>
      obtain rfl := Option.some.inj hstep
      exact ⟨rfl, by simp [hfst, hline, h.handed]⟩
    · next p rest hline =>
      obtain rfl := Option.some.inj hstep
      exact ⟨rfl, by simp [hfst, hroom, hline, h.handed]⟩

theorem trackInflight (h : t.Follows q hs) {i : Nat} (hmsg : hs[i]? = some msg)
    (timeout : Duration) (now : Instant) :
    ∃ t', t.step (.trackInflight i timeout now) = some t' ∧
      t'.Follows (q.trackInflight msg timeout now) (hs.eraseIdx i) := by
  obtain rfl := h.queue
  obtain rfl := h.handed
  obtain ⟨p, hp, rfl⟩ := Option.map_eq_some_iff.mp (List.getElem?_map ▸ hmsg)
  obtain ⟨t', hstep⟩ : ∃ t', t.step (.trackInflight i timeout now) = some t' :=
    ⟨_, Option.map_eq_some_iff.mpr ⟨p, hp, rfl⟩⟩
  refine ⟨t', hstep, h.of_step hstep ?_⟩
  simp only [TicketedQueue.step, hp, Option.map_some] at hstep
  obtain rfl := Option.some.inj hstep
  exact ⟨rfl, by simp [List.eraseIdx_map]⟩

theorem handleAck (h : t.Follows q hs) (id : UInt32) :
    ∃ t', t.step (.handleAck id) = some t' ∧ t'.Follows (q.handleAck id).2 hs := by
  obtain rfl := h.queue
  have hstep : t.step (.handleAck id) = some (t.landed id) := rfl
  exact ⟨_, hstep, h.of_step hstep ⟨rfl, h.handed⟩⟩

theorem retry (h : t.Follows q hs) (id : UInt32) :
    ∃ t', t.step (.retry id) = some t' ∧ t'.Follows (q.retry id).2 hs := by
  obtain rfl := h.queue
  obtain ⟨t', hstep⟩ : ∃ t', t.step (.retry id) = some t' := by
    simp only [TicketedQueue.step]
    split <;> exact ⟨_, rfl⟩
  refine ⟨t', hstep, h.of_step hstep ?_⟩
  simp only [TicketedQueue.step] at hstep
  split at hstep
  · obtain rfl := Option.some.inj hstep
    exact ⟨rfl, h.handed⟩
  · obtain rfl := Option.some.inj hstep
    exact ⟨rfl, h.handed⟩

theorem drainExpired (h : t.Follows q hs) (now : Instant) :
    ∃ t', t.step (.drainExpired now) = some t' ∧ t'.Follows (q.drainExpired now) hs := by
  obtain rfl := h.queue
  obtain ⟨t', hstep⟩ : ∃ t', t.step (.drainExpired now) = some t' := ⟨_, rfl⟩
  refine ⟨t', hstep, h.of_step hstep ?_⟩
  obtain rfl := Option.some.inj hstep
  exact ⟨rfl, h.handed⟩

end Follows

end TicketedQueue

/-! ## The calls of the router and of the flush task -/

namespace MeshRouter

/-- The calls of the loop of `node_came_online`. -/
def forwardCalls (codec : PacketCodec) :
    List StoredMessage → (Nat → Instant) → OutboundQueue → List QueueOp
  | [], _, _ => []
  | msg :: rest, clock, q =>
      match codec.decode msg.packetBytes with
      | none => forwardCalls codec rest clock q
      | some packet =>
          .enqueue (msg.toPending packet (clock 0)) ::
            match q.enqueue (msg.toPending packet (clock 0)) with
            | .error _ => []
            | .ok q => forwardCalls codec rest (fun i => clock (i + 1)) q

/-- The calls an operation of the router makes on the outbound queue. -/
def calls (codec : PacketCodec) (r : MeshRouter) : RouterOp → List QueueOp
  | .send packet reachable options now _ _ =>
      if reachable then [.enqueue (toPending packet options now)] else []
  | .ack id _ _ => [.handleAck id]
  | .nak id _ => [.retry id]
  | .timeouts _ order => order.map .retry
  | .maintenance _ _ _ drainAt => [.drainExpired drainAt]
  | .nodeCameOnline dest clock =>
      forwardCalls codec ((r.storeForward.queue dest).take r.outbound.remainingCapacity)
        clock r.outbound

/-- The calls of the loop that takes messages. -/
def drainCalls : Nat → (Nat → Instant × Instant) → MeshRouter → List QueueOp
  | 0, _, _ => []
  | fuel + 1, clock, r =>
      .nextToSend (clock 0).1 ::
        match (r.nextToSend (clock 0).1 (clock 0).2).1 with
        | none => []
        | some _ =>
            drainCalls fuel (fun i => clock (i + 1)) (r.nextToSend (clock 0).1 (clock 0).2).2

end MeshRouter

namespace FlushTask

/-- The calls an event makes. -/
def calls (codec : PacketCodec) (f : FlushTask) : FlushEvent → List QueueOp
  | .op op => f.router.calls codec op
  | .tick t =>
      t.order.map .retry ++ [.drainExpired t.drainAt] ++
        (f.router.beforeDrain codec t).elim [] fun r =>
          r.drainCalls (r.outbound.pending.length + 1) t.clock
  | .transmit => []
  | .track now => [.trackInflight 0 f.router.ackTimeout now]

/-- The calls a run makes. -/
def runCalls (codec : PacketCodec) : FlushTask → List FlushEvent → List QueueOp
  | _, [] => []
  | f, e :: events =>
      f.calls codec e ++ (f.step codec e).elim [] fun f' => runCalls codec f' events

end FlushTask

open TicketedQueue (Follows)

variable {codec : PacketCodec} {t : TicketedQueue} {hs : List PendingMessage} {q : OutboundQueue}

/-- Some calls lead a ticketed queue to where another queue has got. -/
def TicketedQueue.Leads (t : TicketedQueue) (calls : List QueueOp) (q : OutboundQueue)
    (handed : List PendingMessage) : Prop :=
  ∃ t', Machine.run TicketedQueue.step t calls = some t' ∧ t'.Follows q handed

theorem TicketedQueue.Leads.cons {call : QueueOp} {calls : List QueueOp} {q' : OutboundQueue}
    {hs' hs'' : List PendingMessage}
    (h : ∃ t', t.step call = some t' ∧ t'.Follows q hs')
    (hrest : ∀ t' : TicketedQueue, t'.Follows q hs' → t'.Leads calls q' hs'') :
    t.Leads (call :: calls) q' hs'' := by
  obtain ⟨t₁, hstep, hfollows⟩ := h
  obtain ⟨t₂, hrun, hend⟩ := hrest t₁ hfollows
  exact ⟨t₂, by rw [Machine.run_cons, hstep, Option.bind_some, hrun], hend⟩

theorem TicketedQueue.Leads.append {calls calls' : List QueueOp} {q' : OutboundQueue}
    {hs' hs'' : List PendingMessage} (h : t.Leads calls q hs')
    (hrest : ∀ t' : TicketedQueue, t'.Follows q hs' → t'.Leads calls' q' hs'') :
    t.Leads (calls ++ calls') q' hs'' := by
  obtain ⟨t₁, hrun₁, hfollows⟩ := h
  obtain ⟨t₂, hrun₂, hend⟩ := hrest t₁ hfollows
  exact ⟨t₂, by rw [Machine.run_append, hrun₁, Option.bind_some, hrun₂], hend⟩

theorem TicketedQueue.Follows.leads_nil (h : t.Follows q hs) : t.Leads [] q hs :=
  ⟨t, rfl, h⟩

/-- One call. -/
theorem TicketedQueue.Leads.one {call : QueueOp}
    (h : ∃ t', t.step call = some t' ∧ t'.Follows q hs) : t.Leads [call] q hs :=
  .cons h fun _ => Follows.leads_nil

namespace MeshRouter

theorem leads_forward {msgs : List StoredMessage} {q : OutboundQueue} (h : t.Follows q hs)
    (clock : Nat → Instant) :
    t.Leads (forwardCalls codec msgs clock q) (forward codec msgs clock q) hs := by
  induction msgs generalizing t clock q with
  | nil => exact h.leads_nil
  | cons msg rest ih =>
      rw [forward_cons, forwardCalls]
      cases codec.decode msg.packetBytes with
      | none => exact ih h clock
      | some packet =>
          simp only
          cases henqueue : q.enqueue (msg.toPending packet (clock 0)) with
          | error back => exact .one (h.enqueue_full henqueue)
          | ok q' => exact .cons (h.enqueue henqueue) fun t' h' => ih h' _

theorem leads_timeouts {order : List UInt32} (acc : List UInt32 × MeshRouter)
    (h : t.Follows acc.2.outbound hs) :
    t.Leads (order.map .retry) (order.foldl timeoutStep acc).2.outbound hs := by
  induction order generalizing t acc with
  | nil => exact h.leads_nil
  | cons id order ih =>
      refine .cons (h.retry id) fun t' h' => ih (timeoutStep acc id) ?_
      rw [timeoutStep_eq]
      exact h'

/-- **An operation of the router** is its calls on the outbound queue. -/
theorem leads_perform {r r' : MeshRouter} {op : RouterOp} (h : t.Follows r.outbound hs)
    (hop : r.perform codec op = some r') : t.Leads (r.calls codec op) r'.outbound hs := by
  cases op with
  | send packet reachable options now nowMs trackedAt =>
      obtain rfl := Option.some.inj hop
      cases reachable with
      | true =>
          cases henqueue : r.outbound.enqueue (toPending packet options now) with
          | error back =>
              simp only [send, if_true, henqueue]
              exact .one (h.enqueue_full henqueue)
          | ok outbound =>
              simp only [send, if_true, henqueue]
              exact .one (h.enqueue henqueue)
      | false =>
          have houtbound : (r.send codec packet false options now nowMs trackedAt).2.outbound =
              r.outbound := by
            simp only [send, Bool.false_eq_true, if_false]
            split <;> rfl
          rw [houtbound]
          exact h.leads_nil
  | ack id hops now =>
      obtain rfl := Option.some.inj hop
      exact .one (h.handleAck id)
  | nak id reason =>
      obtain rfl := Option.some.inj hop
      exact .one (h.retry id)
  | timeouts now order =>
      simp only [perform] at hop
      split at hop
      · obtain rfl := Option.some.inj hop
        exact leads_timeouts ([], r) h
      · cases hop
  | maintenance expireAt pruneAt nowMs drainAt =>
      obtain rfl := Option.some.inj hop
      exact .one (h.drainExpired drainAt)
  | nodeCameOnline dest clock =>
      obtain rfl := Option.some.inj hop
      exact leads_forward h clock

/-- **The loop that takes messages** is a run of `next_to_send`. -/
theorem leads_drain {r : MeshRouter} (fuel : Nat) (clock : Nat → Instant × Instant)
    (h : t.Follows r.outbound hs) :
    t.Leads (r.drainCalls fuel clock) (r.drain fuel clock).2.outbound
      (hs ++ (r.drain fuel clock).1) := by
  induction fuel generalizing t r clock hs with
  | zero => simpa [drainCalls, drain] using h.leads_nil
  | succ fuel ih =>
      have hnext := h.nextToSend (clock 0).1
      have hfst : (r.nextToSend (clock 0).1 (clock 0).2).1 =
          (r.outbound.nextToSend (clock 0).1).1 := by
        rw [nextToSend_eq]
      have hsnd : (r.nextToSend (clock 0).1 (clock 0).2).2.outbound =
          (r.outbound.nextToSend (clock 0).1).2 := by
        rw [nextToSend_eq]
      rw [← hfst, ← hsnd] at hnext
      rw [drain_succ, drainCalls]
      cases hmsg : (r.nextToSend (clock 0).1 (clock 0).2).1 with
      | none =>
          rw [hmsg] at hnext
          exact .one hnext
      | some msg =>
          rw [hmsg] at hnext
          refine .cons hnext fun t' h' => ?_
          simpa using ih (fun i => clock (i + 1)) h'

end MeshRouter

namespace FlushTask

variable {f f' : FlushTask} {e : FlushEvent}

/-- **An event of the task** is its calls. -/
theorem leads_step (h : t.Follows f.router.outbound (f.transmitting.toList ++ f.unsent))
    (hstep : f.step codec e = some f') :
    t.Leads (f.calls codec e) f'.router.outbound (f'.transmitting.toList ++ f'.unsent) := by
  obtain ⟨op, router, rfl, hop, rfl⟩ | ⟨tick, r, rfl, hunsent, htransmitting, hr, rfl⟩ |
    ⟨msg, rest, rfl, hunsent, htransmitting, rfl⟩ | ⟨now, msg, rfl, htransmitting, rfl⟩ :=
      step_cases hstep
  · exact MeshRouter.leads_perform h hop
  · rw [hunsent, htransmitting] at h
    obtain ⟨middle, htimeouts, hmaintenance⟩ := Option.bind_eq_some_iff.mp hr
    simp only [calls, hr, Option.elim_some]
    refine .append (.append (MeshRouter.leads_perform h htimeouts) fun t' h' =>
      MeshRouter.leads_perform h' hmaintenance) fun t' h' => ?_
    exact MeshRouter.leads_drain _ tick.clock h'
  · rw [hunsent, htransmitting] at h
    exact h.leads_nil
  · rw [htransmitting] at h
    exact .one (h.trackInflight (i := 0) rfl _ now)

/-- **A run of the task** is a run of the ticketed queue over its calls. -/
theorem leads_run {events : List FlushEvent}
    (h : t.Follows f.router.outbound (f.transmitting.toList ++ f.unsent))
    (hrun : Machine.run (step codec) f events = some f') :
    t.Leads (f.runCalls codec events) f'.router.outbound (f'.transmitting.toList ++ f'.unsent) := by
  induction events generalizing f t with
  | nil =>
      obtain rfl := Option.some.inj hrun
      exact h.leads_nil
  | cons e events ih =>
      obtain ⟨middle, hmiddle, hrest⟩ := Option.bind_eq_some_iff.mp (Machine.run_cons ▸ hrun)
      rw [runCalls, hmiddle]
      exact .append (leads_step h hmiddle) fun t' h' => ih h' hrest

end FlushTask

end Akroasis.Mesh
