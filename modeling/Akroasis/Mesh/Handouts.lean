import Akroasis.Mesh.Calls

/-!
# Akroasis.Mesh.Handouts

How often a message is handed out for transmission.  The retry counter of a message goes
from the queue to the inflight table and back, and `retry` refuses a message whose counter
has reached `max_retries`.

A message that waits has been handed out as often as its counter says, and one that is with
a caller or in flight once more (`Counted`).  No two messages share a ticket, so a handout
changes the count of one message only.

The flush task is brought in by the calls it makes on the queue: its run and the run of the
ticketed queue over its calls end at the same queue (`FlushTask.leads_run`).
-/

namespace Akroasis.Mesh

/-- A call the router makes: messages are enqueued with no retries behind them, and never
marked as sent without having been handed out. -/
def QueueOp.Routed : QueueOp → Prop
  | .enqueue msg => msg.retries = 0
  | .markSent .. => False
  | .nextToSend _ | .trackInflight .. | .handleAck _ | .retry _ | .drainExpired _ => True

namespace TicketedQueue

variable {t t' : TicketedQueue} {op : QueueOp} {M : UInt8} {p : PendingMessage × Ticket}

/-- The messages in the queue, by the enqueue that accepted them. -/
def births (t : TicketedQueue) : Multiset Nat :=
  (t.line.map fun p => p.2.birth : List Nat) + (t.handed.map fun p => p.2.birth : List Nat) +
    t.flights.gather fun ticket => [ticket.birth]

theorem birth_mem_of_line (h : p ∈ t.line) : p.2.birth ∈ t.births := by
  have hmem : p.2.birth ∈ t.line.map fun p => p.2.birth := List.mem_map_of_mem h
  simp [births, hmem]

theorem birth_mem_of_handed (h : p ∈ t.handed) :
    p.2.birth ∈ t.births := by
  have hmem : p.2.birth ∈ t.handed.map fun p => p.2.birth := List.mem_map_of_mem h
  simp [births, hmem]

theorem birth_mem_of_flights {id : UInt32} {ticket : Ticket}
    (h : t.flights.lookup id = some ticket) :
    ticket.birth ∈ t.births := by
  rw [births, ← Table.gather_erase_add h]
  simp

theorem births_joined (t : TicketedQueue) (queue : OutboundQueue) (msg : PendingMessage)
    (ticket : Ticket) : (t.joined queue msg ticket).births = t.births + {ticket.birth} := by
  have hline : ((t.joined queue msg ticket).line.map fun p => p.2.birth : Multiset Nat) =
      ticket.birth ::ₘ (t.line.map fun p => p.2.birth : List Nat) :=
    Multiset.coe_eq_coe.mpr ((StableQueue.insert_perm priorityOf (msg, ticket) t.line).map _)
  rw [births, births, hline, ← Multiset.singleton_add]
  change _ + (t.handed.map fun p => p.2.birth : Multiset Nat) +
    t.flights.gather (fun ticket => [ticket.birth]) = _
  abel

theorem births_landed {id : UInt32} {ticket : Ticket} (h : t.flights.lookup id = some ticket) :
    (t.landed id).births + {ticket.birth} = t.births := by
  rw [births, births, ← Table.gather_erase_add h, ← add_assoc]
  rfl

theorem births_landed_le (t : TicketedQueue) (id : UInt32) : (t.landed id).births ≤ t.births := by
  cases h : t.flights.lookup id with
  | none =>
      have hflights : (t.landed id).flights = t.flights := Table.erase_of_none h
      rw [births, hflights]
      rfl
  | some ticket => exact births_landed h ▸ Multiset.le_add_right _ _

/-- A message on its way into flight. -/
theorem births_tracked {i : Nat} (h : t.handed[i]? = some p)
    (queue : OutboundQueue) (id : UInt32) :
    births { t with
      queue := queue, handed := t.handed.eraseIdx i, flights := t.flights.insert id p.2 } ≤
        t.births := by
  obtain ⟨hi, rfl⟩ := List.getElem?_eq_some_iff.mp h
  have hhanded : ((t.handed.map fun p => p.2.birth : List Nat) : Multiset Nat) =
      {t.handed[i].2.birth} + ((t.handed.eraseIdx i).map fun p => p.2.birth : List Nat) :=
    (Multiset.coe_eq_coe.mpr ((List.getElem_cons_eraseIdx_perm hi).map _)).symm
  refine le_trans (le_of_eq ?_) (births_landed_le t id)
  rw [births, births, Table.gather_insert]
  change _ = _ + (t.handed.map fun p => p.2.birth : Multiset Nat) +
    Table.gather (t.flights.erase id) fun ticket => [ticket.birth]
  rw [hhanded, Multiset.coe_singleton]
  change (t.line.map fun p => p.2.birth : Multiset Nat) + _ + _ =
    (t.line.map fun p => p.2.birth : Multiset Nat) + _ + _
  abel

/-- What is left of the messages handed out and in flight when one leaves the line. -/
theorem births_handedOut {now : Instant}
    {rest : List (PendingMessage × Ticket)}
    (h : t.line.dropWhile (fun p => p.1.isExpired now) = p :: rest) (queue : OutboundQueue)
    (log : List Nat) :
    births { t with queue := queue, line := rest, handed := t.handed ++ [p], log := log } =
        p.2.birth ::ₘ births { t with line := rest } ∧
      p.2.birth ::ₘ births { t with line := rest } ≤ t.births := by
  have hsub : (p :: rest).Sublist t.line := h ▸ List.dropWhile_sublist _
  have hle : p.2.birth ::ₘ (rest.map fun p => p.2.birth : Multiset Nat) ≤
      (t.line.map fun p => p.2.birth : List Nat) :=
    Multiset.coe_le.mpr (hsub.map fun p : PendingMessage × Ticket => p.2.birth).subperm
  constructor
  · simp only [births, List.map_append, ← Multiset.coe_add, List.map_singleton,
      ← Multiset.singleton_add, Multiset.coe_singleton]
    abel
  · simp only [births, ← Multiset.cons_add]
    exact add_le_add_left (add_le_add_left hle _) _

/-- A call of the router adds no message but the one it accepts. -/
theorem births_moves (h : Moves t op t') (hop : op.Routed) :
    (t'.births ≤ t.births ∧ t.issued ≤ t'.issued) ∨
      (t'.births = t.births + {t.issued} ∧ t'.issued = t.issued + 1) := by
  cases h with
  | idle => exact .inl ⟨le_rfl, le_rfl⟩
  | accepted => exact .inr ⟨births_joined t _ _ _, rfl⟩
  | emptied =>
      refine .inl ⟨?_, le_rfl⟩
      exact add_le_add_left (add_le_add_left (Multiset.zero_le _) _) _
  | handedOut hline =>
      obtain ⟨heq, hle⟩ := births_handedOut hline _ _
      exact .inl ⟨heq.trans_le hle, le_rfl⟩
  | marked => exact hop.elim
  | tracked hhanded => exact .inl ⟨births_tracked hhanded _ _, le_rfl⟩
  | removed => exact .inl ⟨births_landed_le t _, le_rfl⟩
  | requeued hmsg hticket =>
      have hlanded := births_landed hticket
      refine .inl ⟨?_, Nat.le_succ _⟩
      rw [births_joined]
      exact hlanded.le
  | drained =>
      refine .inl ⟨?_, le_rfl⟩
      exact add_le_add (add_le_add_left (Multiset.coe_le.mpr (List.filter_sublist.map _).subperm) _)
        (Table.gather_retain_le _ _ _)

/-! ## Counters -/

/-- Every message has been handed out as often as its counter says. -/
structure Counted (M : UInt8) (t : TicketedQueue) : Prop where
  maxRetries : t.queue.maxRetries = M
  line : ∀ p ∈ t.line, t.log.count p.2.birth = p.1.retries.toNat ∧ p.1.retries ≤ M
  handed : ∀ p ∈ t.handed, t.log.count p.2.birth = p.1.retries.toNat + 1 ∧ p.1.retries ≤ M
  flights : ∀ id msg ticket, t.queue.inflight.lookup id = some msg →
    t.flights.lookup id = some ticket →
      t.log.count ticket.birth = msg.retries.toNat + 1 ∧ msg.retries ≤ M ∧ msg.maxRetries = M
  nodup : t.births.Nodup
  issued : ∀ n ∈ t.births, n < t.issued
  log : ∀ n ∈ t.log, n < t.issued
  bound : ∀ n, t.log.count n ≤ M.toNat + 1

namespace Counted

theorem start (config : OutboundConfig) : (start config).Counted config.maxRetries where
  maxRetries := rfl
  line := fun _ h => nomatch h
  handed := fun _ h => nomatch h
  flights := fun _ _ _ h => nomatch h
  nodup := Multiset.nodup_zero
  issued := fun _ h => absurd h (Multiset.notMem_zero _)
  log := fun _ h => nomatch h
  bound := fun _ => Nat.zero_le _

/-- Messages stay distinct. -/
theorem distinct (h : t.Counted M) (hmoves : Moves t op t') (hop : op.Routed) :
    t'.births.Nodup ∧ ∀ n ∈ t'.births, n < t'.issued := by
  obtain ⟨hle, hissued⟩ | ⟨heq, hissued⟩ := births_moves hmoves hop
  · exact ⟨Multiset.nodup_of_le hle h.nodup,
      fun n hn => (h.issued n (Multiset.mem_of_le hle hn)).trans_le hissued⟩
  · rw [heq, hissued]
    refine ⟨Multiset.nodup_add.mpr ⟨h.nodup, Multiset.nodup_singleton _, ?_⟩, fun n hn => ?_⟩
    · rw [Multiset.disjoint_singleton]
      exact fun hmem => absurd (h.issued _ hmem) (lt_irrefl _)
    · obtain hn | hn := Multiset.mem_add.mp hn
      · exact (h.issued n hn).trans (Nat.lt_succ_self _)
      · rw [Multiset.mem_singleton.mp hn]
        exact Nat.lt_succ_self _

variable {queue : OutboundQueue}

/-- A message that joins the line. -/
theorem line_joined (h : t.Counted M) {msg : PendingMessage} {ticket : Ticket}
    (hcount : t.log.count ticket.birth = msg.retries.toNat) (hle : msg.retries ≤ M) :
    ∀ p ∈ (t.joined queue msg ticket).line,
      t.log.count p.2.birth = p.1.retries.toNat ∧ p.1.retries ≤ M := by
  intro p hp
  obtain rfl | hp := StableQueue.mem_insert.mp hp
  · exact ⟨hcount, hle⟩
  · exact h.line p hp

/-- A message that has landed. -/
theorem landed (h : t.Counted M) (id : UInt32) : (t.landed id).Counted M where
  maxRetries := h.maxRetries
  line := h.line
  handed := h.handed
  flights := by
    intro k msg ticket hmsg hticket
    obtain ⟨hmsg, hticket⟩ := aboard_of_landed hmsg hticket
    exact h.flights k msg ticket hmsg hticket
  nodup := Multiset.nodup_of_le (births_landed_le t id) h.nodup
  issued := fun n hn => h.issued n (Multiset.mem_of_le (births_landed_le t id) hn)
  log := h.log
  bound := h.bound

/-- A handout is counted for one message only. -/
theorem count_handedOut {line : List (PendingMessage × Ticket)} {b n : Nat}
    (hnodup : (b ::ₘ births { t with line := line }).Nodup)
    (hn : n ∈ births { t with line := line }) : (b :: t.log).count n = t.log.count n := by
  refine List.count_cons_of_ne fun heq => ?_
  exact (Multiset.nodup_cons.mp hnodup).1 (heq ▸ hn)

/-- A message that is accepted. -/
theorem accepted (h : t.Counted M) {msg : PendingMessage} (hnew : msg.retries = 0)
    (henqueue : t.queue.enqueue msg = .ok queue)
    (ht' : t' = t.joined queue msg ⟨t.issued, t.issued, msg.priority⟩) (hnodup : t'.births.Nodup)
    (hissued : ∀ n ∈ t'.births, n < t'.issued) : t'.Counted M := by
  subst ht'
  obtain rfl := enqueue_ok henqueue
  have hzero : t.log.count t.issued = msg.retries.toNat := by
    rw [hnew]
    exact List.count_eq_zero.mpr fun hmem => absurd (h.log _ hmem) (lt_irrefl _)
  exact ⟨h.maxRetries, h.line_joined hzero (hnew ▸ UInt8.zero_le), h.handed, h.flights, hnodup,
    hissued, fun n hn => (h.log n hn).trans (Nat.lt_succ_self _), h.bound⟩

/-- A message that is handed out. -/
theorem handedOut (h : t.Counted M) {now : Instant} {p : PendingMessage × Ticket}
    {rest : List (PendingMessage × Ticket)}
    (hline : t.line.dropWhile (fun p => p.1.isExpired now) = p :: rest)
    (ht' : t' = { t with
      queue := { t.queue with pending := rest.map Prod.fst }
      line := rest
      handed := t.handed ++ [p]
      log := p.2.birth :: t.log }) (hnodup : t'.births.Nodup)
    (hissued : ∀ n ∈ t'.births, n < t'.issued) : t'.Counted M := by
  subst ht'
  have hp : p ∈ t.line := (List.dropWhile_sublist _).subset (hline ▸ List.mem_cons_self)
  have hrest : ∀ q ∈ rest, q ∈ t.line := fun q hq =>
    (List.dropWhile_sublist _).subset (hline ▸ List.mem_cons_of_mem p hq)
  obtain ⟨hcount, hle⟩ := h.line p hp
  have hothers : ∀ n ∈ births { t with line := rest },
      (p.2.birth :: t.log).count n = t.log.count n :=
    fun n hn => count_handedOut ((births_handedOut hline _ _).1 ▸ hnodup) hn
  have hself : (p.2.birth :: t.log).count p.2.birth = p.1.retries.toNat + 1 := by
    rw [List.count_cons_self, hcount]
  refine ⟨h.maxRetries, fun q hq => ?_, fun q hq => ?_, fun id msg ticket hmsg hticket => ?_,
    hnodup, hissued, fun n hn => ?_, fun n => ?_⟩
  · rw [hothers _ (birth_mem_of_line (t := { t with line := rest }) hq)]
    exact h.line q (hrest q hq)
  · obtain hq | hq := List.mem_append.mp hq
    · rw [hothers _ (birth_mem_of_handed (t := { t with line := rest }) hq)]
      exact h.handed q hq
    · obtain rfl := List.mem_singleton.mp hq
      exact ⟨hself, hle⟩
  · rw [hothers _ (birth_mem_of_flights (t := { t with line := rest }) hticket)]
    exact h.flights id msg ticket hmsg hticket
  · obtain rfl | hn := List.mem_cons.mp hn
    · exact h.issued _ (birth_mem_of_line hp)
    · exact h.log n hn
  · by_cases hn : n = p.2.birth
    · rw [hn, hself]
      exact Nat.succ_le_succ hle
    · rw [List.count_cons_of_ne (Ne.symm hn)]
      exact h.bound n

/-- A message that is retried. -/
theorem requeued (h : t.Counted M) {id : UInt32} {msg : InflightMessage} {ticket : Ticket}
    (hmsg : t.queue.inflight.lookup id = some msg)
    (hticket : t.flights.lookup id = some ticket) (hlt : msg.retries < msg.maxRetries)
    (henqueue : (t.landed id).queue.enqueue msg.requeued = .ok queue)
    (ht' : t' = (t.landed id).joined queue msg.requeued { ticket with number := t.issued })
    (hnodup : t'.births.Nodup) (hissued : ∀ n ∈ t'.births, n < t'.issued) : t'.Counted M := by
  subst ht'
  obtain rfl := enqueue_ok henqueue
  obtain ⟨hcount, -, hmax⟩ := h.flights id msg ticket hmsg hticket
  have hnat : msg.retries.toNat < msg.maxRetries.toNat := hlt
  have hsucc : msg.requeued.retries.toNat = msg.retries.toNat + 1 := by
    have hbound := msg.maxRetries.toNat_lt
    simp only [InflightMessage.requeued, UInt8.toNat_add, UInt8.toNat_one]
    omega
  have hle : msg.requeued.retries ≤ M := by
    rw [← hmax, UInt8.le_iff_toNat_le, hsucc]
    exact hnat
  have hlanded := h.landed id
  exact ⟨h.maxRetries, hlanded.line_joined (hcount.trans hsucc.symm) hle, h.handed,
    hlanded.flights, hnodup, hissued, fun n hn => (h.log n hn).trans (Nat.lt_succ_self _),
    h.bound⟩

/-- **A call keeps the count.** -/
theorem step (h : t.Counted M) (hordered : t.Ordered) (hop : op.Routed)
    (hstep : t.step op = some t') : t'.Counted M := by
  have hmoves := hordered.moves hstep
  obtain ⟨hnodup, hissued⟩ := h.distinct hmoves hop
  cases hmoves with
  | idle => exact h
  | accepted henqueue => exact h.accepted hop henqueue rfl hnodup hissued
  | emptied =>
      exact ⟨h.maxRetries, fun _ hp => (nomatch hp), h.handed, h.flights, hnodup, hissued, h.log,
        h.bound⟩
  | handedOut hline => exact h.handedOut hline rfl hnodup hissued
  | marked => exact hop.elim
  | @tracked i timeout now p hhanded =>
      refine ⟨h.maxRetries, h.line, fun q hq => h.handed q (List.mem_of_mem_eraseIdx hq),
        fun id msg ticket hmsg hticket => ?_, hnodup, hissued, h.log, h.bound⟩
      obtain ⟨rfl, rfl⟩ | ⟨hmsg, hticket⟩ := aboard_of_insert hmsg hticket
      · obtain ⟨hcount, hle⟩ := h.handed p (List.mem_of_getElem? hhanded)
        exact ⟨hcount, hle, h.maxRetries⟩
      · exact h.flights id msg ticket hmsg hticket
  | removed => exact h.landed _
  | requeued hmsg hticket hlt henqueue =>
      exact h.requeued hmsg hticket hlt henqueue rfl hnodup hissued
  | @drained now =>
      refine ⟨h.maxRetries, fun q hq => h.line q (List.mem_of_mem_filter hq), h.handed,
        fun id msg ticket hmsg hticket => ?_, hnodup, hissued, h.log, h.bound⟩
      obtain ⟨hmsg, hticket⟩ := aboard_of_drained hmsg hticket
      exact h.flights id msg ticket hmsg hticket

end Counted

end TicketedQueue

/-! ## The bound -/

namespace MeshRouter

theorem routed_forwardCalls (codec : PacketCodec) (msgs : List StoredMessage)
    (clock : Nat → Instant) (q : OutboundQueue) :
    ∀ call ∈ forwardCalls codec msgs clock q, call.Routed := by
  induction msgs generalizing clock q with
  | nil => exact List.forall_mem_nil _
  | cons msg rest ih =>
      rw [forwardCalls]
      split
      · exact ih clock q
      · refine List.forall_mem_cons.mpr ⟨rfl, ?_⟩
        split
        · exact List.forall_mem_nil _
        · exact ih _ _

theorem routed_calls (codec : PacketCodec) (r : MeshRouter) (op : RouterOp) :
    ∀ call ∈ r.calls codec op, call.Routed := by
  cases op with
  | send packet reachable =>
      cases reachable with
      | true => exact List.forall_mem_singleton.mpr rfl
      | false => exact List.forall_mem_nil _
  | ack id => exact List.forall_mem_singleton.mpr trivial
  | nak id => exact List.forall_mem_singleton.mpr trivial
  | timeouts now order => exact List.forall_mem_map.mpr fun _ _ => trivial
  | maintenance => exact List.forall_mem_singleton.mpr trivial
  | nodeCameOnline dest clock => exact routed_forwardCalls codec _ clock _

theorem routed_drainCalls (fuel : Nat) (clock : Nat → Instant × Instant) (r : MeshRouter) :
    ∀ call ∈ r.drainCalls fuel clock, call.Routed := by
  induction fuel generalizing clock r with
  | zero => exact List.forall_mem_nil _
  | succ fuel ih =>
      rw [drainCalls]
      refine List.forall_mem_cons.mpr ⟨trivial, ?_⟩
      split
      · exact List.forall_mem_nil _
      · exact ih _ _

end MeshRouter

namespace FlushTask

theorem routed_calls (codec : PacketCodec) (f : FlushTask) (e : FlushEvent) :
    ∀ call ∈ f.calls codec e, call.Routed := by
  cases e with
  | op op => exact MeshRouter.routed_calls codec f.router op
  | tick t =>
      refine List.forall_mem_append.mpr ⟨List.forall_mem_append.mpr
        ⟨List.forall_mem_map.mpr fun _ _ => trivial, List.forall_mem_singleton.mpr trivial⟩, ?_⟩
      cases f.router.beforeDrain codec t with
      | none => exact List.forall_mem_nil _
      | some r => exact MeshRouter.routed_drainCalls _ _ r
  | transmit => exact List.forall_mem_nil _
  | track now => exact List.forall_mem_singleton.mpr trivial

theorem routed_runCalls (codec : PacketCodec) (f : FlushTask) (events : List FlushEvent) :
    ∀ call ∈ f.runCalls codec events, call.Routed := by
  induction events generalizing f with
  | nil => exact List.forall_mem_nil _
  | cons e events ih =>
      refine List.forall_mem_append.mpr ⟨routed_calls codec f e, ?_⟩
      cases f.step codec e with
      | none => exact List.forall_mem_nil _
      | some f' => exact ih f'

/-- **Handouts are bounded.**  In every run of the flush task, every message that the
outbound queue accepted has been handed out at most `max_retries + 1` times. -/
theorem handouts_le (codec : PacketCodec) (config : OutboundConfig) (maxQueuePerDest : Nat)
    (events : List FlushEvent) (f : FlushTask)
    (hrun : Machine.run (step codec) (start config maxQueuePerDest) events = some f) :
    ∃ t, Machine.run TicketedQueue.step (TicketedQueue.start config)
        ((start config maxQueuePerDest).runCalls codec events) = some t ∧
      t.queue = f.router.outbound ∧ t.handed.map Prod.fst = f.transmitting.toList ++ f.unsent ∧
      ∀ birth, t.log.count birth ≤ config.maxRetries.toNat + 1 := by
  have hstart :
      (TicketedQueue.start config).Follows (start config maxQueuePerDest).router.outbound [] :=
    ⟨TicketedQueue.Ordered.start config, rfl, rfl⟩
  obtain ⟨t, ht, hfollows⟩ := leads_run hstart hrun
  obtain ⟨-, hcounted⟩ : t.Ordered ∧ t.Counted config.maxRetries :=
    Machine.run_invariant (I := fun t => t.Ordered ∧ t.Counted config.maxRetries)
      (P := fun _ call => call.Routed)
      (fun _ _ _ h hcall hstep => ⟨h.1.step hstep, h.2.step h.1 hcall hstep⟩)
      ⟨TicketedQueue.Ordered.start config, TicketedQueue.Counted.start config⟩
      (Machine.meets_of_forall_mem (fun call hcall _ => routed_runCalls codec _ events call hcall)
        _) ht
  exact ⟨t, ht, hfollows.queue, hfollows.handed, hcounted.bound⟩

/-- One packet, sent, not acknowledged, retried by a NAK and then by a timeout. -/
def retriedTwice : List FlushEvent :=
  let tick now order : FlushEvent := .tick ⟨now, order, now, now, 0, now, fun _ => (now, now)⟩
  [.op (.send (samplePacket 1) true {} 0 0 0), tick 1 [], .transmit, .track 2,
    .op (.nak 1 .noRoute), tick 3 [], .transmit, .track 4, tick (fromSecs 40) [1]]

/-- With one retry the packet is handed out twice, and the timeout gives it up. -/
theorem handouts_le_two :
    ∃ f t, Machine.run (step sampleCodec) (start { maxRetries := 1 } 50) retriedTwice = some f ∧
      Machine.run TicketedQueue.step (TicketedQueue.start { maxRetries := 1 })
        ((start { maxRetries := 1 } 50).runCalls sampleCodec retriedTwice) = some t ∧
      t.log = [0, 0] ∧ f.router.outbound.pending = [] ∧ ∀ birth, t.log.count birth ≤ 2 := by
  have hview : (Machine.run (step sampleCodec) (start { maxRetries := 1 } 50) retriedTwice).map
      (fun f => f.router.outbound.pending) = some [] := by decide +kernel
  obtain ⟨f, hf, hpending⟩ := Option.map_eq_some_iff.mp hview
  obtain ⟨t, ht, -, -, hbound⟩ := handouts_le sampleCodec { maxRetries := 1 } 50 _ f hf
  have hlog : (Machine.run TicketedQueue.step (TicketedQueue.start { maxRetries := 1 })
      ((start { maxRetries := 1 } 50).runCalls sampleCodec retriedTwice)).map TicketedQueue.log =
        some [0, 0] := by decide +kernel
  rw [ht] at hlog
  exact ⟨f, t, hf, ht, Option.some.inj hlog, hpending, hbound⟩

end FlushTask

end Akroasis.Mesh
