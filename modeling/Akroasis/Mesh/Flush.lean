import Akroasis.Mesh.System

/-!
# Akroasis.Mesh.Flush

The router flush task (`run_router_flush` in `collector.rs`).  At a tick it holds the
lock while it processes timeouts, runs maintenance and takes messages until
`next_to_send` returns none; it then transmits them outside the lock, one by one, and
tracks each after its transmission.  Other tasks call the router in between.

`next_to_send` compares the inflight table with `max_inflight`, but the table grows only
when a message is tracked, so a tick that finds one free slot takes everything that is
pending.  The bound on messages awaiting an acknowledgement therefore holds where at every
tick all pending messages fit (`Fits`); the bound on pending messages always holds.

A run of the task is a run of the system of `Akroasis.Mesh.System` (`system_run`).
-/

namespace Akroasis.Mesh

/-- The router, the messages taken but not transmitted, and the one transmitted but not
tracked. -/
structure FlushTask where
  router : MeshRouter
  unsent : List PendingMessage := []
  transmitting : Option PendingMessage := none

/-- The clock readings of a tick, and the order in which it visits timed out messages. -/
structure Tick where
  now : Instant
  order : List UInt32
  expireAt : Instant
  pruneAt : Instant
  nowMs : Nat
  drainAt : Instant
  -- of the calls of `next_to_send`
  clock : Nat → Instant × Instant

/-- What can happen to the task. -/
inductive FlushEvent where
  -- another task calls the router
  | op (op : RouterOp)
  | tick (tick : Tick)
  | transmit
  | track (now : Instant)

namespace MeshRouter

/-- The loop that takes messages until there is none. -/
def drain : Nat → (Nat → Instant × Instant) → MeshRouter → List PendingMessage × MeshRouter
  | 0, _, r => ([], r)
  | fuel + 1, clock, r =>
      match r.nextToSend (clock 0).1 (clock 0).2 with
      | (none, r) => ([], r)
      | (some msg, r) =>
          let (msgs, r) := drain fuel (fun i => clock (i + 1)) r
          (msg :: msgs, r)

/-- The router when the loop starts. -/
def beforeDrain (codec : PacketCodec) (r : MeshRouter) (t : Tick) : Option MeshRouter :=
  (r.perform codec (.timeouts t.now t.order)).bind fun r =>
    r.perform codec (.maintenance t.expireAt t.pruneAt t.nowMs t.drainAt)

end MeshRouter

namespace FlushTask

/-- A task over a router just configured. -/
def start (config : OutboundConfig) (maxQueuePerDest : Nat) : FlushTask where
  router := .withConfig config maxQueuePerDest

/-- One event; a tick is taken only when the last one is finished. -/
def step (codec : PacketCodec) (f : FlushTask) : FlushEvent → Option FlushTask
  | .op op => (f.router.perform codec op).map fun router => { f with router := router }
  | .tick t =>
      match f.unsent, f.transmitting with
      | [], none => (f.router.beforeDrain codec t).map fun r =>
          let (msgs, router) := r.drain (r.outbound.pending.length + 1) t.clock
          { router := router, unsent := msgs, transmitting := none }
      | _, _ => none
  | .transmit =>
      match f.unsent, f.transmitting with
      | msg :: rest, none => some { f with unsent := rest, transmitting := some msg }
      | _, _ => none
  | .track now => f.transmitting.map fun msg =>
      { f with router := f.router.trackSent msg now, transmitting := none }

/-- The number of messages transmitted and awaiting an acknowledgement. -/
def awaiting (f : FlushTask) : Nat :=
  f.router.outbound.inflight.size + f.transmitting.toList.length

/-- At a tick, once timeouts and maintenance are done, the pending messages fit into the
free slots, or there is no slot. -/
def Fits (codec : PacketCodec) (f : FlushTask) : FlushEvent → Prop
  | .tick t => ∀ r ∈ f.router.beforeDrain codec t,
      r.outbound.inflight.size < r.outbound.maxInflight →
        r.outbound.inflight.size + r.outbound.pending.length ≤ r.outbound.maxInflight
  | .op _ | .transmit | .track _ => True

instance (codec : PacketCodec) (f : FlushTask) : ∀ e, Decidable (f.Fits codec e)
  | .tick t => inferInstanceAs (Decidable (∀ r ∈ f.router.beforeDrain codec t,
      r.outbound.inflight.size < r.outbound.maxInflight →
        r.outbound.inflight.size + r.outbound.pending.length ≤ r.outbound.maxInflight))
  | .op _ | .transmit | .track _ => inferInstanceAs (Decidable True)

end FlushTask

/-! ## The loop -/

namespace MeshRouter

variable {codec : PacketCodec} {r r' : MeshRouter}

theorem drain_succ (fuel : Nat) (clock : Nat → Instant × Instant) (r : MeshRouter) :
    r.drain (fuel + 1) clock =
      match (r.nextToSend (clock 0).1 (clock 0).2).1 with
      | none => ([], (r.nextToSend (clock 0).1 (clock 0).2).2)
      | some msg =>
          let rest := (r.nextToSend (clock 0).1 (clock 0).2).2.drain fuel fun i => clock (i + 1)
          (msg :: rest.1, rest.2) := by
  rw [drain]
  obtain ⟨_ | msg, r'⟩ := r.nextToSend (clock 0).1 (clock 0).2 <;> rfl

/-- A call of `next_to_send` that returns a message takes it off the pending queue. -/
theorem length_pending_nextToSend (r : MeshRouter) (now sentAt : Instant) :
    (r.nextToSend now sentAt).2.outbound.pending.length +
      (r.nextToSend now sentAt).1.toList.length ≤ r.outbound.pending.length := by
  have hlen := congrArg List.length (OutboundQueue.pending_nextToSend r.outbound now)
  simp only [List.length_map, List.length_append] at hlen
  rw [nextToSend_eq]
  simp only
  omega

/-- The loop takes pending messages only, none if no slot is free, and leaves the table of
messages in flight as it is. -/
theorem drain_spec (fuel : Nat) (clock : Nat → Instant × Instant) (r : MeshRouter) :
    (r.drain fuel clock).2.outbound.inflight = r.outbound.inflight ∧
      OutboundQueue.Within (r.drain fuel clock).2.outbound r.outbound ∧
      (r.drain fuel clock).1.length ≤ r.outbound.pending.length ∧
      (r.outbound.maxInflight ≤ r.outbound.inflight.size → (r.drain fuel clock).1 = []) := by
  induction fuel generalizing clock r with
  | zero => exact ⟨rfl, .refl _, Nat.zero_le _, fun _ => rfl⟩
  | succ fuel ih =>
      set next := r.nextToSend (clock 0).1 (clock 0).2 with hnext
      have hlen := length_pending_nextToSend r (clock 0).1 (clock 0).2
      have houtbound : next.2.outbound = (r.outbound.nextToSend (clock 0).1).2 := by
        rw [hnext, nextToSend_eq]
      have hwithin : OutboundQueue.Within next.2.outbound r.outbound := by
        rw [houtbound]
        exact OutboundQueue.within_nextToSend _ _
      have hinflight : next.2.outbound.inflight = r.outbound.inflight := by
        rw [houtbound, OutboundQueue.nextToSend_snd]
      rw [drain_succ, ← hnext]
      cases hmsg : next.1 with
      | none => exact ⟨hinflight, hwithin, Nat.zero_le _, fun _ => rfl⟩
      | some msg =>
          obtain ⟨ihinflight, ihwithin, ihlen, -⟩ := ih (fun i => clock (i + 1)) next.2
          rw [← hnext, hmsg] at hlen
          simp only [Option.toList_some, List.length_singleton] at hlen
          refine ⟨ihinflight.trans hinflight, ihwithin.trans hwithin, ?_, fun hfull => ?_⟩
          · simp only [List.length_cons]
            omega
          · -- with no slot free `next_to_send` returns none
            rw [hnext, nextToSend_eq, OutboundQueue.nextToSend, if_pos hfull] at hmsg
            cases hmsg

end MeshRouter

/-! ## Bounds -/

theorem MeshRouter.within_beforeDrain {codec : PacketCodec} {r r' : MeshRouter} {t : Tick}
    (h : r.beforeDrain codec t = some r') : OutboundQueue.Within r'.outbound r.outbound := by
  obtain ⟨middle, htimeouts, hmaintenance⟩ := Option.bind_eq_some_iff.mp h
  exact (within_perform hmaintenance).trans (within_perform htimeouts)

namespace FlushTask

variable {codec : PacketCodec} {f f' : FlushTask} {e : FlushEvent} {config : OutboundConfig}

/-- What an event can do, by its kind. -/
theorem step_cases (h : f.step codec e = some f') :
    (∃ op router, e = .op op ∧ f.router.perform codec op = some router ∧
        f' = { f with router := router }) ∨
      (∃ t r, e = .tick t ∧ f.unsent = [] ∧ f.transmitting = none ∧
        f.router.beforeDrain codec t = some r ∧
        f' = {
          router := (r.drain (r.outbound.pending.length + 1) t.clock).2
          unsent := (r.drain (r.outbound.pending.length + 1) t.clock).1
          transmitting := none }) ∨
      (∃ msg rest, e = .transmit ∧ f.unsent = msg :: rest ∧ f.transmitting = none ∧
        f' = { f with unsent := rest, transmitting := some msg }) ∨
      ∃ now msg, e = .track now ∧ f.transmitting = some msg ∧
        f' = { f with router := f.router.trackSent msg now, transmitting := none } := by
  cases e with
  | op op =>
      obtain ⟨router, hop, rfl⟩ := Option.map_eq_some_iff.mp h
      exact .inl ⟨op, router, rfl, hop, rfl⟩
  | tick t =>
      simp only [step] at h
      split at h
      · next hunsent htransmitting =>
        obtain ⟨r, hr, rfl⟩ := Option.map_eq_some_iff.mp h
        exact .inr (.inl ⟨t, r, rfl, hunsent, htransmitting, hr, rfl⟩)
      · cases h
  | transmit =>
      simp only [step] at h
      split at h
      · next msg rest hunsent htransmitting =>
        obtain rfl := Option.some.inj h
        exact .inr (.inr (.inl ⟨msg, rest, rfl, hunsent, htransmitting, rfl⟩))
      · cases h
  | track now =>
      obtain ⟨msg, hmsg, rfl⟩ := Option.map_eq_some_iff.mp h
      exact .inr (.inr (.inr ⟨now, msg, rfl, hmsg, rfl⟩))

/-- The configured limits are in force and the pending queue keeps its own. -/
structure Limits (config : OutboundConfig) (f : FlushTask) : Prop where
  maxInflight : f.router.outbound.maxInflight = config.maxInflight
  maxPending : f.router.outbound.maxPending = config.maxPending
  pending : f.router.outbound.pending.length ≤ config.maxPending

theorem Limits.of_within (h : f.Limits config)
    (hwithin : OutboundQueue.Within f'.router.outbound f.router.outbound) : f'.Limits config where
  maxInflight := hwithin.maxInflight.trans h.maxInflight
  maxPending := hwithin.maxPending.trans h.maxPending
  pending := by
    have hpending := hwithin.pending (by rw [h.maxPending]; exact h.pending)
    rwa [hwithin.maxPending, h.maxPending] at hpending

theorem Limits.step (h : f.Limits config) (hstep : f.step codec e = some f') :
    f'.Limits config := by
  obtain ⟨op, router, -, hop, rfl⟩ | ⟨t, r, -, -, -, hr, rfl⟩ | ⟨msg, rest, -, -, -, rfl⟩ |
    ⟨now, msg, -, -, rfl⟩ := step_cases hstep
  · exact h.of_within (MeshRouter.within_perform hop)
  · have hdrain := (MeshRouter.drain_spec (r.outbound.pending.length + 1) t.clock r).2.1
    exact h.of_within (hdrain.trans (MeshRouter.within_beforeDrain hr))
  · exact ⟨h.maxInflight, h.maxPending, h.pending⟩
  · exact ⟨h.maxInflight, h.maxPending, h.pending⟩

/-- The messages in flight and those on their way. -/
def load (f : FlushTask) : Nat :=
  f.router.outbound.inflight.size + f.unsent.length + f.transmitting.toList.length

/-- An event that finds room keeps the load within the limit. -/
theorem load_step (h : f.Limits config) (hload : f.load ≤ config.maxInflight)
    (hfits : f.Fits codec e) (hstep : f.step codec e = some f') : f'.load ≤ config.maxInflight := by
  unfold load at hload ⊢
  obtain ⟨op, router, -, hop, rfl⟩ | ⟨t, r, rfl, hunsent, htransmitting, hr, rfl⟩ |
    ⟨msg, rest, -, hunsent, htransmitting, rfl⟩ | ⟨now, msg, -, htransmitting, rfl⟩ :=
      step_cases hstep
  · have hsize := (MeshRouter.within_perform hop).size
    simp only
    omega
  · have hwithin := MeshRouter.within_beforeDrain hr
    obtain ⟨hinflight, -, hlen, hnone⟩ :=
      MeshRouter.drain_spec (r.outbound.pending.length + 1) t.clock r
    have hmax : r.outbound.maxInflight = config.maxInflight :=
      hwithin.maxInflight.trans h.maxInflight
    have hsize := hwithin.size
    have hroom := hfits r hr
    simp only [hinflight, Option.toList_none, List.length_nil, Nat.add_zero]
    by_cases hfull : r.outbound.maxInflight ≤ r.outbound.inflight.size
    · rw [hnone hfull, List.length_nil]
      omega
    · have := hroom (Nat.lt_of_not_le hfull)
      omega
  · simp only [hunsent, htransmitting, List.length_cons, Option.toList_none,
      List.length_nil] at hload
    simp only [Option.toList_some, List.length_singleton]
    omega
  · have hsize := Table.size_insert_le f.router.outbound.inflight msg.packet.id
      ⟨msg.packet, msg.created, msg.ttl, now, msg.retries, f.router.outbound.maxRetries,
        f.router.ackTimeout⟩
    simp only [htransmitting, Option.toList_some, List.length_singleton] at hload
    simp only [Option.toList_none, List.length_nil, MeshRouter.trackSent,
      OutboundQueue.trackInflight]
    omega

/-- **Bounds of the flush task.**  In every run the pending messages stay within
`max_pending`, and in every run whose ticks find room, the messages awaiting an
acknowledgement stay within `max_inflight`. -/
theorem flush_bounds (codec : PacketCodec) (config : OutboundConfig) (maxQueuePerDest : Nat)
    (events : List FlushEvent) (f : FlushTask)
    (hrun : Machine.run (step codec) (start config maxQueuePerDest) events = some f) :
    f.router.outbound.pending.length ≤ config.maxPending ∧
      (Machine.Meets (step codec) (Fits codec) (start config maxQueuePerDest) events →
        f.awaiting ≤ config.maxInflight) := by
  have hstart : (start config maxQueuePerDest).Limits config := ⟨rfl, rfl, Nat.zero_le _⟩
  constructor
  · have hlimits : f.Limits config :=
      Machine.run_preserves (fun s e s' h hstep => h.step hstep) hstart hrun
    exact hlimits.pending
  · intro hmeets
    have hinv : f.Limits config ∧ f.load ≤ config.maxInflight :=
      Machine.run_invariant (I := fun f => f.Limits config ∧ f.load ≤ config.maxInflight)
        (fun s e s' h hfits hstep => ⟨h.1.step hstep, load_step h.1 h.2 hfits hstep⟩)
        ⟨hstart, Nat.zero_le _⟩ hmeets hrun
    have hload := hinv.2
    unfold load at hload
    unfold awaiting
    omega

/-- Two packets are pending and one slot is free: the tick takes both. -/
def twoPending : List FlushEvent :=
  [.op (.send (samplePacket 1) true {} 0 0 0), .op (.send (samplePacket 2) true {} 0 0 0),
    .tick ⟨1, [], 1, 1, 1, 1, fun _ => (1, 1)⟩, .transmit, .track 2, .transmit, .track 3]

/-- Two messages await an acknowledgement where one may. -/
theorem drain_overfills_inflight :
    (Machine.run (step sampleCodec) (start { maxInflight := 1 } 50) twoPending).map awaiting =
      some 2 := by
  decide +kernel

/-- With two slots the same run stays within its limits. -/
theorem two_slots_suffice :
    ∃ f, Machine.run (step sampleCodec) (start { maxInflight := 2 } 50) twoPending = some f ∧
      f.router.outbound.pending.length ≤ 1024 ∧ f.awaiting ≤ 2 := by
  obtain ⟨f, hf⟩ : ∃ f,
      Machine.run (step sampleCodec) (start { maxInflight := 2 } 50) twoPending = some f :=
    Option.isSome_iff_exists.mp (by decide +kernel)
  obtain ⟨hpending, hawaiting⟩ := flush_bounds sampleCodec { maxInflight := 2 } 50 _ f hf
  exact ⟨f, hf, hpending, hawaiting (by decide +kernel)⟩

end FlushTask

/-! ## The task as a run of the system -/

namespace MeshRouter

/-- The calls that the loop makes: one for every message, and the one that returns none. -/
def drainEvents : Nat → (Nat → Instant × Instant) → MeshRouter → List Event
  | 0, _, _ => []
  | fuel + 1, clock, r =>
      .nextToSend (clock 0).1 (clock 0).2 ::
        match r.nextToSend (clock 0).1 (clock 0).2 with
        | (none, _) => []
        | (some _, r) => drainEvents fuel (fun i => clock (i + 1)) r

/-- The messages that the loop drops because their TTL has passed, by the last call first. -/
def drainSkipped : Nat → (Nat → Instant × Instant) → MeshRouter → List UInt32
  | 0, _, _ => []
  | fuel + 1, clock, r =>
      (match r.nextToSend (clock 0).1 (clock 0).2 with
        | (none, _) => []
        | (some _, r) => drainSkipped fuel (fun i => clock (i + 1)) r) ++
      r.outbound.skipped (clock 0).1

/-- The loop is a run of `next_to_send`. -/
theorem system_drain (codec : PacketCodec) (fuel : Nat) (clock : Nat → Instant × Instant)
    (s : System) :
    Machine.run (System.step codec) s (s.router.drainEvents fuel clock) = some {
      router := (s.router.drain fuel clock).2
      handed := s.handed ++ (s.router.drain fuel clock).1
      history := { s.history with
        expired := s.router.drainSkipped fuel clock ++ s.history.expired } } := by
  induction fuel generalizing clock s with
  | zero => simp [drain, drainEvents, drainSkipped]
  | succ fuel ih =>
      rw [drainEvents, Machine.run_cons, System.step, Option.bind_some, drain, drainSkipped]
      cases hnext : s.router.nextToSend (clock 0).1 (clock 0).2 with
      | mk result r =>
          cases result with
          | none => simp
          | some msg =>
              simp only
              rw [show r = (System.mk r (s.handed ++ [msg]) s.history).router from rfl]
              simp [ih]

end MeshRouter

namespace FlushTask

variable {codec : PacketCodec} {f f' : FlushTask} {e : FlushEvent}

/-- The task's messages are with a caller of the router. -/
def toSystem (f : FlushTask) (history : History) : System where
  router := f.router
  handed := f.transmitting.toList ++ f.unsent
  history := history

/-- What an event of the task is for the system: a tick is timeouts, maintenance and the loop, and a
transmission takes place outside. -/
def systemEvents (codec : PacketCodec) (f : FlushTask) : FlushEvent → List Event
  | .op op => [.op op]
  | .tick t => .op (.timeouts t.now t.order) ::
      .op (.maintenance t.expireAt t.pruneAt t.nowMs t.drainAt) ::
        (f.router.beforeDrain codec t).elim [] fun r =>
          r.drainEvents (r.outbound.pending.length + 1) t.clock
  | .transmit => []
  | .track now => [.trackSent 0 now]

/-- What has happened to packets after an event. -/
def historyAfter (codec : PacketCodec) (f : FlushTask) (history : History) : FlushEvent → History
  | .op op => history.after codec f.router op
  | .tick t =>
      (f.router.perform codec (.timeouts t.now t.order)).elim history fun middle =>
        let op := .maintenance t.expireAt t.pruneAt t.nowMs t.drainAt
        let history :=
          (history.after codec f.router (.timeouts t.now t.order)).after codec middle op
        (middle.perform codec op).elim history fun r => { history with
          expired := r.drainSkipped (r.outbound.pending.length + 1) t.clock ++ history.expired }
  | .transmit | .track _ => history

/-- The events of a run of the task for the system, and its history. -/
def trace (codec : PacketCodec) : FlushTask → History → List FlushEvent → List Event × History
  | _, history, [] => ([], history)
  | f, history, e :: es =>
      (f.step codec e).elim ([], history) fun f' =>
        let rest := trace codec f' (f.historyAfter codec history e) es
        (f.systemEvents codec e ++ rest.1, rest.2)

/-- **Step**: an event of the task is some events of the system. -/
theorem system_step (hstep : f.step codec e = some f') (history : History) :
    Machine.run (System.step codec) (f.toSystem history) (f.systemEvents codec e) =
      some (f'.toSystem (f.historyAfter codec history e)) := by
  obtain ⟨op, router, rfl, hop, rfl⟩ | ⟨t, r, rfl, hunsent, htransmitting, hr, rfl⟩ |
    ⟨msg, rest, rfl, hunsent, htransmitting, rfl⟩ | ⟨now, msg, rfl, htransmitting, rfl⟩ :=
      step_cases hstep
  · simp [systemEvents, historyAfter, Machine.run_cons, System.step, toSystem, hop]
  · obtain ⟨middle, htimeouts, hmaintenance⟩ := Option.bind_eq_some_iff.mp hr
    simp only [systemEvents, historyAfter, hr, htimeouts, hmaintenance, Option.elim_some,
      Machine.run_cons, System.step, toSystem, Option.map_some, Option.bind_some, hunsent,
      htransmitting, Option.toList_none, List.nil_append]
    exact MeshRouter.system_drain codec (r.outbound.pending.length + 1) t.clock ⟨r, [], _⟩
  · simp [systemEvents, historyAfter, toSystem, hunsent, htransmitting]
  · simp [systemEvents, historyAfter, Machine.run_cons, System.step, toSystem, htransmitting]

/-- **Every run of the flush task is a run of the system**, with the events and the history of its
trace, so what holds in all runs of the system, of their states and of their events, holds for the
task. -/
theorem system_run {events : List FlushEvent}
    (hrun : Machine.run (step codec) f events = some f') (history : History) :
    Machine.run (System.step codec) (f.toSystem history) (f.trace codec history events).1 =
      some (f'.toSystem (f.trace codec history events).2) := by
  induction events generalizing f history with
  | nil =>
      obtain rfl := Option.some.inj hrun
      rfl
  | cons e events ih =>
      obtain ⟨middle, hmiddle, hrest⟩ := Option.bind_eq_some_iff.mp (Machine.run_cons ▸ hrun)
      rw [trace, hmiddle, Option.elim_some, Machine.run_append, system_step hmiddle,
        Option.bind_some]
      exact ih hrest _

/-- The two packets, by the steps of the system: they are sent, taken by two calls of
`next_to_send` (a third returns none), and tracked. -/
theorem system_run_twoPending : ∃ f events,
    Machine.run (step sampleCodec) (start { maxInflight := 2 } 50) twoPending = some f ∧
      Machine.run (System.step sampleCodec) ((start { maxInflight := 2 } 50).toSystem {}) events =
        some (f.toSystem { sent := [2, 1] }) ∧ events.length = 9 := by
  obtain ⟨f, hf⟩ : ∃ f,
      Machine.run (step sampleCodec) (start { maxInflight := 2 } 50) twoPending = some f :=
    Option.isSome_iff_exists.mp (by decide +kernel)
  have htrace : ((start { maxInflight := 2 } 50).trace sampleCodec {} twoPending).2 =
      { sent := [2, 1] } := by rfl
  have hrun := system_run hf {}
  rw [htrace] at hrun
  exact ⟨f, _, hf, hrun, by decide +kernel⟩

end FlushTask

end Akroasis.Mesh
