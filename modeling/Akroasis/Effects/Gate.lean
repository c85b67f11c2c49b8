import Akroasis.Effects.Agreement

/-!
# Akroasis.Effects.Gate

The gate in front of a protected effect (`akroasis/src/caller.rs`): authorise, append the
intent, authorise again, run the effect once, append its outcome.

`executeEffect` acts on a state `S` that the ledger and the effect share, with any ledger,
any effect and any clock.  To say in which order things happen it is run with a ledger and
an effect that also write down what they did (`traced`); `executeEffect_traced` lists all the
traces there are, and `executeEffect_sound` is read off that list.
-/

namespace Akroasis.Effects

/-- One request for a protected effect. -/
structure EffectRequest where
  requirement : AuthorizationRequirement
  descriptor : EffectDescriptor
  deriving DecidableEq

/-- Admission decision made before domain I/O. -/
inductive AdmissionDecision where
  | ready | cancelled | backpressured
  deriving DecidableEq

/-- What an effect reports. -/
structure EffectExecution where
  outcome : EffectOutcome
  evidenceDigest : Option EvidenceDigest
  deriving DecidableEq

/-- Terminal state of an effect whose outcome was appended. -/
structure EffectCompletion where
  outcome : EffectOutcome
  receiptDigest : ReceiptDigest
  recovery : Option RecoveryAuthorization
  deriving DecidableEq

/-- Errors of the gate, over the errors `E` of the ledger. -/
inductive EffectGateError (E : Type*) where
  | denied (denial : AuthorizationDenial)
  | receiptContract (source : EffectReceiptError)
  | intentAudit (source : E)
  | postIntentDenied (denial : AuthorizationDenial) (receiptDigest : ReceiptDigest)
      (recovery : Option RecoveryAuthorization)
  | postIntentContract (source : EffectReceiptError) (recovery : RecoveryTicket)
  | outcomeAudit (source : E) (recovery : RecoveryTicket)
  deriving DecidableEq

section Source

variable {S E : Type}

/-- `append_effect_outcome`. -/
def appendEffectOutcome (persisted : PersistedIntent) (observedAt : Timestamp)
    (execution : EffectExecution) (sink : EffectReceiptSink S E) (s : S) :
    Except (EffectGateError E) PersistedOutcome × S :=
  match persisted.outcome observedAt execution.outcome execution.evidenceDigest with
  | .error error => (.error (.postIntentContract error.source error.recovery), s)
  | .ok pending =>
      match pending.appendTo sink s with
      | (.error error, s) => (.error (.outcomeAudit error.source error.recovery), s)
      | (.ok outcome, s) => (.ok outcome, s)

/-- The authority to recover an outcome, if it needs recovery. -/
def recoveryIfNeeded (persisted : PersistedOutcome) (outcome : EffectOutcome) :
    Except (EffectGateError E) (Option RecoveryAuthorization) :=
  if outcomeNeedsRecovery outcome persisted.receipt.recovery then
    match persisted.intoRecoveryAuthorization with
    | .error source => .error (.receiptContract source)
    | .ok recovery => .ok (some recovery)
  else .ok none

/-- `completion_from_persisted`. -/
def completionFromPersisted (persisted : PersistedOutcome) :
    Except (EffectGateError E) EffectCompletion :=
  match persisted.outcome with
  | .error source => .error (.receiptContract source)
  | .ok recorded =>
      (recoveryIfNeeded persisted recorded).map fun recovery =>
        ⟨recorded, persisted.digest, recovery⟩

/-- The answer for an authorization that lapsed after the intent. -/
def deniedAfterIntent (denial : AuthorizationDenial) (persisted : PersistedOutcome) :
    Except (EffectGateError E) EffectCompletion :=
  match recoveryIfNeeded persisted .authorizationDenied with
  | .error error => .error error
  | .ok recovery => .error (.postIntentDenied denial persisted.digest recovery)

/-- What an admitted effect reports, or the outcome of one that was not admitted. -/
def AdmissionDecision.execute (admission : AdmissionDecision) (effect : S → EffectExecution × S)
    (s : S) : EffectExecution × S :=
  match admission with
  | .ready => effect s
  | .cancelled => (⟨.cancelled, none⟩, s)
  | .backpressured => (⟨.backpressured, none⟩, s)

/-- `execute_effect` once the intent is durable. -/
def executePersisted (caller : Option ValidatedCaller) (request : EffectRequest)
    (clock : Nat → Timestamp) (admission : AdmissionDecision) (sink : EffectReceiptSink S E)
    (effect : S → EffectExecution × S) (persisted : PersistedIntent) (s : S) :
    Except (EffectGateError E) EffectCompletion × S :=
  let authorizedAt := clock 0
  let effectTime := clock 1
  let effectAuthorization :=
    if effectTime < authorizedAt then .error .clockRegression
    else authorizeCaller caller request.requirement effectTime
  match effectAuthorization with
  | .error denial =>
      match appendEffectOutcome persisted (max effectTime authorizedAt) ⟨.authorizationDenied, none⟩
        sink s with
      | (.error error, s) => (.error error, s)
      | (.ok denied, s) => (deniedAfterIntent denial denied, s)
  | .ok _ =>
      let (execution, s) := admission.execute effect s
      match appendEffectOutcome persisted (clock 2) execution sink s with
      | (.error error, s) => (.error error, s)
      | (.ok outcome, s) => (completionFromPersisted outcome, s)

/-- `execute_effect`: `clock i` is the `i`-th reading of the clock. -/
def executeEffect (caller : Option ValidatedCaller) (request : EffectRequest)
    (clock : Nat → Timestamp) (admission : AdmissionDecision) (sink : EffectReceiptSink S E)
    (effect : S → EffectExecution × S) (s : S) : Except (EffectGateError E) EffectCompletion × S :=
  match authorizeCaller caller request.requirement (clock 0) with
  | .error denial => (.error (.denied denial), s)
  | .ok authorized =>
      match EffectReceipt.intent authorized request.descriptor (clock 0) with
      | .error source => (.error (.receiptContract source), s)
      | .ok intent =>
          match (PendingIntent.mk intent).appendTo sink s with
          | (.error source, s) => (.error (.intentAudit source), s)
          | (.ok persisted, s) =>
              executePersisted caller request clock admission sink effect persisted s

end Source

/-! ## Traces -/

/-- Something that happened while the gate ran. -/
inductive GateAction (E : Type) where
  | append (receipt : EffectReceipt) (answer : Except E ReceiptDigest)
  | effect
  deriving DecidableEq

/-- A state with the actions that led to it, oldest first. -/
structure Traced (S E : Type) where
  state : S
  trace : List (GateAction E)

variable {S E : Type}

/-- A ledger that writes down what it is asked. -/
def EffectReceiptSink.traced (sink : EffectReceiptSink S E) : EffectReceiptSink (Traced S E) E where
  append s receipt :=
    let (answer, state) := sink.append s.state receipt
    (answer, ⟨state, s.trace ++ [.append receipt answer]⟩)

/-- An effect that writes down that it ran. -/
def tracedEffect (effect : S → EffectExecution × S) (s : Traced S E) :
    EffectExecution × Traced S E :=
  let (execution, state) := effect s.state
  (execution, ⟨state, s.trace ++ [.effect]⟩)

variable (persisted : PersistedIntent) (outcome : PersistedOutcome) {o : EffectOutcome}
  (sink : EffectReceiptSink S E) {effect : S → EffectExecution × S} (s : Traced S E)
  {caller : Option ValidatedCaller} {request : EffectRequest} {clock : Nat → Timestamp}
  {admission : AdmissionDecision}

/-- Authority to recover is there whenever an outcome needs it. -/
theorem recoveryIfNeeded_ok (h : outcome.receipt.event = .outcome o) :
    ∃ recovery, recoveryIfNeeded (E := E) outcome o = .ok recovery := by
  unfold recoveryIfNeeded
  cases hneeds : outcomeNeedsRecovery o outcome.receipt.recovery with
  | false => exact ⟨none, rfl⟩
  | true =>
      obtain ⟨effect, hunresolved⟩ := (EffectReceipt.outcomeNeedsRecovery_iff h).mp hneeds
      have hauth := EffectReceipt.intoRecoveryAuthorization_eq_ok_iff.mpr ⟨effect, hunresolved, rfl⟩
      exact ⟨_, by rw [hauth]; rfl⟩

theorem completionFromPersisted_ok (h : outcome.receipt.event = .outcome o) :
    ∃ recovery, completionFromPersisted (E := E) outcome = .ok ⟨o, outcome.digest, recovery⟩ := by
  obtain ⟨recovery, hrecovery⟩ := recoveryIfNeeded_ok (E := E) outcome h
  exact ⟨recovery,
    by simp [completionFromPersisted, PersistedOutcome.outcome, h, hrecovery, Except.map]⟩

theorem deniedAfterIntent_error (denial : AuthorizationDenial)
    (h : outcome.receipt.event = .outcome .authorizationDenied) :
    ∃ recovery, deniedAfterIntent (E := E) denial outcome =
      .error (.postIntentDenied denial outcome.digest recovery) := by
  obtain ⟨recovery, hrecovery⟩ := recoveryIfNeeded_ok (E := E) outcome h
  exact ⟨recovery, by simp [deniedAfterIntent, hrecovery]⟩

/-- The outcome either cannot be built, or it is built and the ledger is asked. -/
theorem appendEffectOutcome_traced (observedAt : Timestamp) (execution : EffectExecution) :
    (∃ source, appendEffectOutcome persisted observedAt execution sink.traced s =
        (.error (.postIntentContract source ⟨persisted⟩), s)) ∨
      ∃ receipt state, persisted.receipt.outcomeFrom persisted.digest observedAt execution.outcome
          execution.evidenceDigest = .ok receipt ∧
        ((∃ source, appendEffectOutcome persisted observedAt execution sink.traced s =
            (.error (.outcomeAudit source ⟨persisted⟩),
              ⟨state, s.trace ++ [.append receipt (.error source)]⟩)) ∨
          ∃ digest, appendEffectOutcome persisted observedAt execution sink.traced s =
            (.ok ⟨receipt, digest⟩, ⟨state, s.trace ++ [.append receipt (.ok digest)]⟩)) := by
  cases hbuilt : persisted.receipt.outcomeFrom persisted.digest observedAt execution.outcome
      execution.evidenceDigest with
  | error source =>
      exact .inl ⟨source, by simp [appendEffectOutcome, PersistedIntent.outcome, hbuilt]⟩
  | ok receipt =>
      obtain ⟨answer, state, hanswer⟩ : ∃ answer state, sink.append s.state receipt =
          (answer, state) :=
        ⟨_, _, rfl⟩
      refine .inr ⟨receipt, state, rfl, ?_⟩
      cases answer with
      | error source =>
          exact .inl ⟨source, by simp [appendEffectOutcome, PersistedIntent.outcome, hbuilt,
            PendingOutcome.appendTo, EffectReceiptSink.traced, hanswer]⟩
      | ok digest =>
          exact .inr ⟨digest, by simp [appendEffectOutcome, PersistedIntent.outcome, hbuilt,
            PendingOutcome.appendTo, EffectReceiptSink.traced, hanswer]⟩

/-- The ways in which a run ends once `persisted` is durable: its result, and what the
ledger was asked last. -/
inductive Ending (persisted : PersistedIntent) :
    Except (EffectGateError E) EffectCompletion → List (GateAction E) → Prop
  | contract (source : EffectReceiptError) :
      Ending persisted (.error (.postIntentContract source ⟨persisted⟩)) []
  | audit (receipt : EffectReceipt) (source : E) :
      Ending persisted (.error (.outcomeAudit source ⟨persisted⟩)) [.append receipt (.error source)]
  | denied {receipt : EffectReceipt} {digest : ReceiptDigest} (denial : AuthorizationDenial)
      (recovery : Option RecoveryAuthorization)
      (hchild : receipt.validateChildOf persisted.receipt persisted.digest = .ok .outcome) :
      Ending persisted (.error (.postIntentDenied denial digest recovery))
        [.append receipt (.ok digest)]
  | completed {receipt : EffectReceipt} {digest : ReceiptDigest} {o : EffectOutcome}
      (recovery : Option RecoveryAuthorization) (hevent : receipt.event = .outcome o)
      (hchild : receipt.validateChildOf persisted.receipt persisted.digest = .ok .outcome) :
      Ending persisted (.ok ⟨o, digest, recovery⟩) [.append receipt (.ok digest)]

/-- What must hold for the effect to run. -/
structure Granted (caller : Option ValidatedCaller) (request : EffectRequest)
    (clock : Nat → Timestamp) (admission : AdmissionDecision) : Prop where
  authorized : ∃ a, authorizeCaller caller request.requirement (clock 0) = .ok a
  ordered : clock 0 ≤ clock 1
  reauthorized : ∃ a, authorizeCaller caller request.requirement (clock 1) = .ok a
  admitted : admission = .ready

variable (effect) (admission) in
/-- Past the intent the effect runs if it is granted, and the run ends in one of the ways of
`Ending`. -/
theorem executePersisted_traced
    (hauth : ∃ a, authorizeCaller caller request.requirement (clock 0) = .ok a) :
    ∃ result state ran rest,
      executePersisted caller request clock admission sink.traced (tracedEffect effect)
        persisted s =
        (result, ⟨state, s.trace ++ ran ++ rest⟩) ∧
      Ending persisted result rest ∧
      (ran = [] ∨ ran = [.effect] ∧ Granted caller request clock admission) := by
  unfold executePersisted
  generalize hagain : (if clock 1 < clock 0 then .error .clockRegression
    else authorizeCaller caller request.requirement (clock 1)) = again
  cases again with
  | error denial =>
      rcases appendEffectOutcome_traced persisted sink s (max (clock 1) (clock 0))
        ⟨.authorizationDenied, none⟩ with
        ⟨source, happend⟩ | ⟨receipt, state, hbuilt, ⟨source, happend⟩ | ⟨digest, happend⟩⟩
      · exact ⟨_, s.state, [], [], by simp [hagain, happend], .contract source, .inl rfl⟩
      · exact ⟨_, state, [], _, by simp [hagain, happend], .audit receipt source, .inl rfl⟩
      · have hevent : receipt.event = .outcome .authorizationDenied := by
          obtain ⟨_, _, _, o, _, hrecorded, rfl⟩ := EffectReceipt.outcomeFrom_eq_ok_iff.mp hbuilt
          rw [EffectReceipt.recordedOutcome_authorizationDenied hrecorded]
        obtain ⟨recovery, hdenied⟩ :=
          deniedAfterIntent_error (E := E) ⟨receipt, digest⟩ denial hevent
        exact ⟨.error (.postIntentDenied denial digest recovery), state, [], _,
          by simp [hagain, happend, hdenied],
          .denied denial recovery (EffectReceipt.outcomeFrom_accepted hbuilt).2, .inl rfl⟩
  | ok authorized =>
      obtain ⟨htime, hsecond⟩ := ite_error_eq_ok.mp hagain
      obtain ⟨execution, state, ran, hexecute, hran⟩ : ∃ execution state ran,
          admission.execute (tracedEffect effect) s = (execution, ⟨state, s.trace ++ ran⟩) ∧
            (ran = [] ∨ ran = [.effect] ∧ Granted caller request clock admission) := by
        cases admission with
        | ready =>
            exact ⟨_, _, [.effect], rfl, .inr ⟨rfl, hauth, not_lt.mp htime, ⟨_, hsecond⟩, rfl⟩⟩
        | cancelled =>
            exact ⟨⟨.cancelled, none⟩, s.state, [], by simp [AdmissionDecision.execute], .inl rfl⟩
        | backpressured =>
            exact ⟨⟨.backpressured, none⟩, s.state, [],
              by simp [AdmissionDecision.execute], .inl rfl⟩
      rcases appendEffectOutcome_traced persisted sink ⟨state, s.trace ++ ran⟩ (clock 2)
        execution with
        ⟨source, happend⟩ | ⟨receipt, state', hbuilt, ⟨source, happend⟩ | ⟨digest, happend⟩⟩
      · exact ⟨_, state, ran, [], by simp [hagain, hexecute, happend], .contract source, hran⟩
      · exact ⟨_, state', ran, _, by simp [hagain, hexecute, happend], .audit receipt source, hran⟩
      · obtain ⟨_, _, _, o, _, _, hreceipt⟩ := EffectReceipt.outcomeFrom_eq_ok_iff.mp hbuilt
        have hevent : receipt.event = .outcome o := by rw [hreceipt]
        obtain ⟨recovery, hcompleted⟩ :=
          completionFromPersisted_ok (E := E) ⟨receipt, digest⟩ hevent
        exact ⟨.ok ⟨o, digest, recovery⟩, state', ran, _,
          by simp [hagain, hexecute, happend, hcompleted],
          .completed recovery hevent (EffectReceipt.outcomeFrom_accepted hbuilt).2, hran⟩

/-- The intent that a request leads to. -/
def IntentOf (caller : Option ValidatedCaller) (request : EffectRequest) (clock : Nat → Timestamp)
    (intent : EffectReceipt) : Prop :=
  ∃ a, authorizeCaller caller request.requirement (clock 0) = .ok a ∧
    EffectReceipt.intent a request.descriptor (clock 0) = .ok intent

variable (effect) (caller) (request) (clock) (admission) in
/-- All the traces of the gate: nothing was accepted by the ledger, or the intent was and the
run went on from there. -/
theorem executeEffect_traced (s : S) :
    ∃ result state trace,
      executeEffect caller request clock admission sink.traced (tracedEffect effect) ⟨s, []⟩ =
        (result, ⟨state, trace⟩) ∧
      ((∃ error, result = .error error) ∧
          (∀ action ∈ trace, ∃ receipt source, action = .append receipt (.error source)) ∨
        ∃ intent digest ran rest, IntentOf caller request clock intent ∧
          trace = .append intent (.ok digest) :: (ran ++ rest) ∧
          Ending ⟨intent, digest⟩ result rest ∧
          (ran = [] ∨ ran = [.effect] ∧ Granted caller request clock admission)) := by
  unfold executeEffect
  cases hauth : authorizeCaller caller request.requirement (clock 0) with
  | error denial => exact ⟨_, s, [], rfl, .inl ⟨⟨_, rfl⟩, by simp⟩⟩
  | ok authorized =>
      cases hintent : EffectReceipt.intent authorized request.descriptor (clock 0) with
      | error source => exact ⟨_, s, [], by simp [hintent]; rfl, .inl ⟨⟨_, rfl⟩, by simp⟩⟩
      | ok intent =>
          obtain ⟨answer, state, hanswer⟩ :
              ∃ answer state, sink.append s intent = (answer, state) :=
            ⟨_, _, rfl⟩
          cases answer with
          | error source =>
              exact ⟨.error (.intentAudit source), state, [.append intent (.error source)],
                by simp [hintent, PendingIntent.appendTo, EffectReceiptSink.traced, hanswer],
                .inl ⟨⟨_, rfl⟩, by simp⟩⟩
          | ok digest =>
              obtain ⟨result, final, ran, rest, hrun, hending, hran⟩ :=
                executePersisted_traced ⟨intent, digest⟩ sink effect
                  ⟨state, [.append intent (.ok digest)]⟩ admission ⟨authorized, hauth⟩
              refine ⟨result, final, .append intent (.ok digest) :: (ran ++ rest), ?_,
                .inr ⟨intent, digest, ran, rest, ⟨authorized, hauth, hintent⟩, rfl, hending, hran⟩⟩
              simpa [hintent, PendingIntent.appendTo, EffectReceiptSink.traced, hanswer] using hrun

/-! ## What the gate guarantees -/

/-- The action is a run of the effect. -/
def GateAction.isEffect : GateAction E → Bool
  | .effect => true
  | .append _ _ => false

/-- The ticket an error carries. -/
def EffectGateError.ticket : EffectGateError E → Option RecoveryTicket
  | .postIntentContract _ recovery | .outcomeAudit _ recovery => some recovery
  | _ => none

/-- The digest of a recorded outcome that an error carries. -/
def EffectGateError.outcomeDigest : EffectGateError E → Option ReceiptDigest
  | .postIntentDenied _ receiptDigest _ => some receiptDigest
  | _ => none

/-- A ledger that refuses everything is all that was asked. -/
theorem isEffect_eq_false_of_refused {trace : List (GateAction E)}
    (h : ∀ action ∈ trace, ∃ receipt source, action = .append receipt (.error source)) :
    ∀ action ∈ trace, action.isEffect = false := by
  intro action hmem
  obtain ⟨_, _, rfl⟩ := h action hmem
  rfl

namespace Ending

variable {persisted : PersistedIntent} {result : Except (EffectGateError E) EffectCompletion}
  {ran rest : List (GateAction E)} {receipt : EffectReceipt} {digest : ReceiptDigest}

theorem isEffect_eq_false (h : Ending persisted result rest) :
    ∀ action ∈ rest, action.isEffect = false := by
  cases h <;> simp [GateAction.isEffect]

/-- The last thing recorded is an outcome of `persisted`, not another intent. -/
theorem event_ne_intent (h : Ending persisted result rest)
    (hmem : .append receipt (.ok digest) ∈ rest) : receipt.event ≠ .intent := by
  cases h with
  | contract | audit => simp at hmem
  | denied _ _ hchild | completed _ _ hchild =>
      obtain ⟨rfl, rfl⟩ : _ = _ ∧ _ = _ := by simpa using hmem
      obtain ⟨_, _, _, _, o, hevent, _⟩ := EffectReceipt.validateChildOf_outcome_iff.mp hchild
      simp [hevent]

/-- The only intent accepted in a run is the one it started from. -/
theorem intent_unique (h : Ending persisted result rest) (hran : ran = [] ∨ ran = [.effect])
    (hmem : .append receipt (.ok digest) ∈
      .append persisted.receipt (.ok persisted.digest) :: (ran ++ rest))
    (hevent : receipt.event = .intent) : persisted = ⟨receipt, digest⟩ := by
  rcases List.mem_cons.mp hmem with heq | hmem
  · simp only [GateAction.append.injEq, Except.ok.injEq] at heq
    rw [heq.1, heq.2]
  · rcases List.mem_append.mp hmem with hmem | hmem
    · rcases hran with rfl | rfl <;> simp at hmem
    · exact absurd hevent (h.event_ne_intent hmem)

/-- A completion names an accepted outcome of `persisted`. -/
theorem completes {completion : EffectCompletion}
    (h : Ending (E := E) persisted (.ok completion) rest) :
    ∃ outcome, .append outcome (.ok completion.receiptDigest) ∈ rest ∧
      outcome.event = .outcome completion.outcome ∧
      outcome.validateChildOf persisted.receipt persisted.digest = .ok .outcome := by
  cases h with
  | completed recovery hevent hchild => exact ⟨_, List.mem_singleton_self _, hevent, hchild⟩

/-- An error carries the ticket of `persisted` or names an accepted outcome of it. -/
theorem carries {error : EffectGateError E} (h : Ending persisted (.error error) rest) :
    error.ticket = some ⟨persisted⟩ ∨
      ∃ outcome recorded, error.outcomeDigest = some recorded ∧
        .append outcome (.ok recorded) ∈ rest ∧
        outcome.validateChildOf persisted.receipt persisted.digest = .ok .outcome := by
  cases h with
  | contract | audit => exact .inl rfl
  | denied _ _ hchild => exact .inr ⟨_, _, rfl, List.mem_singleton_self _, hchild⟩

end Ending

variable {sink} in
/-- **The gate.**  The effect runs at most once, and only with a durable intent, a caller
authorised at both readings of a clock that did not go back, and admission.  A completion
names an outcome of the intent that the ledger accepted, and an error after the intent was
accepted carries its ticket or the digest of an accepted outcome. -/
theorem executeEffect_sound {s : S} {result : Except (EffectGateError E) EffectCompletion}
    {final : Traced S E}
    (h : executeEffect caller request clock admission sink.traced (tracedEffect effect) ⟨s, []⟩ =
      (result, final)) :
    (final.trace.filter GateAction.isEffect).length ≤ 1 ∧
      (∀ before after, final.trace = before ++ .effect :: after →
        Granted caller request clock admission ∧
          ∃ intent digest, IntentOf caller request clock intent ∧
            .append intent (.ok digest) ∈ before) ∧
      (∀ completion, result = .ok completion →
        ∃ intent digest outcome, IntentOf caller request clock intent ∧
          .append intent (.ok digest) ∈ final.trace ∧
          .append outcome (.ok completion.receiptDigest) ∈ final.trace ∧
          outcome.event = .outcome completion.outcome ∧
          outcome.validateChildOf intent digest = .ok .outcome) ∧
      ∀ error intent digest, result = .error error → .append intent (.ok digest) ∈ final.trace →
        intent.event = .intent →
        error.ticket = some ⟨⟨intent, digest⟩⟩ ∨
          ∃ outcome recorded, error.outcomeDigest = some recorded ∧
            .append outcome (.ok recorded) ∈ final.trace ∧
            outcome.validateChildOf intent digest = .ok .outcome := by
  obtain ⟨result', state, trace, hrun, hshape⟩ :=
    executeEffect_traced sink effect caller request clock admission s
  obtain ⟨rfl, rfl⟩ := Prod.mk.inj (hrun.symm.trans h)
  rcases hshape with ⟨⟨e, rfl⟩, hrefused⟩ | ⟨intent, digest, ran, rest, hof, rfl, hending, hran⟩
  -- the ledger accepted nothing, and nothing but the ledger was asked
  · have hnone := isEffect_eq_false_of_refused hrefused
    refine ⟨?_, ?_, by simp, ?_⟩
    · rw [List.filter_eq_nil_iff.mpr (by simpa using hnone)]
      simp
    · intro before after heq
      have hmem : .effect ∈ trace := by
        rw [show trace = before ++ .effect :: after from heq]
        exact List.mem_append_right _ List.mem_cons_self
      exact absurd (hnone .effect hmem) (by simp [GateAction.isEffect])
    · intro _ _ _ _ hmem
      obtain ⟨_, _, heq⟩ := hrefused _ hmem
      simp at heq
  -- the intent was accepted
  · have hrest := hending.isEffect_eq_false
    refine ⟨?_, ?_, ?_, ?_⟩
    · have hfilter : rest.filter GateAction.isEffect = [] :=
        List.filter_eq_nil_iff.mpr (by simpa using hrest)
      rcases hran with rfl | ⟨rfl, _⟩ <;> simp [List.filter_cons, GateAction.isEffect, hfilter]
    · intro before after heq
      cases before with
      | nil => simp at heq
      | cons first before =>
          obtain ⟨rfl, htail⟩ := List.cons.inj heq
          have hmem : GateAction.effect ∈ ran ++ rest := by simp [htail]
          rcases hran with rfl | ⟨_, hgranted⟩
          · exact absurd (hrest _ hmem) (by simp [GateAction.isEffect])
          · exact ⟨hgranted, intent, digest, hof, List.mem_cons_self⟩
    · rintro completion rfl
      obtain ⟨outcome, hmem, hevent, hchild⟩ := hending.completes
      exact ⟨intent, digest, outcome, hof, by simp, by simp [hmem], hevent, hchild⟩
    · rintro error intent' digest' rfl hmem hevent
      obtain ⟨rfl, rfl⟩ := PersistedIntent.mk.inj
        (hending.intent_unique (hran.imp_right And.left) hmem hevent)
      refine hending.carries.imp_right ?_
      rintro ⟨outcome, recorded, hrecorded, hmem, hchild⟩
      exact ⟨outcome, recorded, hrecorded, by simp [hmem], hchild⟩

/-! ## A sample run -/

/-- A caller that is authorised until time 100. -/
def sampleValidatedCaller : ValidatedCaller where
  schemaVersion := callerContextVersion
  callerRef := sampleCaller.callerRef
  grant := sampleCaller.grant
  policyEpoch := sampleCaller.policyEpoch
  authenticatedAt := 0
  freshUntil := 100
  expiresAt := 100
  persona := sampleCaller.persona
  trust := .trusted
  revocation := .active

/-- A request for operation 7. -/
def sampleRequest : EffectRequest where
  requirement := ⟨sampleCaller.grant, sampleCaller.policyEpoch, none⟩
  descriptor := ⟨sampleRef 7, sampleEpoch, none, none⟩

/-- A ledger that accepts everything and counts the digests it gives out. -/
def sampleSink : EffectReceiptSink Nat Unit where
  append count _ := (.ok (sampleRef (UInt8.ofNat count)), count + 1)

/-- Operation 7 succeeds: the intent is recorded at time 1, the outcome at time 3. -/
def sampleRun : Except (EffectGateError Unit) EffectCompletion × Traced Nat Unit :=
  executeEffect (some sampleValidatedCaller) sampleRequest (fun i => i + 1) .ready sampleSink.traced
    (tracedEffect fun s => (⟨.succeeded, none⟩, s)) ⟨11, []⟩

theorem executeEffect_sound_succeeded :
    sampleRun.1 = .ok ⟨.succeeded, sampleRef 12, none⟩ ∧
      (sampleRun.2.trace.filter GateAction.isEffect).length ≤ 1 ∧
      Granted (some sampleValidatedCaller) sampleRequest (fun i => i + 1) .ready ∧
      ∃ intent digest outcome, .append intent (.ok digest) ∈ sampleRun.2.trace ∧
        .append outcome (.ok (sampleRef 12)) ∈ sampleRun.2.trace ∧
        outcome.validateChildOf intent digest = .ok .outcome := by
  have hresult : sampleRun.1 = .ok ⟨.succeeded, sampleRef 12, none⟩ := by decide
  have htrace : sampleRun.2.trace = [.append sampleIntent (.ok (sampleRef 11))] ++ .effect ::
      [.append (sampleReceipt 7 (.outcome .succeeded) 3 (some (sampleRef 11)) .none)
        (.ok (sampleRef 12))] := by decide
  obtain ⟨honce, hbefore, hcompleted, _⟩ :=
    executeEffect_sound (rfl : sampleRun = (sampleRun.1, sampleRun.2))
  obtain ⟨intent, digest, outcome, _, hintent, houtcome, _, hchild⟩ := hcompleted _ hresult
  exact ⟨hresult, honce, (hbefore _ _ htrace).1, intent, digest, outcome, hintent, houtcome, hchild⟩

end Akroasis.Effects
