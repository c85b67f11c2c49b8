import Akroasis.Effects.States

/-!
# Akroasis.Effects.Agreement

Receipts are built in one place and checked in another.  `outcome_from` computes the
relation of an outcome, `expected_outcome_relation` computes it again; the patterns of
`into_recovery_authorization` return in `validate_recovery_intent_child`.

This module says once what each side accepts (`valid_iff`, `validateChildOf_outcome_iff`,
`validateChildOf_recoveryIntent_iff`, `outcomeFrom_eq_ok_iff`), and from that
`constructors_agree`: what is built is accepted, and an accepted outcome is one that could
have been built.
-/

namespace Akroasis.Effects

namespace EffectReceipt

variable {r child intent outcome : EffectReceipt} {digest : ReceiptDigest} {o : EffectOutcome}
  {relation : RecoveryRelation}

/-! ## What the checks accept -/

/-- The operation that an outcome leaves to be recovered. -/
def unresolved (r : EffectReceipt) : Option EffectRef :=
  match r.event, r.recovery with
  | .outcome .partially, .requiredFor effect | .outcome .recoveryRequired, .requiredFor effect =>
      some effect
  | .outcome .failed, .recoveryOf effect | .outcome .cancelled, .recoveryOf effect
  | .outcome .backpressured, .recoveryOf effect
  | .outcome .authorizationDenied, .recoveryOf effect => some effect
  | _, _ => none

/-- What a receipt must look like to be read back. -/
theorem valid_iff :
    r.Valid ↔ r.schemaVersion = effectReceiptVersion ∧
      match r.event with
      | .intent => validIntentShape r.predecessor r.recovery = true
      | .outcome o => r.predecessor ≠ none ∧
          validateOutcomeRelation r.context.effect o r.recovery = .ok () := by
  obtain ⟨version, context, event, observedAt, evidence, predecessor, recovery⟩ := r
  cases event with
  | intent => simp [Valid, deserialize, validate, ite_ok_eq_ok]
  | outcome o =>
      simp only [Valid, deserialize, validate, ite_error_eq_ok, ne_eq, not_not]
      cases h : validateOutcomeRelation context.effect o recovery <;> simp [Except.map]

theorem validateRecoveryIntentChild_eq_ok_iff (h : outcome.event = .outcome o) :
    validateRecoveryIntentChild child outcome o = .ok () ↔
      ∃ effect, outcome.unresolved = some effect ∧ child.recovery = .recoveryOf effect := by
  cases o <;> cases hrec : outcome.recovery <;>
    simp [validateRecoveryIntentChild, unresolved, h, hrec]

/-- A receipt is accepted as the outcome of an intent if it has the intent's context, is
not earlier, and has the relation expected of it. -/
theorem validateChildOf_outcome_iff :
    child.validateChildOf intent digest = .ok .outcome ↔
      child.predecessor = some digest ∧ intent.observedAt ≤ child.observedAt ∧
        intent.event = .intent ∧ child.context = intent.context ∧
        ∃ o, child.event = .outcome o ∧ expectedOutcomeRelation intent o = .ok child.recovery := by
  simp only [validateChildOf, ite_error_eq_ok, not_not, not_lt, ne_eq]
  cases hc : child.event with
  | intent =>
      cases hi : intent.event with
      | intent => simp
      | outcome o => cases hv : validateRecoveryIntentChild child intent o <;> simp [hv, Except.map]
  | outcome o =>
      cases hi : intent.event with
      | outcome o' => simp
      | intent =>
          cases hx : expectedOutcomeRelation intent o with
          | error e =>
              by_cases hctx : child.context = intent.context <;>
                simp [validateOutcomeChild, hx, hctx, Except.bind, Except.map]
          | ok relation =>
              by_cases hctx : child.context = intent.context <;>
                by_cases hrec : relation = child.recovery <;>
                  simp [validateOutcomeChild, hx, hctx, hrec, eq_comm (a := child.recovery),
                    Except.bind, Except.map]

/-- A receipt is accepted as the recovery intent of an outcome if it is not earlier and
takes up what the outcome leaves unresolved. -/
theorem validateChildOf_recoveryIntent_iff :
    child.validateChildOf outcome digest = .ok .recoveryIntent ↔
      child.predecessor = some digest ∧ outcome.observedAt ≤ child.observedAt ∧
        child.event = .intent ∧
        ∃ effect, outcome.unresolved = some effect ∧ child.recovery = .recoveryOf effect := by
  simp only [validateChildOf, ite_error_eq_ok, not_not, not_lt, ne_eq]
  cases hc : child.event with
  | outcome o =>
      cases ho : outcome.event with
      | intent => cases hv : validateOutcomeChild child outcome o <;> simp [hv, Except.map]
      | outcome o' => simp
  | intent =>
      cases ho : outcome.event with
      | intent => simp [unresolved, ho]
      | outcome o =>
          rw [← validateRecoveryIntentChild_eq_ok_iff ho]
          cases hv : validateRecoveryIntentChild child outcome o <;> simp [hv, Except.map]

/-! ## What the constructors build -/

/-- A recorded outcome has the relation that both checks ask for. -/
theorem recordedOutcome_spec {o' : EffectOutcome}
    (h : recordedOutcome intent o = .ok (o', relation)) :
    validateOutcomeRelation intent.context.effect o' relation = .ok () ∧
      (intent.recovery = .none ∨ (∃ effect, intent.recovery = .recoveryOf effect) →
        expectedOutcomeRelation intent o' = .ok relation) := by
  cases o <;> cases hrec : intent.recovery <;> simp only [recordedOutcome, hrec, Except.ok.injEq,
    Prod.mk.injEq, reduceCtorEq] at h
  all_goals
    obtain ⟨rfl, rfl⟩ := h
    simp [validateOutcomeRelation, validRelation, expectedOutcomeRelation, hrec]

/-- A relation that is expected of an outcome is the one that is recorded for it. -/
theorem recordedOutcome_of_expected
    (h : expectedOutcomeRelation intent o = .ok relation) :
    recordedOutcome intent o = .ok (o, relation) := by
  cases o <;> cases hrec : intent.recovery <;> simp only [expectedOutcomeRelation, hrec,
    Except.ok.injEq, reduceCtorEq] at h
  all_goals
    obtain rfl := h
    simp [recordedOutcome, hrec]

/-- A denial is recorded as one. -/
theorem recordedOutcome_authorizationDenied
    (h : recordedOutcome intent .authorizationDenied = .ok (o, relation)) :
    o = .authorizationDenied := by
  cases hrec : intent.recovery <;> simp [recordedOutcome, hrec] at h <;> exact h.1.symm

theorem validIntentShape_cases {predecessor : Option ReceiptDigest} {recovery : RecoveryRelation}
    (h : validIntentShape predecessor recovery = true) :
    predecessor = none ∧ recovery = .none ∨
      ∃ digest effect, predecessor = some digest ∧ recovery = .recoveryOf effect := by
  unfold validIntentShape at h
  split at h <;> simp_all

/-- An outcome receipt is built from an intent of the right shape, not earlier than it. -/
theorem outcomeFrom_eq_ok_iff {observedAt : Timestamp}
    {evidence : Option EvidenceDigest} :
    intent.outcomeFrom digest observedAt o evidence = .ok r ↔
      intent.event = .intent ∧ validIntentShape intent.predecessor intent.recovery = true ∧
        intent.observedAt ≤ observedAt ∧
        ∃ o' relation, recordedOutcome intent o = .ok (o', relation) ∧
          r = ⟨effectReceiptVersion, intent.context, .outcome o', observedAt, evidence, some digest,
            relation⟩ := by
  simp only [outcomeFrom, ite_error_eq_ok, not_not, not_lt, ne_eq, bind_eq_ok, Prod.exists,
    Bool.not_eq_false]
  refine and_congr_right fun _ => and_congr_right fun _ => and_congr_right fun _ =>
    exists_congr fun o' => exists_congr fun relation => and_congr_right fun h => ?_
  simp [validate, (recordedOutcome_spec h).1, Except.map, eq_comm]

/-- An intent has the shape asked of it, whether it starts a chain or recovers. -/
theorem intent_spec {caller : AuthorizedCaller} {descriptor : EffectDescriptor} {now : Timestamp}
    (h : EffectReceipt.intent caller descriptor now = .ok r) : r.event = .intent ∧ r.Valid := by
  unfold EffectReceipt.intent at h
  cases hrec : descriptor.recovery with
  | none =>
      simp only [hrec, Except.ok.injEq] at h
      rw [valid_iff, ← h]
      exact ⟨rfl, rfl, rfl⟩
  | some authorization =>
      simp only [hrec, ite_error_eq_ok, Except.ok.injEq] at h
      rw [valid_iff, ← h.2]
      exact ⟨rfl, rfl, rfl⟩

/-- A recovery is authorised by what the outcome leaves unresolved. -/
theorem intoRecoveryAuthorization_eq_ok_iff {persisted : PersistedOutcome}
    {authorization : RecoveryAuthorization} :
    persisted.intoRecoveryAuthorization = .ok authorization ↔
      ∃ effect, persisted.receipt.unresolved = some effect ∧
        authorization = ⟨effect, persisted.digest, persisted.receipt.observedAt⟩ := by
  unfold PersistedOutcome.intoRecoveryAuthorization unresolved
  split <;> simp_all [eq_comm]

/-- What the gate takes to need recovery is what an outcome leaves unresolved. -/
theorem outcomeNeedsRecovery_iff (h : r.event = .outcome o) :
    outcomeNeedsRecovery o r.recovery = true ↔ ∃ effect, r.unresolved = some effect := by
  cases o <;> cases hrec : r.recovery <;> simp [outcomeNeedsRecovery, unresolved, h, hrec]

/-- A recovery intent is accepted by the check against the outcome that authorised it. -/
theorem recoveryIntent_accepted {persisted : PersistedOutcome}
    {authorization : RecoveryAuthorization} {caller : AuthorizedCaller}
    {descriptor : EffectDescriptor} {now : Timestamp}
    (hauth : persisted.intoRecoveryAuthorization = .ok authorization)
    (hdesc : descriptor.recovery = some authorization)
    (h : EffectReceipt.intent caller descriptor now = .ok r) :
    r.validateChildOf persisted.receipt persisted.digest = .ok .recoveryIntent := by
  obtain ⟨effect, hunresolved, rfl⟩ := intoRecoveryAuthorization_eq_ok_iff.mp hauth
  simp only [EffectReceipt.intent, hdesc, ite_error_eq_ok, not_lt, Except.ok.injEq] at h
  obtain ⟨htime, rfl⟩ := h
  exact validateChildOf_recoveryIntent_iff.mpr ⟨rfl, htime, rfl, effect, hunresolved, rfl⟩

/-- An outcome is valid by itself and accepted by the check against its intent. -/
theorem outcomeFrom_accepted {observedAt : Timestamp}
    {evidence : Option EvidenceDigest}
    (h : intent.outcomeFrom digest observedAt o evidence = .ok r) :
    r.Valid ∧ r.validateChildOf intent digest = .ok .outcome := by
  obtain ⟨hevent, hshape, htime, o', relation, hrecorded, rfl⟩ := outcomeFrom_eq_ok_iff.mp h
  obtain ⟨hvalid, hexpected⟩ := recordedOutcome_spec hrecorded
  have hrecovery : intent.recovery = .none ∨ ∃ effect, intent.recovery = .recoveryOf effect :=
    (validIntentShape_cases hshape).imp And.right fun ⟨_, effect, _, hrec⟩ => ⟨effect, hrec⟩
  exact ⟨valid_iff.mpr ⟨rfl, by simp, hvalid⟩,
    validateChildOf_outcome_iff.mpr ⟨rfl, htime, hevent, rfl, o', rfl, hexpected hrecovery⟩⟩

/-- An outcome that the check accepts is the one its intent would build for it. -/
theorem outcomeFrom_of_accepted (hintent : intent.Valid) (hchild : child.Valid)
    (h : child.validateChildOf intent digest = .ok .outcome) :
    ∃ o, intent.outcomeFrom digest child.observedAt o child.evidenceDigest = .ok child := by
  obtain ⟨hpred, htime, hevent, hctx, o, hchildEvent, hexpected⟩ :=
    validateChildOf_outcome_iff.mp h
  have hshape : validIntentShape intent.predecessor intent.recovery = true := by
    have := (valid_iff.mp hintent).2
    rwa [hevent] at this
  have hversion : child.schemaVersion = effectReceiptVersion := (valid_iff.mp hchild).1
  refine ⟨o, outcomeFrom_eq_ok_iff.mpr ⟨hevent, hshape, htime, o, child.recovery,
    recordedOutcome_of_expected hexpected, ?_⟩⟩
  rw [← hversion, ← hctx, ← hchildEvent, ← hpred]

/-- **Constructors and checks agree.**  Every intent is valid; a recovery intent is also
accepted as the child of the outcome that authorised it, and an outcome as the child of its
intent.  Conversely a valid receipt that is accepted as the outcome of an intent is what
`outcome_from` builds from that intent. -/
theorem constructors_agree :
    (∀ (caller : AuthorizedCaller) (descriptor : EffectDescriptor) (now : Timestamp)
        (r : EffectReceipt), EffectReceipt.intent caller descriptor now = .ok r → r.Valid) ∧
      (∀ (persisted : PersistedOutcome) (authorization : RecoveryAuthorization)
        (caller : AuthorizedCaller) (descriptor : EffectDescriptor) (now : Timestamp)
        (r : EffectReceipt), persisted.intoRecoveryAuthorization = .ok authorization →
        descriptor.recovery = some authorization →
        EffectReceipt.intent caller descriptor now = .ok r →
        r.validateChildOf persisted.receipt persisted.digest = .ok .recoveryIntent) ∧
      (∀ (persisted : PersistedIntent) (now : Timestamp) (o : EffectOutcome)
        (evidence : Option EvidenceDigest) (pending : PendingOutcome),
        persisted.outcome now o evidence = .ok pending →
        pending.receipt.Valid ∧
          pending.receipt.validateChildOf persisted.receipt persisted.digest = .ok .outcome) ∧
      ∀ (intent child : EffectReceipt) (digest : ReceiptDigest), intent.Valid → child.Valid →
        child.validateChildOf intent digest = .ok .outcome →
        ∃ now o evidence, intent.outcomeFrom digest now o evidence = .ok child := by
  refine ⟨fun _ _ _ _ h => (intent_spec h).2, fun _ _ _ _ _ _ => recoveryIntent_accepted, ?_, ?_⟩
  · intro persisted now o evidence pending h
    unfold PersistedIntent.outcome at h
    cases hbuilt : persisted.receipt.outcomeFrom persisted.digest now o evidence with
    | error source => simp [hbuilt] at h
    | ok receipt =>
        simp only [hbuilt, Except.ok.injEq] at h
        rw [← h]
        exact outcomeFrom_accepted hbuilt
  · intro intent child digest hintent hchild h
    obtain ⟨o, hbuilt⟩ := outcomeFrom_of_accepted hintent hchild h
    exact ⟨child.observedAt, o, child.evidenceDigest, hbuilt⟩

end EffectReceipt

/-! ## A sample chain -/

/-- A reference made of one repeated byte. -/
def sampleRef (b : UInt8) : OpaqueRef := ⟨List.replicate 32 b, by simp⟩

/-- The first epoch. -/
def sampleEpoch : Epoch := ⟨1, by decide⟩

/-- A caller that passed the check. -/
def sampleCaller : AuthorizedCaller :=
  ⟨sampleRef 1, ⟨sampleRef 2, sampleRef 3⟩, ⟨1, by decide⟩, none⟩

/-- The receipts of operation `effect` of `sampleCaller`. -/
def sampleReceipt (effect : UInt8) (event : ReceiptEvent) (observedAt : Timestamp)
    (predecessor : Option ReceiptDigest) (recovery : RecoveryRelation) : EffectReceipt where
  schemaVersion := effectReceiptVersion
  context := .fromAuthorized sampleCaller (sampleRef effect) ⟨1, by decide⟩
  event := event
  observedAt := observedAt
  evidenceDigest := none
  predecessor := predecessor
  recovery := recovery

/-- Operation 7 starts. -/
def sampleIntent : EffectReceipt := sampleReceipt 7 .intent 1 none .none

/-- Operation 7 is left half done. -/
def samplePartial : EffectReceipt :=
  sampleReceipt 7 (.outcome .partially) 2 (some (sampleRef 11)) (.requiredFor (sampleRef 7))

/-- Operation 8 recovers operation 7. -/
def sampleRecovery : EffectReceipt :=
  sampleReceipt 8 .intent 3 (some (sampleRef 12)) (.recoveryOf (sampleRef 7))

/-- A partial outcome and the recovery it authorises. -/
theorem constructors_agree_partial :
    sampleIntent.Valid ∧ sampleRecovery.Valid ∧
      sampleRecovery.validateChildOf samplePartial (sampleRef 12) = .ok .recoveryIntent ∧
      samplePartial.Valid ∧ samplePartial.validateChildOf sampleIntent (sampleRef 11) =
        .ok .outcome ∧
      ∃ now o evidence, sampleIntent.outcomeFrom (sampleRef 11) now o evidence =
        .ok samplePartial := by
  let authorization : RecoveryAuthorization := ⟨sampleRef 7, sampleRef 12, 2⟩
  let recovering : EffectDescriptor :=
    authorization.intoDescriptor (sampleRef 8) ⟨1, by decide⟩ none
  obtain ⟨intents, recoveries, outcomes, converse⟩ := EffectReceipt.constructors_agree
  have hintent : sampleIntent.Valid :=
    intents sampleCaller ⟨sampleRef 7, ⟨1, by decide⟩, none, none⟩ 1 _ (by decide)
  obtain ⟨houtcome, hchild⟩ :=
    outcomes ⟨sampleIntent, sampleRef 11⟩ 2 .partially none
      ⟨samplePartial, sampleIntent, sampleRef 11⟩ (by decide)
  exact ⟨hintent, intents sampleCaller recovering 3 _ (by decide),
    recoveries ⟨samplePartial, sampleRef 12⟩ authorization sampleCaller recovering 3 _
      (by decide) rfl
      (by decide), houtcome, hchild, converse _ _ _ hintent houtcome hchild⟩

end Akroasis.Effects
