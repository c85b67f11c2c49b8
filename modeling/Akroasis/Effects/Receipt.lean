import Akroasis.Effects.Caller

/-!
# Akroasis.Effects.Receipt

Receipts of protected effects (`tekmerion/src/effect_receipt.rs`): what an intent, an
outcome and a recovery intent look like, how each is built from its predecessor, and how a
ledger checks one against its predecessor.

A receipt is `Valid` if the check made on deserialisation accepts it.  Fields are private
in the source, so receipts exist only as `validate` or a constructor made them.
-/

namespace Akroasis.Effects

/-- `EFFECT_RECEIPT_VERSION`. -/
def effectReceiptVersion : UInt16 := 1

/-- Closed outcome of a protected effect. -/
inductive EffectOutcome where
  | succeeded | failed | partially | cancelled | backpressured | authorizationDenied
  | recoveryRequired | recovered
  deriving DecidableEq

/-- Relation between an operation and recovery work. -/
inductive RecoveryRelation where
  | none
  | requiredFor (effect : EffectRef)
  | recoveryOf (effect : EffectRef)
  deriving DecidableEq

/-- What a receipt records. -/
inductive ReceiptEvent where
  | intent
  | outcome (outcome : EffectOutcome)
  deriving DecidableEq

/-- Relation between two durable receipts. -/
inductive ValidatedReceiptLink where
  | outcome | recoveryIntent
  deriving DecidableEq

/-- Authority to describe one explicit recovery operation. -/
structure RecoveryAuthorization where
  originalEffect : EffectRef
  requirementDigest : ReceiptDigest
  requirementObservedAt : Timestamp
  deriving DecidableEq

/-- Metadata of one protected operation. -/
structure EffectDescriptor where
  effect : EffectRef
  schemaEpoch : Epoch
  evidenceDigest : Option EvidenceDigest
  recovery : Option RecoveryAuthorization
  deriving DecidableEq

/-- References shared by the receipts of one operation. -/
structure ReceiptContext where
  callerRef : CallerRef
  effect : EffectRef
  capability : CapabilityRef
  policyEpoch : Epoch
  schemaEpoch : Epoch
  deriving DecidableEq

/-- One intent or outcome receipt. -/
structure EffectReceipt where
  schemaVersion : UInt16
  context : ReceiptContext
  event : ReceiptEvent
  observedAt : Timestamp
  evidenceDigest : Option EvidenceDigest
  predecessor : Option ReceiptDigest
  recovery : RecoveryRelation
  deriving DecidableEq

/-- Errors of the receipt schema. -/
inductive EffectReceiptError where
  | unknownVersion (schemaVersion : UInt16)
  | invalidIntentShape
  | missingPredecessor
  | predecessorIsNotIntent
  | persistedReceiptIsNotOutcome
  | notRecoveryRequirement
  | outcomePrecedesIntent
  | recoveryIntentPrecedesRequirement
  | predecessorDigestMismatch
  | childPrecedesPredecessor
  | predecessorContextMismatch
  | invalidPredecessorTransition
  | recoveryTargetMismatch
  | recoveryRelationMismatch
  deriving DecidableEq

/-- `ReceiptContext::from_authorized`. -/
def ReceiptContext.fromAuthorized (caller : AuthorizedCaller) (effect : EffectRef)
    (schemaEpoch : Epoch) : ReceiptContext where
  callerRef := caller.callerRef
  effect := effect
  capability := caller.grant.capability
  policyEpoch := caller.policyEpoch
  schemaEpoch := schemaEpoch

/-- The relations an outcome may have: `valid` of `validate_outcome_relation`. -/
def validRelation (effect : EffectRef) : EffectOutcome → RecoveryRelation → Bool
  | .partially, recovery | .recoveryRequired, recovery => recovery = .requiredFor effect
  | .recovered, .recoveryOf _ => true
  | .recovered, _ => false
  | .succeeded, recovery => recovery = .none
  | .failed, recovery | .cancelled, recovery | .backpressured, recovery
  | .authorizationDenied, recovery => match recovery with
    | .none | .recoveryOf _ => true
    | .requiredFor _ => false

/-- `validate_outcome_relation`. -/
def validateOutcomeRelation (effect : EffectRef) (outcome : EffectOutcome)
    (recovery : RecoveryRelation) : Except EffectReceiptError Unit :=
  if validRelation effect outcome recovery then .ok () else .error .recoveryRelationMismatch

namespace EffectReceipt

/-- An intent with no predecessor and no recovery, or with both. -/
def validIntentShape : Option ReceiptDigest → RecoveryRelation → Bool
  | none, .none => true
  | some _, .recoveryOf _ => true
  | _, _ => false

/-- `validate`. -/
def validate (schemaVersion : UInt16) (context : ReceiptContext) (event : ReceiptEvent)
    (observedAt : Timestamp) (evidenceDigest : Option EvidenceDigest)
    (predecessor : Option ReceiptDigest) (recovery : RecoveryRelation) :
    Except EffectReceiptError EffectReceipt :=
  let receipt : EffectReceipt :=
    ⟨schemaVersion, context, event, observedAt, evidenceDigest, predecessor, recovery⟩
  if schemaVersion ≠ effectReceiptVersion then .error (.unknownVersion schemaVersion)
  else
    match event with
    | .intent =>
        if validIntentShape predecessor recovery then .ok receipt else .error .invalidIntentShape
    | .outcome outcome =>
        if predecessor = none then .error .missingPredecessor
        else (validateOutcomeRelation context.effect outcome recovery).map fun _ => receipt

/-- `Deserialize`: the raw fields are validated. -/
def deserialize (raw : EffectReceipt) : Except EffectReceiptError EffectReceipt :=
  validate raw.schemaVersion raw.context raw.event raw.observedAt raw.evidenceDigest
    raw.predecessor raw.recovery

/-- The receipt can be read back. -/
def Valid (r : EffectReceipt) : Prop := r.deserialize = .ok r

instance (r : EffectReceipt) : Decidable r.Valid := inferInstanceAs (Decidable (_ = _))

/-- `intent`, the receipt of the pending intent. -/
def intent (caller : AuthorizedCaller) (descriptor : EffectDescriptor) (observedAt : Timestamp) :
    Except EffectReceiptError EffectReceipt :=
  let receipt (predecessor : Option ReceiptDigest) (recovery : RecoveryRelation) : EffectReceipt :=
    { schemaVersion := effectReceiptVersion
      context := .fromAuthorized caller descriptor.effect descriptor.schemaEpoch
      event := .intent
      observedAt := observedAt
      evidenceDigest := descriptor.evidenceDigest
      predecessor := predecessor
      recovery := recovery }
  match descriptor.recovery with
  | some recovery =>
      if observedAt < recovery.requirementObservedAt then
        .error .recoveryIntentPrecedesRequirement
      else .ok (receipt (some recovery.requirementDigest) (.recoveryOf recovery.originalEffect))
  | none => .ok (receipt none .none)

/-- The outcome recorded for a requested one, and its recovery relation. -/
def recordedOutcome (intent : EffectReceipt) (outcome : EffectOutcome) :
    Except EffectReceiptError (EffectOutcome × RecoveryRelation) :=
  match outcome, intent.recovery with
  | .succeeded, .recoveryOf original | .recovered, .recoveryOf original =>
      .ok (.recovered, .recoveryOf original)
  | .recovered, _ => .error .recoveryRelationMismatch
  | .partially, _ | .recoveryRequired, _ => .ok (outcome, .requiredFor intent.context.effect)
  | other, .recoveryOf original => .ok (other, .recoveryOf original)
  | other, .none => .ok (other, .none)
  | _, .requiredFor _ => .error .recoveryRelationMismatch

/-- `outcome_from`. -/
def outcomeFrom (intent : EffectReceipt) (intentDigest : ReceiptDigest) (observedAt : Timestamp)
    (outcome : EffectOutcome) (evidenceDigest : Option EvidenceDigest) :
    Except EffectReceiptError EffectReceipt :=
  if intent.event ≠ .intent then .error .predecessorIsNotIntent
  else if validIntentShape intent.predecessor intent.recovery = false then
    .error .invalidIntentShape
  else if observedAt < intent.observedAt then .error .outcomePrecedesIntent
  else (recordedOutcome intent outcome).bind fun (outcome, recovery) =>
    validate effectReceiptVersion intent.context (.outcome outcome) observedAt evidenceDigest
      (some intentDigest) recovery

/-- `expected_outcome_relation`. -/
def expectedOutcomeRelation (intent : EffectReceipt) (outcome : EffectOutcome) :
    Except EffectReceiptError RecoveryRelation :=
  match intent.recovery, outcome with
  | .none, .succeeded | .none, .failed | .none, .cancelled | .none, .backpressured
  | .none, .authorizationDenied => .ok .none
  | .none, .partially | .none, .recoveryRequired => .ok (.requiredFor intent.context.effect)
  | .recoveryOf effect, .failed | .recoveryOf effect, .cancelled
  | .recoveryOf effect, .backpressured | .recoveryOf effect, .authorizationDenied
  | .recoveryOf effect, .recovered => .ok (.recoveryOf effect)
  | .recoveryOf _, .partially | .recoveryOf _, .recoveryRequired =>
      .ok (.requiredFor intent.context.effect)
  | _, _ => .error .invalidPredecessorTransition

/-- `validate_outcome_child`. -/
def validateOutcomeChild (child intent : EffectReceipt) (outcome : EffectOutcome) :
    Except EffectReceiptError Unit :=
  if child.context ≠ intent.context then .error .predecessorContextMismatch
  else (expectedOutcomeRelation intent outcome).bind fun expected =>
    if child.recovery ≠ expected then .error .recoveryTargetMismatch else .ok ()

/-- `validate_recovery_intent_child`. -/
def validateRecoveryIntentChild (child outcome : EffectReceipt) (outcomeKind : EffectOutcome) :
    Except EffectReceiptError Unit :=
  let check (expected : RecoveryRelation) : Except EffectReceiptError Unit :=
    if child.recovery ≠ expected then .error .recoveryTargetMismatch else .ok ()
  match outcomeKind, outcome.recovery with
  | .partially, .requiredFor effect | .recoveryRequired, .requiredFor effect
  | .failed, .recoveryOf effect | .cancelled, .recoveryOf effect
  | .backpressured, .recoveryOf effect | .authorizationDenied, .recoveryOf effect =>
      check (.recoveryOf effect)
  | _, _ => .error .invalidPredecessorTransition

/-- `validate_child_of`. -/
def validateChildOf (child predecessor : EffectReceipt) (predecessorDigest : ReceiptDigest) :
    Except EffectReceiptError ValidatedReceiptLink :=
  if child.predecessor ≠ some predecessorDigest then .error .predecessorDigestMismatch
  else if child.observedAt < predecessor.observedAt then .error .childPrecedesPredecessor
  else
    match child.event, predecessor.event with
    | .outcome outcome, .intent =>
        (validateOutcomeChild child predecessor outcome).map fun _ => .outcome
    | .intent, .outcome outcome =>
        (validateRecoveryIntentChild child predecessor outcome).map fun _ => .recoveryIntent
    | _, _ => .error .invalidPredecessorTransition

end EffectReceipt

end Akroasis.Effects
