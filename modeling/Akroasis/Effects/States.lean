import Akroasis.Effects.Receipt

/-!
# Akroasis.Effects.States

The states a receipt goes through (`tekmerion/src/effect_receipt_state.rs`): pending until
the ledger has accepted it, persisted under the digest the ledger returned.  An unmatched
intent is a recovery ticket; an unresolved outcome authorises one recovery.

The ledger is the parameter `EffectReceiptSink`: any function of its own state that accepts
a receipt under a digest or fails.
-/

namespace Akroasis.Effects

/-- `EffectReceiptSink`: a ledger over its own states `S`, failing with `E`. -/
structure EffectReceiptSink (S E : Type*) where
  append : S → EffectReceipt → Except E ReceiptDigest × S

/-- An intent that the ledger accepted. -/
structure PersistedIntent where
  receipt : EffectReceipt
  digest : ReceiptDigest
  deriving DecidableEq

/-- Ticket for an intent with no accepted outcome. -/
structure RecoveryTicket where
  intent : PersistedIntent
  deriving DecidableEq

/-- An outcome waiting to be appended. -/
structure PendingOutcome where
  receipt : EffectReceipt
  intent : PersistedIntent
  deriving DecidableEq

/-- An outcome that the ledger accepted. -/
structure PersistedOutcome where
  receipt : EffectReceipt
  digest : ReceiptDigest
  deriving DecidableEq

/-- Failed transition of a persisted intent. -/
structure ReceiptTransitionError where
  source : EffectReceiptError
  recovery : RecoveryTicket
  deriving DecidableEq

/-- Failed append of an outcome. -/
structure OutcomeAppendError (E : Type*) where
  source : E
  recovery : RecoveryTicket

/-- An intent not appended yet. -/
structure PendingIntent where
  receipt : EffectReceipt
  deriving DecidableEq

/-- `PendingIntent::append_to`. -/
def PendingIntent.appendTo {S E : Type*} (pending : PendingIntent) (sink : EffectReceiptSink S E)
    (s : S) : Except E PersistedIntent × S :=
  match sink.append s pending.receipt with
  | (.ok digest, s) => (.ok ⟨pending.receipt, digest⟩, s)
  | (.error source, s) => (.error source, s)

namespace PersistedIntent

/-- `from_verified_unmatched`. -/
def fromVerifiedUnmatched (receipt : EffectReceipt) (digest : ReceiptDigest) :
    Except EffectReceiptError PersistedIntent :=
  if receipt.event ≠ .intent then .error .predecessorIsNotIntent else .ok ⟨receipt, digest⟩

/-- `outcome`. -/
def outcome (intent : PersistedIntent) (observedAt : Timestamp) (outcome : EffectOutcome)
    (evidenceDigest : Option EvidenceDigest) : Except ReceiptTransitionError PendingOutcome :=
  match intent.receipt.outcomeFrom intent.digest observedAt outcome evidenceDigest with
  | .ok receipt => .ok ⟨receipt, intent⟩
  | .error source => .error ⟨source, ⟨intent⟩⟩

end PersistedIntent

/-- `PendingOutcome::append_to`. -/
def PendingOutcome.appendTo {S E : Type*} (pending : PendingOutcome) (sink : EffectReceiptSink S E)
    (s : S) : Except (OutcomeAppendError E) PersistedOutcome × S :=
  match sink.append s pending.receipt with
  | (.ok digest, s) => (.ok ⟨pending.receipt, digest⟩, s)
  | (.error source, s) => (.error ⟨source, ⟨pending.intent⟩⟩, s)

namespace PersistedOutcome

/-- `from_verified`. -/
def fromVerified (receipt : EffectReceipt) (digest : ReceiptDigest) :
    Except EffectReceiptError PersistedOutcome :=
  match receipt.event with
  | .outcome _ => .ok ⟨receipt, digest⟩
  | .intent => .error .persistedReceiptIsNotOutcome

/-- `outcome`. -/
def outcome (persisted : PersistedOutcome) : Except EffectReceiptError EffectOutcome :=
  match persisted.receipt.event with
  | .outcome outcome => .ok outcome
  | .intent => .error .persistedReceiptIsNotOutcome

/-- `into_recovery_authorization`. -/
def intoRecoveryAuthorization (persisted : PersistedOutcome) :
    Except EffectReceiptError RecoveryAuthorization :=
  match persisted.receipt.event, persisted.receipt.recovery with
  | .outcome .partially, .requiredFor originalEffect
  | .outcome .recoveryRequired, .requiredFor originalEffect
  | .outcome .failed, .recoveryOf originalEffect
  | .outcome .cancelled, .recoveryOf originalEffect
  | .outcome .backpressured, .recoveryOf originalEffect
  | .outcome .authorizationDenied, .recoveryOf originalEffect =>
      .ok
        { originalEffect := originalEffect
          requirementDigest := persisted.digest
          requirementObservedAt := persisted.receipt.observedAt }
  | _, _ => .error .notRecoveryRequirement

end PersistedOutcome

/-- `outcome_needs_recovery` (`akroasis/src/caller.rs`). -/
def outcomeNeedsRecovery : EffectOutcome → RecoveryRelation → Bool
  | .partially, .requiredFor _ | .recoveryRequired, .requiredFor _ => true
  | .failed, .recoveryOf _ | .cancelled, .recoveryOf _ | .backpressured, .recoveryOf _
  | .authorizationDenied, .recoveryOf _ => true
  | _, _ => false

/-- `RecoveryAuthorization::into_descriptor`. -/
def RecoveryAuthorization.intoDescriptor (authorization : RecoveryAuthorization)
    (effect : EffectRef) (schemaEpoch : Epoch) (evidenceDigest : Option EvidenceDigest) :
    EffectDescriptor :=
  ⟨effect, schemaEpoch, evidenceDigest, some authorization⟩

/-- `RecoveryTicket::recovery_required`. -/
def RecoveryTicket.recoveryRequired (ticket : RecoveryTicket) (observedAt : Timestamp) :
    Except ReceiptTransitionError PendingOutcome :=
  ticket.intent.outcome observedAt .recoveryRequired none

end Akroasis.Effects
