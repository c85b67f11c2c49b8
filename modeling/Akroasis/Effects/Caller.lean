import Akroasis.Bytes
import Akroasis.Results

/-!
# Akroasis.Effects.Caller

Who may cause an effect (`tekmerion/src/caller.rs`): opaque references, caller contexts and
the check of a caller against a requirement at one moment.
-/

namespace Akroasis.Effects

/-! ## References -/

/-- An opaque reference or digest of 32 bytes, as `define_opaque_ref!` makes them. -/
abbrev OpaqueRef := FixedBytes 32

/-- Caller identity. -/
abbrev CallerRef := OpaqueRef

/-- Caller persona. -/
abbrev PersonaRef := OpaqueRef

/-- Domain capability. -/
abbrev CapabilityRef := OpaqueRef

/-- Domain-owned scope. -/
abbrev ScopeRef := OpaqueRef

/-- Protected effect. -/
abbrev EffectRef := OpaqueRef

/-- Digest of allowlisted evidence. -/
abbrev EvidenceDigest := OpaqueRef

/-- Digest of a durable receipt. -/
abbrev ReceiptDigest := OpaqueRef

/-- A version number that is not zero, as `define_epoch!` makes them. -/
abbrev Epoch := { n : UInt64 // n ≠ 0 }

/-- A UTC instant in nanoseconds. -/
abbrev Timestamp := Int

/-! ## Callers -/

/-- `CALLER_CONTEXT_VERSION`. -/
def callerContextVersion : UInt16 := 1

/-- Authentication trust recorded on a resolved caller. -/
inductive TrustState where
  | trusted | untrusted
  deriving DecidableEq

/-- Revocation state recorded on a resolved caller. -/
inductive RevocationState where
  | active | revoked
  deriving DecidableEq

/-- One exact capability and scope. -/
@[ext]
structure AuthorityGrant where
  capability : CapabilityRef
  scope : ScopeRef
  deriving DecidableEq

/-- Authenticated caller claims. -/
structure ValidatedCaller where
  schemaVersion : UInt16
  callerRef : CallerRef
  grant : AuthorityGrant
  policyEpoch : Epoch
  authenticatedAt : Timestamp
  freshUntil : Timestamp
  expiresAt : Timestamp
  persona : Option PersonaRef
  trust : TrustState
  revocation : RevocationState
  deriving DecidableEq

/-- What a domain requires of a caller. -/
structure AuthorizationRequirement where
  grant : AuthorityGrant
  policyEpoch : Epoch
  persona : Option PersonaRef
  deriving DecidableEq

/-- Why a caller failed the check. -/
inductive AuthorizationDenial where
  | missingContext | unknownContextVersion | untrusted | notYetValid | stale | expired | revoked
  | policyEpochMismatch | wrongPersona | insufficientCapability | insufficientScope
  | clockRegression
  deriving DecidableEq

/-- Proof that the check passed for one requirement. -/
structure AuthorizedCaller where
  callerRef : CallerRef
  grant : AuthorityGrant
  policyEpoch : Epoch
  persona : Option PersonaRef
  deriving DecidableEq

/-- `authorize_caller`. -/
def authorizeCaller (caller : Option ValidatedCaller) (requirement : AuthorizationRequirement)
    (observedAt : Timestamp) : Except AuthorizationDenial AuthorizedCaller :=
  match caller with
  | none => .error .missingContext
  | some caller =>
      if caller.schemaVersion ≠ callerContextVersion then .error .unknownContextVersion
      else if caller.trust ≠ .trusted then .error .untrusted
      else if caller.revocation ≠ .active then .error .revoked
      else if observedAt < caller.authenticatedAt then .error .notYetValid
      else if caller.expiresAt ≤ observedAt then .error .expired
      else if caller.freshUntil ≤ observedAt then .error .stale
      else if caller.policyEpoch ≠ requirement.policyEpoch then .error .policyEpochMismatch
      else if caller.persona ≠ requirement.persona then .error .wrongPersona
      else if caller.grant.capability ≠ requirement.grant.capability then
        .error .insufficientCapability
      else if caller.grant.scope ≠ requirement.grant.scope then .error .insufficientScope
      else .ok ⟨caller.callerRef, caller.grant, caller.policyEpoch, caller.persona⟩

/-- What a caller must satisfy at a moment. -/
structure ValidatedCaller.Meets (caller : ValidatedCaller) (requirement : AuthorizationRequirement)
    (now : Timestamp) : Prop where
  version : caller.schemaVersion = callerContextVersion
  trusted : caller.trust = .trusted
  active : caller.revocation = .active
  authenticated : caller.authenticatedAt ≤ now
  unexpired : now < caller.expiresAt
  fresh : now < caller.freshUntil
  epoch : caller.policyEpoch = requirement.policyEpoch
  persona : caller.persona = requirement.persona
  grant : caller.grant = requirement.grant

/-- **The check passes** exactly for a caller that is there and meets the requirement. -/
theorem authorizeCaller_eq_ok_iff {caller : Option ValidatedCaller}
    {requirement : AuthorizationRequirement} {now : Timestamp} {authorized : AuthorizedCaller} :
    authorizeCaller caller requirement now = .ok authorized ↔
      ∃ c, caller = some c ∧ c.Meets requirement now ∧
        authorized = ⟨c.callerRef, c.grant, c.policyEpoch, c.persona⟩ := by
  cases caller with
  | none => exact ⟨fun h => (nomatch h), fun ⟨_, h, _⟩ => (nomatch h)⟩
  | some c =>
      have hgrant : c.grant = requirement.grant ↔
          c.grant.capability = requirement.grant.capability ∧
            c.grant.scope = requirement.grant.scope := AuthorityGrant.ext_iff
      simp only [authorizeCaller, ite_error_eq_ok, Except.ok.injEq, not_not, not_lt, not_le, ne_eq]
      constructor
      · rintro ⟨hversion, htrust, hrevoked, hauth, hexpires, hfresh, hepoch, hpersona, hcap, hscope,
          heq⟩
        exact ⟨c, rfl, ⟨hversion, htrust, hrevoked, hauth, hexpires, hfresh, hepoch, hpersona,
          hgrant.mpr ⟨hcap, hscope⟩⟩, heq.symm⟩
      · rintro ⟨_, ⟨⟩, h, rfl⟩
        obtain ⟨hcap, hscope⟩ := hgrant.mp h.grant
        exact ⟨h.version, h.trusted, h.active, h.authenticated, h.unexpired, h.fresh, h.epoch,
          h.persona, hcap, hscope, rfl⟩

end Akroasis.Effects
