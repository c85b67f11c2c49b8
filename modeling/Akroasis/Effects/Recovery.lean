import Akroasis.Effects.Gate
import Akroasis.Effects.Ledger
import Akroasis.Table

/-!
# Akroasis.Effects.Recovery

Calls of `execute_effect` over one ledger (`akroasis/src/caller.rs`,
`tekmerion/src/effect_receipt_state.rs`), in any interleaving and with crashes.

A call takes three steps: it appends its intent, it authorises again and runs the effect, and it
appends the outcome.  Between them anything may happen to the ledger.  A call may be lost after
any step; what it left behind is taken up later, by `recovery_required` for an intent
without outcome and by a recovery for an unresolved outcome, both reconstructed from what the
ledger holds, as often as anybody likes.

`effects_accountable` says what the ledger makes of that: no intent is used for two effects,
no outcome is recovered twice, and nothing is left that could not be taken up.
`executeEffect_eq_run` says that a call whose steps follow each other is `execute_effect`.
-/

namespace Akroasis.Effects

/-! ## Appending -/

/-- Errors of an append. -/
inductive SinkError where
  | ledger (source : LedgerError)
  | injected
  deriving DecidableEq

/-- What an append gets from outside: a digest for the receipt, and whether writing it fails. -/
structure Append where
  digest : ReceiptDigest
  fails : Bool
  deriving DecidableEq

namespace Ledger

/-- `append` of a receipt that may not get written.  Receipts outside of their module are valid. -/
def appendReceipt (ledger : Ledger) (receipt : EffectReceipt) (a : Append) :
    Except SinkError Ledger :=
  if valid : receipt.Valid then
    ((ledger.append ⟨a.digest, receipt, valid⟩).mapError .ledger).bind fun ledger =>
      if a.fails then .error .injected else .ok ledger
  else .error .injected

/-- The outcome of a digest, as `from_verified` takes it from the ledger. -/
def verifiedOutcome (ledger : Ledger) (digest : ReceiptDigest) : Option PersistedOutcome :=
  (ledger.receiptWithDigest digest).bind fun receipt =>
    (PersistedOutcome.fromVerified receipt digest).toOption

/-- The intent of a digest, as `from_verified_unmatched` takes it from the ledger. -/
def verifiedIntent (ledger : Ledger) (digest : ReceiptDigest) : Option PersistedIntent :=
  (ledger.receiptWithDigest digest).bind fun receipt =>
    (PersistedIntent.fromVerifiedUnmatched receipt digest).toOption

end Ledger

/-! ## Calls -/

/-- A call of `execute_effect`, by how far it has come. -/
inductive Call where
  | intended (caller : Option ValidatedCaller) (requirement : AuthorizationRequirement)
      (authorizedAt : Timestamp) (intent : PersistedIntent)
  | denied (observedAt : Timestamp) (intent : PersistedIntent)
  | executed (execution : EffectExecution) (intent : PersistedIntent)
  deriving DecidableEq

/-- The intent of a call. -/
def Call.intent : Call → PersistedIntent
  | .intended _ _ _ intent | .denied _ intent | .executed _ intent => intent

/-- What a call starts with.  A recovery names the outcome that authorises it. -/
structure Start where
  caller : Option ValidatedCaller
  requirement : AuthorizationRequirement
  effect : EffectRef
  schemaEpoch : Epoch
  evidenceDigest : Option EvidenceDigest
  recovers : Option ReceiptDigest
  deriving DecidableEq

/-- A step of a call, its loss, or the settlement of an intent. -/
inductive Step where
  | begin (id : Nat) (start : Start) (now : Timestamp) (a : Append)
  | execute (id : Nat) (now : Timestamp) (admission : AdmissionDecision) (report : EffectExecution)
  | conclude (id : Nat) (now : Timestamp) (a : Append)
  | settle (intent : ReceiptDigest) (now : Timestamp) (a : Append)
  | crash (id : Nat)
  deriving DecidableEq

/-- The ledger, the calls under way, and the intents whose effects ran. -/
structure Gates where
  ledger : Ledger
  calls : Table Nat Call
  effects : List PersistedIntent
  deriving DecidableEq

namespace Gates

/-- Nothing happened. -/
def new : Gates := ⟨[], ∅, []⟩

/-- The descriptor of a call, with the authority to recover if it needs one. -/
def descriptor (ledger : Ledger) (start : Start) : Option EffectDescriptor :=
  match start.recovers with
  | none => some ⟨start.effect, start.schemaEpoch, start.evidenceDigest, none⟩
  | some digest =>
      (ledger.verifiedOutcome digest).bind fun outcome =>
        outcome.intoRecoveryAuthorization.toOption.map fun authorization =>
          authorization.intoDescriptor start.effect start.schemaEpoch start.evidenceDigest

/-- The intent of a call that the caller is authorised for. -/
def intentOf (ledger : Ledger) (start : Start) (now : Timestamp) : Option EffectReceipt :=
  (descriptor ledger start).bind fun descriptor =>
    (authorizeCaller start.caller start.requirement now).toOption.bind fun authorized =>
      (EffectReceipt.intent authorized descriptor now).toOption

/-- The first step of a call, up to the durable intent. -/
def begin (s : Gates) (id : Nat) (start : Start) (now : Timestamp) (a : Append) : Option Gates :=
  (intentOf s.ledger start now).bind fun intent =>
    (s.ledger.appendReceipt intent a).toOption.map fun ledger =>
      { s with
        ledger := ledger
        calls := s.calls.insert id
          (.intended start.caller start.requirement now ⟨intent, a.digest⟩) }

/-- The second step of a call: the effect runs, or there is an outcome without it. -/
def execute (s : Gates) (id : Nat) (now : Timestamp) (admission : AdmissionDecision)
    (report : EffectExecution) : Call → Gates
  | .intended caller requirement authorizedAt intent =>
      if now < authorizedAt ∨ (authorizeCaller caller requirement now).toOption.isNone then
        { s with calls := s.calls.insert id (.denied (max now authorizedAt) intent) }
      else if admission = .ready then
        { s with
          calls := s.calls.insert id (.executed report intent)
          effects := s.effects ++ [intent] }
      else
        { s with
          calls := s.calls.insert id
            (.executed (admission.execute (fun u : Unit => (report, u)) ()).1 intent) }
  | .denied .. | .executed .. => s

/-- What a call that has come so far reports, and when. -/
def report (now : Timestamp) : Call → Option (Timestamp × EffectExecution)
  | .intended .. => none
  | .denied observedAt _ => some (observedAt, ⟨.authorizationDenied, none⟩)
  | .executed execution _ => some (now, execution)

/-- The ledger after an outcome was built and appended, or was not. -/
def conclude (ledger : Ledger) (outcome : Except ReceiptTransitionError PendingOutcome)
    (a : Append) : Ledger :=
  (outcome.toOption.bind fun pending => (ledger.appendReceipt pending.receipt a).toOption).getD
    ledger

/-- A step.  A call that is refused its intent leaves nothing behind. -/
def step (s : Gates) : Step → Option Gates
  | .begin id start now a =>
      if (s.calls.lookup id).isSome then none else some ((s.begin id start now a).getD s)
  | .execute id now admission report => (s.calls.lookup id).map (s.execute id now admission report)
  | .conclude id now a =>
      (s.calls.lookup id).bind fun call => (report now call).map fun (observedAt, e) =>
      { s with
        ledger := conclude s.ledger (call.intent.outcome observedAt e.outcome e.evidenceDigest) a
        calls := s.calls.erase id }
  | .settle digest now a => (s.ledger.verifiedIntent digest).map fun intent =>
      { s with ledger := conclude s.ledger ((RecoveryTicket.mk intent).recoveryRequired now) a }
  | .crash id => some { s with calls := s.calls.erase id }

end Gates

/-! ## What reaches the ledger -/

namespace Ledger

variable {ledger ledger' : Ledger} {receipt : EffectReceipt} {a : Append} {digest : ReceiptDigest}

theorem appendReceipt_eq_ok_iff : ledger.appendReceipt receipt a = .ok ledger' ↔
    a.fails = false ∧ ∃ valid, ledger.step ⟨a.digest, receipt, valid⟩ = some ledger' := by
  unfold appendReceipt step
  by_cases valid : receipt.Valid
  · rw [dif_pos valid, bind_eq_ok]
    simp only [mapError_eq_ok, ite_error_eq_ok, Except.ok.injEq, Bool.not_eq_true, toOption_eq_some]
    constructor
    · rintro ⟨_, hledger, hfails, rfl⟩
      exact ⟨hfails, valid, hledger⟩
    · rintro ⟨hfails, _, hledger⟩
      exact ⟨_, hledger, hfails, rfl⟩
  · simp [valid]

/-- The ledger is the same, or has one more receipt. -/
def Grown (ledger ledger' : Ledger) : Prop :=
  ledger' = ledger ∨ ∃ new, ledger.step new = some ledger'

theorem Grown.subset (h : Grown ledger ledger') : ledger ⊆ ledger' := by
  rcases h with rfl | ⟨new, hstep⟩
  · exact List.Subset.refl _
  · obtain ⟨_, rfl, _⟩ := step_eq_some_iff.mp hstep
    exact List.subset_cons_self new ledger

theorem Grown.linked (h : Grown ledger ledger') (hlinked : Linked ledger) : Linked ledger' := by
  rcases h with rfl | ⟨new, hstep⟩
  · exact hlinked
  · exact hlinked.step hstep

/-- No receipt has two descendants. -/
def Single (ledger : Ledger) : Prop :=
  ∀ x ∈ ledger, ∀ y ∈ ledger, ∀ digest, x.receipt.predecessor = some digest →
    y.receipt.predecessor = some digest → x = y

theorem Grown.single (h : Grown ledger ledger') (hsingle : Single ledger) : Single ledger' := by
  rcases h with rfl | ⟨new, hstep⟩
  · exact hsingle
  · obtain ⟨_, rfl, hchecked⟩ := step_eq_some_iff.mp hstep
    have hnew : ∀ x ∈ ledger, ∀ digest, new.receipt.predecessor = some digest →
        x.receipt.predecessor ≠ some digest := by
      intro x hx digest hpred heq
      have hnone := (hchecked digest hpred).1
      simp only [hasDescendant, List.any_eq_false, decide_eq_true_eq] at hnone
      exact hnone x hx heq
    intro x hx y hy digest hxpred hypred
    rcases List.mem_cons.mp hx with rfl | hx'
    · rcases List.mem_cons.mp hy with rfl | hy'
      · rfl
      · exact absurd hypred (hnew y hy' digest hxpred)
    · rcases List.mem_cons.mp hy with rfl | hy'
      · exact absurd hxpred (hnew x hx' digest hypred)
      · exact hsingle x hx' y hy' digest hxpred hypred

/-- The intent is in the ledger. -/
def Recorded (ledger : Ledger) (intent : PersistedIntent) : Prop :=
  ∃ stored ∈ ledger, stored.digest = intent.digest ∧ stored.receipt = intent.receipt ∧
    stored.receipt.event = .intent

theorem Recorded.mono {intent : PersistedIntent} (h : Recorded ledger intent)
    (hsub : ledger ⊆ ledger') :
    Recorded ledger' intent := by
  obtain ⟨stored, hmem, hrest⟩ := h
  exact ⟨stored, hsub hmem, hrest⟩

theorem receiptWithDigest_of_mem (h : Linked ledger) {stored : StoredReceipt}
    (hmem : stored ∈ ledger) :
    ledger.receiptWithDigest stored.digest = some stored.receipt := by
  cases hfind : ledger.receiptWithDigest stored.digest with
  | none => exact absurd rfl (digest_ne_of_receiptWithDigest_eq_none hfind hmem)
  | some receipt =>
      obtain ⟨other, hother, hdigest, rfl⟩ := exists_of_receiptWithDigest hfind
      rw [h.unique other hother stored hmem hdigest]

end Ledger

namespace Gates

variable {s s' : Gates} {id : Nat} {call : Call} {start : Start} {now : Timestamp} {a : Append}
  {ledger : Ledger} {e : Step}

theorem grown_conclude (outcome : Except ReceiptTransitionError PendingOutcome) :
    ledger.Grown (conclude ledger outcome a) := by
  unfold conclude
  cases hnew : outcome.toOption.bind fun pending =>
    (ledger.appendReceipt pending.receipt a).toOption with
  | none => exact .inl rfl
  | some ledger' =>
      obtain ⟨pending, _, happend⟩ := Option.bind_eq_some_iff.mp hnew
      obtain ⟨_, valid, hstep⟩ := Ledger.appendReceipt_eq_ok_iff.mp (toOption_eq_some.mp happend)
      exact .inr ⟨_, hstep⟩

theorem event_of_intentOf {receipt : EffectReceipt} (h : intentOf ledger start now = some receipt) :
    receipt.event = .intent := by
  simp only [intentOf, Option.bind_eq_some_iff, toOption_eq_some] at h
  obtain ⟨_, _, _, _, hintent⟩ := h
  exact (EffectReceipt.intent_spec hintent).1

/-- A call that is there after an update is the new one or was there before. -/
theorem lookup_insert_cases {calls : Table Nat Call} {new call : Call} {id' : Nat}
    (h : AList.lookup id' (calls.insert id new) = some call) :
    id' = id ∧ call = new ∨ id' ≠ id ∧ calls.lookup id' = some call := by
  rw [Table.lookup_insert_ite] at h
  by_cases heq : id' = id
  · exact .inl ⟨heq, by simpa [heq] using h.symm⟩
  · exact .inr ⟨heq, by simpa [heq] using h⟩

/-- What holds of the ledger, the calls and the effects together. -/
structure Accountable (s : Gates) : Prop where
  linked : s.ledger.Linked
  single : s.ledger.Single
  calls : ∀ id call, s.calls.lookup id = some call → s.ledger.Recorded call.intent
  distinct : ∀ id id' call call', s.calls.lookup id = some call → s.calls.lookup id' = some call' →
    call.intent.digest = call'.intent.digest → id = id'
  effects : ∀ intent ∈ s.effects, s.ledger.Recorded intent
  once : (s.effects.map PersistedIntent.digest).Nodup
  unused : ∀ id caller requirement authorizedAt intent,
    s.calls.lookup id = some (.intended caller requirement authorizedAt intent) →
    intent.digest ∉ s.effects.map PersistedIntent.digest

namespace Accountable

theorem new : Accountable new where
  linked := Ledger.linked_of_run (show Machine.run Ledger.step [] [] = some [] from rfl)
  single := by simp [Gates.new, Ledger.Single]
  calls := by simp [Gates.new]
  distinct := by simp [Gates.new]
  effects := by simp [Gates.new]
  once := by simp [Gates.new]
  unused := by simp [Gates.new]

/-- The ledger grows, and calls may end. -/
theorem grow (h : Accountable s) {ledger : Ledger} {calls : Table Nat Call}
    (hgrown : s.ledger.Grown ledger)
    (hcalls : ∀ id call, calls.lookup id = some call → s.calls.lookup id = some call) :
    Accountable { s with ledger := ledger, calls := calls } where
  linked := hgrown.linked h.linked
  single := hgrown.single h.single
  calls id call hcall := (h.calls id call (hcalls id call hcall)).mono hgrown.subset
  distinct id id' call call' hcall hcall' :=
    h.distinct id id' call call' (hcalls id call hcall) (hcalls id' call' hcall')
  effects intent hmem := (h.effects intent hmem).mono hgrown.subset
  once := h.once
  unused id caller requirement authorizedAt intent hcall :=
    h.unused id caller requirement authorizedAt intent (hcalls id _ hcall)

/-- A digest that is new to the ledger is new to calls and effects. -/
theorem fresh (h : Accountable s) {digest : ReceiptDigest}
    (hfresh : s.ledger.receiptWithDigest digest = none) :
    (∀ id call, s.calls.lookup id = some call → call.intent.digest ≠ digest) ∧
      digest ∉ s.effects.map PersistedIntent.digest := by
  have hnot : ∀ intent, s.ledger.Recorded intent → intent.digest ≠ digest := by
    rintro intent ⟨stored, hmem, hdigest, _⟩ heq
    exact Ledger.digest_ne_of_receiptWithDigest_eq_none hfresh hmem (hdigest.trans heq)
  refine ⟨fun id call hcall => hnot _ (h.calls id call hcall), fun hmem => ?_⟩
  obtain ⟨intent, hintent, heq⟩ := List.mem_map.mp hmem
  exact hnot intent (h.effects intent hintent) heq

theorem begin (h : Accountable s) (hfree : s.calls.lookup id = none)
    (hbegin : s.begin id start now a = some s') : Accountable s' := by
  simp only [Gates.begin, Option.bind_eq_some_iff, Option.map_eq_some_iff,
    toOption_eq_some] at hbegin
  obtain ⟨receipt, hintent, ledger, happend, rfl⟩ := hbegin
  obtain ⟨_, valid, hstep⟩ := Ledger.appendReceipt_eq_ok_iff.mp happend
  obtain ⟨hfresh, rfl, _⟩ := Ledger.step_eq_some_iff.mp hstep
  obtain ⟨hcallsFresh, heffectsFresh⟩ := h.fresh hfresh
  have hgrown : s.ledger.Grown (⟨a.digest, receipt, valid⟩ :: s.ledger) := .inr ⟨_, hstep⟩
  refine ⟨hgrown.linked h.linked, hgrown.single h.single, ?_, ?_,
    fun intent hmem => (h.effects intent hmem).mono hgrown.subset, h.once, ?_⟩
  · intro id' call hcall
    rcases lookup_insert_cases hcall with ⟨_, rfl⟩ | ⟨_, hold⟩
    · exact ⟨_, List.mem_cons_self, rfl, rfl, event_of_intentOf hintent⟩
    · exact (h.calls id' call hold).mono hgrown.subset
  · intro id₁ id₂ call₁ call₂ hcall₁ hcall₂ heq
    rcases lookup_insert_cases hcall₁ with ⟨rfl, rfl⟩ | ⟨_, hold₁⟩ <;>
      rcases lookup_insert_cases hcall₂ with ⟨rfl, rfl⟩ | ⟨_, hold₂⟩
    · rfl
    · exact absurd heq.symm (hcallsFresh id₂ call₂ hold₂)
    · exact absurd heq (hcallsFresh id₁ call₁ hold₁)
    · exact h.distinct id₁ id₂ call₁ call₂ hold₁ hold₂ heq
  · intro id' caller requirement authorizedAt intent hcall
    rcases lookup_insert_cases hcall with ⟨_, heq⟩ | ⟨_, hold⟩
    · cases heq
      exact heffectsFresh
    · exact h.unused id' caller requirement authorizedAt intent hold

/-- A call goes on with its intent. -/
theorem proceed (h : Accountable s) {call' : Call} {effects : List PersistedIntent}
    (hcall : s.calls.lookup id = some call) (hintent : call'.intent = call.intent)
    (hexecuted : ∀ caller requirement authorizedAt intent,
      call' ≠ .intended caller requirement authorizedAt intent)
    (heffects : effects = s.effects ∨ effects = s.effects ++ [call.intent] ∧
      call.intent.digest ∉ s.effects.map PersistedIntent.digest) :
    Accountable { s with calls := s.calls.insert id call', effects := effects } := by
  have hcases : ∀ id' other, AList.lookup id' (s.calls.insert id call') = some other →
      ∃ old, s.calls.lookup id' = some old ∧ other.intent = old.intent ∧
        (id' = id ∧ other = call' ∨ id' ≠ id ∧ other = old) := by
    intro id' other hother
    rcases lookup_insert_cases hother with ⟨rfl, rfl⟩ | ⟨hne, hold⟩
    · exact ⟨call, hcall, hintent, .inl ⟨rfl, rfl⟩⟩
    · exact ⟨other, hold, rfl, .inr ⟨hne, rfl⟩⟩
  have hdigests : ∀ digest, digest ∈ effects.map PersistedIntent.digest →
      digest ∈ s.effects.map PersistedIntent.digest ∨ digest = call.intent.digest := by
    intro digest hmem
    rcases heffects with rfl | ⟨rfl, _⟩
    · exact .inl hmem
    · simpa using hmem
  refine ⟨h.linked, h.single, ?_, ?_, ?_, ?_, ?_⟩
  · intro id' other hother
    obtain ⟨old, hold, heq, _⟩ := hcases id' other hother
    exact heq ▸ h.calls id' old hold
  · intro id₁ id₂ call₁ call₂ hcall₁ hcall₂ heq
    obtain ⟨old₁, hold₁, heq₁, _⟩ := hcases id₁ call₁ hcall₁
    obtain ⟨old₂, hold₂, heq₂, _⟩ := hcases id₂ call₂ hcall₂
    exact h.distinct id₁ id₂ old₁ old₂ hold₁ hold₂ (heq₁ ▸ heq₂ ▸ heq)
  · intro intent hmem
    rcases heffects with rfl | ⟨rfl, _⟩
    · exact h.effects intent hmem
    · rcases List.mem_append.mp hmem with hold | hnew
      · exact h.effects intent hold
      · obtain rfl := List.mem_singleton.mp hnew
        exact h.calls id call hcall
  · rcases heffects with rfl | ⟨rfl, hnew⟩
    · exact h.once
    · rw [List.map_append, List.map_singleton, List.nodup_append']
      exact ⟨h.once, List.nodup_singleton _, List.disjoint_singleton.mpr hnew⟩
  · intro id' caller requirement authorizedAt intent hother hmem
    obtain ⟨old, hold, _, ⟨_, heq⟩ | ⟨hne, rfl⟩⟩ := hcases id' _ hother
    · exact hexecuted _ _ _ _ heq.symm
    · rcases hdigests _ hmem with hearlier | hsame
      · exact h.unused id' caller requirement authorizedAt intent hold hearlier
      · exact hne (h.distinct id' id _ call hold hcall hsame)

theorem execute (h : Accountable s) (hcall : s.calls.lookup id = some call)
    (admission : AdmissionDecision) (report : EffectExecution) :
    Accountable (s.execute id now admission report call) := by
  cases call with
  | intended caller requirement authorizedAt intent =>
      have hunused := h.unused id caller requirement authorizedAt intent hcall
      simp only [Gates.execute]
      split
      · exact h.proceed hcall rfl (by simp) (.inl rfl)
      · split
        · exact h.proceed hcall rfl (by simp) (.inr ⟨rfl, hunused⟩)
        · exact h.proceed hcall rfl (by simp) (.inl rfl)
  | denied | executed => exact h

/-- **Steps** keep the ledger accountable. -/
theorem step (h : Accountable s) (hstep : s.step e = some s') : Accountable s' := by
  have herase : ∀ id id' call, AList.lookup id' (s.calls.erase id) = some call →
      s.calls.lookup id' = some call := by
    intro id id' call hcall
    rw [Table.lookup_erase_ite] at hcall
    split at hcall
    · cases hcall
    · exact hcall
  cases e with
  | begin id start now a =>
      simp only [Gates.step] at hstep
      split at hstep
      · cases hstep
      · next hfree =>
        obtain rfl := Option.some.inj hstep
        cases hbegin : s.begin id start now a with
        | none => exact h
        | some s' => exact h.begin (Option.not_isSome_iff_eq_none.mp hfree) hbegin
  | execute id now admission report =>
      obtain ⟨call, hcall, rfl⟩ := Option.map_eq_some_iff.mp hstep
      exact h.execute hcall admission report
  | conclude id now a =>
      obtain ⟨call, hcall, hreport⟩ := Option.bind_eq_some_iff.mp hstep
      obtain ⟨_, _, rfl⟩ := Option.map_eq_some_iff.mp hreport
      exact h.grow (grown_conclude _) (herase id)
  | settle digest now a =>
      obtain ⟨intent, _, rfl⟩ := Option.map_eq_some_iff.mp hstep
      exact h.grow (grown_conclude _) fun _ _ hcall => hcall
  | crash id =>
      obtain rfl := Option.some.inj hstep
      exact h.grow (.inl rfl) (herase id)

end Accountable

/-! ## No dead ends -/

variable {stored : StoredReceipt} {digest : ReceiptDigest}

/-- A child that passes the check is accepted under a new digest, if it is the first. -/
theorem step_of_child {receipt : EffectReceipt} (h : s.ledger.Linked) (hmem : stored ∈ s.ledger)
    (hunmatched : s.ledger.hasDescendant stored.digest = false)
    (hfresh : s.ledger.receiptWithDigest digest = none) (valid : receipt.Valid)
    (hpred : receipt.predecessor = some stored.digest) {link : ValidatedReceiptLink}
    (hlink : receipt.validateChildOf stored.receipt stored.digest = .ok link) :
    s.ledger.appendReceipt receipt ⟨digest, false⟩ =
      .ok (⟨digest, receipt, valid⟩ :: s.ledger) := by
  refine Ledger.appendReceipt_eq_ok_iff.mpr
    ⟨rfl, valid, Ledger.step_eq_some_iff.mpr ⟨hfresh, rfl, ?_⟩⟩
  intro predecessor hpredecessor
  obtain rfl := Option.some.inj (hpred.symm.trans hpredecessor)
  exact ⟨hunmatched, stored.receipt, Ledger.receiptWithDigest_of_mem h hmem, link, hlink⟩

/-- An intent without outcome can be settled at any time that is not earlier. -/
theorem exists_settle (h : s.ledger.Linked) (hmem : stored ∈ s.ledger)
    (hunmatched : s.ledger.hasDescendant stored.digest = false)
    (hevent : stored.receipt.event = .intent) (htime : stored.receipt.observedAt ≤ now)
    (hfresh : s.ledger.receiptWithDigest digest = none) :
    ∃ new s', s.step (.settle stored.digest now ⟨digest, false⟩) = some s' ∧
      s'.ledger = new :: s.ledger ∧
      new.receipt.predecessor = some stored.digest ∧
      new.receipt.event = .outcome .recoveryRequired ∧
      new.receipt.unresolved = some stored.receipt.context.effect := by
  have hshape :
      EffectReceipt.validIntentShape stored.receipt.predecessor stored.receipt.recovery = true := by
    have hvalid := (EffectReceipt.valid_iff.mp stored.valid).2
    rwa [hevent] at hvalid
  let receipt : EffectReceipt :=
    ⟨effectReceiptVersion, stored.receipt.context, .outcome .recoveryRequired, now, none,
      some stored.digest, .requiredFor stored.receipt.context.effect⟩
  have hbuilt : stored.receipt.outcomeFrom stored.digest now .recoveryRequired none = .ok receipt :=
    EffectReceipt.outcomeFrom_eq_ok_iff.mpr ⟨hevent, hshape, htime, _, _, rfl, rfl⟩
  obtain ⟨hvalid, hchild⟩ := EffectReceipt.outcomeFrom_accepted hbuilt
  have happend := step_of_child h hmem hunmatched hfresh hvalid rfl hchild
  refine ⟨⟨digest, receipt, hvalid⟩, { s with ledger := ⟨digest, receipt, hvalid⟩ :: s.ledger }, ?_,
    rfl, rfl, rfl, rfl⟩
  have hverified :
      s.ledger.verifiedIntent stored.digest = some ⟨stored.receipt, stored.digest⟩ := by
    simp [Ledger.verifiedIntent, Ledger.receiptWithDigest_of_mem h hmem,
      PersistedIntent.fromVerifiedUnmatched, hevent, Except.toOption]
  simp [step, hverified, RecoveryTicket.recoveryRequired, PersistedIntent.outcome, hbuilt, conclude,
    Except.toOption, happend]

/-- An unresolved outcome can be recovered at any time that is not earlier, by whoever may. -/
theorem exists_begin (h : s.ledger.Linked) (hmem : stored ∈ s.ledger)
    (hunmatched : s.ledger.hasDescendant stored.digest = false) {effect : EffectRef}
    (hunresolved : stored.receipt.unresolved = some effect) {caller : ValidatedCaller}
    (hcaller : start.caller = some caller) (hmeets : caller.Meets start.requirement now)
    (hrecovers : start.recovers = some stored.digest) (htime : stored.receipt.observedAt ≤ now)
    (hfresh : s.ledger.receiptWithDigest digest = none) (hfree : s.calls.lookup id = none) :
    ∃ intent s', s.step (.begin id start now ⟨digest, false⟩) = some s' ∧
      s'.calls.lookup id = some (.intended start.caller start.requirement now ⟨intent, digest⟩) ∧
      intent.predecessor = some stored.digest ∧ intent.recovery = .recoveryOf effect := by
  let authorized : AuthorizedCaller :=
    ⟨caller.callerRef, caller.grant, caller.policyEpoch, caller.persona⟩
  let authorization : RecoveryAuthorization := ⟨effect, stored.digest, stored.receipt.observedAt⟩
  let described : EffectDescriptor :=
    authorization.intoDescriptor start.effect start.schemaEpoch start.evidenceDigest
  let receipt : EffectReceipt := ⟨effectReceiptVersion,
    .fromAuthorized authorized start.effect start.schemaEpoch, .intent, now, start.evidenceDigest,
    some stored.digest, .recoveryOf effect⟩
  have hauthority : (PersistedOutcome.mk stored.receipt stored.digest).intoRecoveryAuthorization =
      .ok authorization :=
    EffectReceipt.intoRecoveryAuthorization_eq_ok_iff.mpr ⟨effect, hunresolved, rfl⟩
  have hverified :
      s.ledger.verifiedOutcome stored.digest = some ⟨stored.receipt, stored.digest⟩ := by
    have hfrom : PersistedOutcome.fromVerified stored.receipt stored.digest =
        .ok ⟨stored.receipt, stored.digest⟩ := by
      unfold PersistedOutcome.fromVerified
      cases hevent : stored.receipt.event with
      | outcome => rfl
      | intent => simp [EffectReceipt.unresolved, hevent] at hunresolved
    simp [Ledger.verifiedOutcome, Ledger.receiptWithDigest_of_mem h hmem, hfrom, Except.toOption]
  have hdescriptor : descriptor s.ledger start = some described := by
    simp [descriptor, hrecovers, hverified, hauthority, Except.toOption, described]
  have hauthorized : authorizeCaller start.caller start.requirement now = .ok authorized :=
    authorizeCaller_eq_ok_iff.mpr ⟨caller, hcaller, hmeets, rfl⟩
  have hintent : EffectReceipt.intent authorized described now = .ok receipt :=
    if_neg (not_lt.mpr htime)
  have hvalid := (EffectReceipt.intent_spec hintent).2
  have happend := step_of_child h hmem hunmatched hfresh hvalid rfl
    (EffectReceipt.recoveryIntent_accepted hauthority rfl hintent)
  refine ⟨receipt, ⟨⟨digest, receipt, hvalid⟩ :: s.ledger,
    s.calls.insert id (.intended start.caller start.requirement now ⟨receipt, digest⟩), s.effects⟩,
    ?_, AList.lookup_insert _, rfl, rfl⟩
  have hintentOf : intentOf s.ledger start now = some receipt := by
    simp [intentOf, hdescriptor, hauthorized, hintent, Except.toOption]
  simp [step, hfree, begin, hintentOf, happend, Except.toOption]

/-- **Effects are accounted for.**  Whatever calls do, however they interleave and whatever is
lost: every effect ran under an intent of its own that is in the ledger and, since the ledger
takes one descendant of a receipt, no two effects recover the same outcome.  An intent without
outcome can always be settled and an unresolved outcome can always be recovered, once, whoever
lost track of them. -/
theorem effects_accountable {events : List Step} (hrun : Machine.run step new events = some s) :
    ((s.effects.map PersistedIntent.digest).Nodup ∧
      ∀ intent ∈ s.effects, s.ledger.Recorded intent) ∧
      (∀ x ∈ s.effects, ∀ y ∈ s.effects, ∀ outcome, x.receipt.predecessor = some outcome →
        y.receipt.predecessor = some outcome → x = y) ∧
      ∀ stored ∈ s.ledger, s.ledger.hasDescendant stored.digest = false → ∀ now digest,
        stored.receipt.observedAt ≤ now → s.ledger.receiptWithDigest digest = none →
        (stored.receipt.event = .intent →
          ∃ new s', s.step (.settle stored.digest now ⟨digest, false⟩) = some s' ∧
            s'.ledger = new :: s.ledger ∧ new.receipt.predecessor = some stored.digest ∧
            new.receipt.event = .outcome .recoveryRequired ∧
            new.receipt.unresolved = some stored.receipt.context.effect) ∧
        ∀ effect id start caller, stored.receipt.unresolved = some effect →
          start.caller = some caller →
          caller.Meets start.requirement now → start.recovers = some stored.digest →
          s.calls.lookup id = none →
          ∃ intent s', s.step (.begin id start now ⟨digest, false⟩) = some s' ∧
            s'.calls.lookup id =
              some (.intended start.caller start.requirement now ⟨intent, digest⟩) ∧
            intent.predecessor = some stored.digest ∧ intent.recovery = .recoveryOf effect := by
  have h : Accountable s := Machine.run_preserves (fun _ _ _ h hstep => h.step hstep) .new hrun
  refine ⟨⟨h.once, h.effects⟩, ?_, ?_⟩
  · intro x hx y hy outcome hxpred hypred
    obtain ⟨stored, hmem, hdigest, hreceipt, _⟩ := h.effects x hx
    obtain ⟨stored', hmem', hdigest', hreceipt', _⟩ := h.effects y hy
    obtain rfl :=
      h.single stored hmem stored' hmem' outcome (hreceipt ▸ hxpred) (hreceipt' ▸ hypred)
    obtain ⟨receipt, digest⟩ := x
    obtain ⟨receipt', digest'⟩ := y
    simp only at hdigest hreceipt hdigest' hreceipt'
    rw [← hdigest, ← hreceipt, ← hdigest', ← hreceipt']
  · intro stored hmem hunmatched now digest htime hfresh
    exact ⟨fun hevent => exists_settle h.linked hmem hunmatched hevent htime hfresh,
      fun _ _ _ _ hunresolved hcaller hmeets hrecovers hfree =>
        exists_begin h.linked hmem hunmatched hunresolved hcaller hmeets hrecovers htime
          hfresh hfree⟩

/-- Operation 7, or the recovery of the outcome with the given digest by operation 8. -/
def sampleStart (recovers : Option ReceiptDigest) : Start where
  caller := some sampleValidatedCaller
  requirement := sampleRequest.requirement
  effect := sampleRef (if recovers.isSome then 8 else 7)
  schemaEpoch := sampleEpoch
  evidenceDigest := none
  recovers := recovers

/-- Operation 7 runs and its call is lost; somebody settles the intent. -/
def sampleLoss : List Step :=
  [.begin 1 (sampleStart none) 1 ⟨sampleRef 11, false⟩, .execute 1 2 .ready ⟨.succeeded, none⟩,
    .crash 1, .settle (sampleRef 11) 3 ⟨sampleRef 12, false⟩]

theorem effects_accountable_lost : ∃ s intent s', Machine.run step new sampleLoss = some s ∧
    (s.effects.map PersistedIntent.digest) = [sampleRef 11] ∧
    s.step (.begin 2 (sampleStart (some (sampleRef 12))) 4 ⟨sampleRef 13, false⟩) = some s' ∧
    s'.calls.lookup 2 = some (.intended (some sampleValidatedCaller) sampleRequest.requirement 4
      ⟨intent, sampleRef 13⟩) ∧
    intent.recovery = .recoveryOf (sampleRef 7) := by
  let s : Gates :=
    ⟨[⟨sampleRef 12, sampleReceipt 7 (.outcome .recoveryRequired) 3 (some (sampleRef 11))
        (.requiredFor (sampleRef 7)), by decide⟩, ⟨sampleRef 11, sampleIntent, by decide⟩],
      ∅, [⟨sampleIntent, sampleRef 11⟩]⟩
  have hrun : Machine.run step new sampleLoss = some s := rfl
  have hmeets : sampleValidatedCaller.Meets sampleRequest.requirement 4 :=
    ⟨rfl, rfl, rfl, by decide, by decide, by decide, rfl, rfl, rfl⟩
  obtain ⟨_, _, hopen⟩ := effects_accountable hrun
  obtain ⟨_, hrecover⟩ :=
    hopen _ List.mem_cons_self (by decide) 4 (sampleRef 13) (by decide) (by decide)
  obtain ⟨intent, s', hstep, hcall, _, hrecovery⟩ := hrecover (sampleRef 7) 2
    (sampleStart (some (sampleRef 12))) sampleValidatedCaller (by decide) rfl hmeets rfl (by decide)
  exact ⟨s, intent, s', hrun, by decide, hstep, hcall, hrecovery⟩

/-! ## A call on its own -/

/-- A ledger, what its next appends get from outside, and how many effects ran. -/
structure LedgerState where
  ledger : Ledger
  appends : List Append
  ran : Nat

/-- The ledger as the gate sees it. -/
def ledgerSink : EffectReceiptSink LedgerState SinkError where
  append s receipt :=
    match s.appends with
    | [] => (.error .injected, s)
    | a :: appends =>
        match s.ledger.appendReceipt receipt a with
        | .error error => (.error error, { s with appends := appends })
        | .ok ledger => (.ok a.digest, { s with ledger := ledger, appends := appends })

/-- An effect that reports the same whenever it runs. -/
def counted (report : EffectExecution) (s : LedgerState) : EffectExecution × LedgerState :=
  (report, { s with ran := s.ran + 1 })

theorem appendEffectOutcome_ledgerSink (ledger : Ledger) (a : Append) (persisted : PersistedIntent)
    (observedAt : Timestamp) (execution : EffectExecution) (ran : Nat) :
    ∃ appends,
      (appendEffectOutcome persisted observedAt execution ledgerSink ⟨ledger, [a], ran⟩).2 =
      ⟨conclude ledger (persisted.outcome observedAt execution.outcome execution.evidenceDigest) a,
        appends, ran⟩ := by
  unfold appendEffectOutcome conclude
  cases persisted.outcome observedAt execution.outcome execution.evidenceDigest with
  | error error => exact ⟨[a], rfl⟩
  | ok pending =>
      cases happend : ledger.appendReceipt pending.receipt a <;>
        exact ⟨[], by simp [PendingOutcome.appendTo, ledgerSink, happend, Except.toOption]⟩

/-- After the intent, `execute_effect` appends what the second step of the call leaves to report. -/
theorem executePersisted_ledgerSink (s : Gates) (id : Nat) (ledger : Ledger) (a : Append)
    (caller : Option ValidatedCaller) (request : EffectRequest) (clock : Nat → Timestamp)
    (admission : AdmissionDecision) (execution : EffectExecution) (persisted : PersistedIntent) :
    ∃ call' effects observedAt e appends ran,
      s.execute id (clock 1) admission execution
          (.intended caller request.requirement (clock 0) persisted) =
        { s with calls := s.calls.insert id call', effects := effects } ∧
      call'.intent = persisted ∧ report (clock 2) call' = some (observedAt, e) ∧
      effects.length = s.effects.length + ran ∧
      (executePersisted caller request clock admission ledgerSink (counted execution) persisted
          ⟨ledger, [a], 0⟩).2 =
        ⟨conclude ledger (persisted.outcome observedAt e.outcome e.evidenceDigest) a,
          appends, ran⟩ := by
  have hlapsed : (clock 1 < clock 0 ∨
      (authorizeCaller caller request.requirement (clock 1)).toOption.isNone) ↔
      ∃ denial, (if clock 1 < clock 0 then .error .clockRegression
        else authorizeCaller caller request.requirement (clock 1)) = .error denial := by
    by_cases hclock : clock 1 < clock 0
    · simp [hclock]
    · cases authorizeCaller caller request.requirement (clock 1) <;> simp [hclock, Except.toOption]
  cases hauthorized : (if clock 1 < clock 0 then .error .clockRegression
    else authorizeCaller caller request.requirement (clock 1)) with
  | error denial =>
      obtain ⟨appends, happend⟩ := appendEffectOutcome_ledgerSink ledger a persisted
        (max (clock 1) (clock 0)) ⟨.authorizationDenied, none⟩ 0
      refine ⟨.denied (max (clock 1) (clock 0)) persisted, s.effects, _, _, appends, 0,
        if_pos (hlapsed.mpr ⟨denial, hauthorized⟩), rfl, rfl, rfl, ?_⟩
      rw [← happend]
      simp only [executePersisted, hauthorized]
      rcases appendEffectOutcome persisted _ _ _ _ with ⟨_ | _, _⟩ <;> rfl
  | ok authorized =>
      have hholds := mt hlapsed.mp (by simp [hauthorized])
      -- An effect that is not admitted counts as none.
      obtain ⟨ran, effects, hexecute, hran, hadmitted⟩ : ∃ ran effects,
          s.execute id (clock 1) admission execution
              (.intended caller request.requirement (clock 0) persisted) =
            { s with
              calls := s.calls.insert id
                (.executed (admission.execute (fun u : Unit => (execution, u)) ()).1 persisted)
              effects := effects } ∧
          effects.length = s.effects.length + ran ∧
          admission.execute (counted execution) ⟨ledger, [a], 0⟩ =
            ((admission.execute (fun u : Unit => (execution, u)) ()).1, ⟨ledger, [a], ran⟩) := by
        cases admission with
        | ready => exact ⟨1, s.effects ++ [persisted], if_neg hholds, by simp, rfl⟩
        | cancelled | backpressured => exact ⟨0, s.effects, if_neg hholds, rfl, rfl⟩
      obtain ⟨appends, happend⟩ := appendEffectOutcome_ledgerSink ledger a persisted (clock 2)
        (admission.execute (fun u : Unit => (execution, u)) ()).1 ran
      refine ⟨_, effects, _, _, appends, ran, hexecute, rfl, rfl, hran, ?_⟩
      rw [← happend]
      simp only [executePersisted, hauthorized, hadmitted]
      rcases appendEffectOutcome persisted _ _ _ _ with ⟨_ | _, _⟩ <;> rfl

section Call

variable {described : EffectDescriptor} (clock : Nat → Timestamp) (admission : AdmissionDecision)
  (execution : EffectExecution) (b : Append)

theorem executeEffect_of_refused (hdescriptor : descriptor s.ledger start = some described)
    (hbegin : s.begin id start (clock 0) a = none) :
    ∃ appends, (executeEffect start.caller ⟨start.requirement, described⟩ clock admission ledgerSink
      (counted execution) ⟨s.ledger, [a, b], 0⟩).2 = ⟨s.ledger, appends, 0⟩ := by
  unfold begin intentOf at hbegin
  simp only [hdescriptor, Option.bind_some] at hbegin
  cases hauthorized : authorizeCaller start.caller start.requirement (clock 0) with
  | error denial => exact ⟨[a, b], by simp [executeEffect, hauthorized]⟩
  | ok authorized =>
  cases hintent : EffectReceipt.intent authorized described (clock 0) with
  | error source => exact ⟨[a, b], by simp [executeEffect, hauthorized, hintent]⟩
  | ok intent =>
  cases happend : s.ledger.appendReceipt intent a with
  | error error =>
      exact ⟨[b],
        by simp [executeEffect, hauthorized, hintent, PendingIntent.appendTo, ledgerSink, happend]⟩
  | ok ledger => simp [hauthorized, hintent, happend, Except.toOption] at hbegin

theorem executeEffect_of_begin (hdescriptor : descriptor s.ledger start = some described)
    (hbegin : s.begin id start (clock 0) a = some s') :
    ∃ intent, s' = { s with
        ledger := s'.ledger
        calls := s.calls.insert id (.intended start.caller start.requirement (clock 0) intent) } ∧
      executeEffect start.caller ⟨start.requirement, described⟩ clock admission ledgerSink
          (counted execution) ⟨s.ledger, [a, b], 0⟩ =
        executePersisted start.caller ⟨start.requirement, described⟩ clock admission ledgerSink
          (counted execution) intent ⟨s'.ledger, [b], 0⟩ := by
  simp only [begin, intentOf, hdescriptor, Option.bind_eq_some_iff, Option.map_eq_some_iff,
    toOption_eq_some, Option.some.injEq] at hbegin
  obtain ⟨intent, ⟨_, rfl, authorized, hauthorized, hintent⟩, ledger, happend, rfl⟩ := hbegin
  exact ⟨⟨intent, a.digest⟩, rfl,
    by simp [executeEffect, hauthorized, hintent, PendingIntent.appendTo, ledgerSink, happend]⟩

/-- **A call whose steps follow each other** is `execute_effect`: it leaves the same ledger and runs
the effect as often. -/
theorem executeEffect_eq_run (hdescriptor : descriptor s.ledger start = some described)
    (hfree : s.calls.lookup id = none) :
    ∃ events s', events <+: [.begin id start (clock 0) a, .execute id (clock 1) admission execution,
        .conclude id (clock 2) b] ∧
      Machine.run step s events = some s' ∧
      (∀ other, s'.calls.lookup other = s.calls.lookup other) ∧
      ∃ appends ran, s'.effects.length = s.effects.length + ran ∧
        (executeEffect start.caller ⟨start.requirement, described⟩ clock admission ledgerSink
          (counted execution) ⟨s.ledger, [a, b], 0⟩).2 = ⟨s'.ledger, appends, ran⟩ := by
  cases hbegin : s.begin id start (clock 0) a with
  | none =>
      obtain ⟨appends, hrefused⟩ :=
        executeEffect_of_refused clock admission execution b hdescriptor hbegin
      refine ⟨[.begin id start (clock 0) a], s, by simp, ?_, fun _ => rfl, appends, 0,
        rfl, hrefused⟩
      simp [Machine.run, step, hfree, hbegin]
  | some s₁ =>
      obtain ⟨intent, hs₁, hpersisted⟩ :=
        executeEffect_of_begin clock admission execution b hdescriptor hbegin
      obtain ⟨call', effects, observedAt, e, appends, ran, hexecute, hcall', hreport,
          hran, hended⟩ :=
        executePersisted_ledgerSink s₁ id s₁.ledger b start.caller
          ⟨start.requirement, described⟩ clock
          admission execution intent
      have hcall :
          s₁.calls.lookup id =
            some (.intended start.caller start.requirement (clock 0) intent) := by
        rw [hs₁]
        exact AList.lookup_insert _
      have hbegun : s.step (.begin id start (clock 0) a) = some s₁ := by simp [step, hfree, hbegin]
      have hexecuted : s₁.step (.execute id (clock 1) admission execution) =
          some { s₁ with calls := s₁.calls.insert id call', effects := effects } := by
        simp [step, hcall, hexecute]
      refine ⟨_, ⟨conclude s₁.ledger (intent.outcome observedAt e.outcome e.evidenceDigest) b,
        (s₁.calls.insert id call').erase id, effects⟩, List.prefix_rfl, ?_, ?_, appends, ran, ?_,
        hpersisted ▸ hended⟩
      · rw [Machine.run_cons, hbegun, Option.bind_some, Machine.run_cons, hexecuted,
          Option.bind_some]
        simp [Machine.run_cons, step, hreport, hcall']
      · intro other
        rw [Table.lookup_erase_ite, Table.lookup_insert_ite, hs₁, Table.lookup_insert_ite]
        split
        · next heq => rw [heq, hfree]
        · rfl
      · rw [hran, hs₁]

/-- Operation 7 on its own. -/
theorem executeEffect_eq_run_sample :
    ∃ (described : EffectDescriptor) (s' : Gates) (appends : List Append) (ran : Nat),
      descriptor [] (sampleStart none) = some described ∧ s'.effects.length = ran ∧
      (executeEffect (some sampleValidatedCaller) ⟨sampleRequest.requirement, described⟩
        (fun i => i + 1) .ready
        ledgerSink (counted ⟨.succeeded, none⟩)
        ⟨[], [⟨sampleRef 11, false⟩, ⟨sampleRef 12, false⟩], 0⟩).2 = ⟨s'.ledger, appends, ran⟩ := by
  have hdescriptor : descriptor new.ledger (sampleStart none) =
      some ⟨sampleRef 7, sampleEpoch, none, none⟩ := rfl
  have hfree : new.calls.lookup 1 = none := rfl
  obtain ⟨_, s', _, _, _, appends, ran, hran, hended⟩ :=
    executeEffect_eq_run (a := ⟨sampleRef 11, false⟩)
    (fun i => i + 1) .ready ⟨.succeeded, none⟩ ⟨sampleRef 12, false⟩ hdescriptor hfree
  exact ⟨_, s', appends, ran, hdescriptor, by simpa [new] using hran, hended⟩

end Call

end Gates

end Akroasis.Effects
