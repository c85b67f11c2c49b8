import Akroasis.Effects.Agreement
import Akroasis.Machine

/-!
# Akroasis.Effects.Ledger

A ledger of receipts.  An adapter of `EffectReceiptSink` has to accept a receipt only if its
predecessor is durable, has no descendant yet and passes `validate_child_of`; `append` is
the ledger of `akroasis/tests/caller_recovery.rs` that does so, with the digest of a new
receipt left open.

A `Lineage` is a receipt with all its ancestors, newest first.  `lineage_sound` says what the
checks of single receipts against their predecessors amount to over a whole lineage.
-/

namespace Akroasis.Effects

/-- A receipt as it exists outside of its module: one that `validate` accepted. -/
structure StoredReceipt where
  digest : ReceiptDigest
  receipt : EffectReceipt
  valid : receipt.Valid
  deriving DecidableEq

/-- The accepted receipts, newest first. -/
abbrev Ledger := List StoredReceipt

/-- `LedgerError`. -/
inductive LedgerError where
  | duplicateReceipt | invalidPredecessor | alreadyMatched
  deriving DecidableEq

namespace Ledger

/-- `receipt_with_digest`. -/
def receiptWithDigest (ledger : Ledger) (digest : ReceiptDigest) : Option EffectReceipt :=
  (ledger.find? fun stored => stored.digest = digest).map StoredReceipt.receipt

/-- `has_descendant`. -/
def hasDescendant (ledger : Ledger) (digest : ReceiptDigest) : Bool :=
  ledger.any fun stored => stored.receipt.predecessor = some digest

/-- `validate_append`. -/
def validateAppend (ledger : Ledger) (new : StoredReceipt) : Except LedgerError Unit :=
  if (ledger.receiptWithDigest new.digest).isSome then .error .duplicateReceipt
  else
    match new.receipt.predecessor with
    | none => .ok ()
    | some predecessor =>
        match ledger.receiptWithDigest predecessor with
        | none => .error .invalidPredecessor
        | some parent =>
            match new.receipt.validateChildOf parent predecessor with
            | .error _ => .error .invalidPredecessor
            | .ok _ => if ledger.hasDescendant predecessor then .error .alreadyMatched else .ok ()

/-- `append`. -/
def append (ledger : Ledger) (new : StoredReceipt) : Except LedgerError Ledger :=
  (ledger.validateAppend new).map fun _ => new :: ledger

/-- The machine of accepted appends. -/
def step (ledger : Ledger) (new : StoredReceipt) : Option Ledger := (ledger.append new).toOption

variable {ledger ledger' : Ledger} {new stored parent child : StoredReceipt}
  {chain ancestors : List StoredReceipt} {digest : ReceiptDigest}

theorem exists_of_receiptWithDigest {receipt : EffectReceipt}
    (h : ledger.receiptWithDigest digest = some receipt) :
    ∃ stored ∈ ledger, stored.digest = digest ∧ stored.receipt = receipt := by
  obtain ⟨stored, hfind, rfl⟩ := Option.map_eq_some_iff.mp h
  exact ⟨stored, List.mem_of_find?_eq_some hfind, by simpa using List.find?_some hfind, rfl⟩

/-- What an accepted append has checked. -/
theorem step_eq_some_iff :
    ledger.step new = some ledger' ↔
      ledger.receiptWithDigest new.digest = none ∧ new :: ledger = ledger' ∧
        ∀ predecessor ∈ new.receipt.predecessor,
          ledger.hasDescendant predecessor = false ∧
            ∃ parent, ledger.receiptWithDigest predecessor = some parent ∧
              ∃ link, new.receipt.validateChildOf parent predecessor = .ok link := by
  unfold step append validateAppend
  cases hfresh : ledger.receiptWithDigest new.digest with
  | some _ => simp [Except.map, Except.toOption]
  | none =>
      cases hpred : new.receipt.predecessor with
      | none => simp [Except.map, Except.toOption]
      | some predecessor =>
          cases hparent : ledger.receiptWithDigest predecessor with
          | none => simp [Except.map, Except.toOption, hparent]
          | some parent =>
              cases hlink : new.receipt.validateChildOf parent predecessor <;>
                cases hdesc : ledger.hasDescendant predecessor <;>
                  simp [Except.map, Except.toOption, hparent, hlink, hdesc]

/-! ## Lineages -/

/-- A stored receipt with its ancestors, newest first, down to one without predecessor. -/
inductive Lineage (ledger : Ledger) : List StoredReceipt → Prop
  | root {stored : StoredReceipt} (hmem : stored ∈ ledger)
      (hpred : stored.receipt.predecessor = none) : Lineage ledger [stored]
  | child {stored parent : StoredReceipt} {ancestors : List StoredReceipt} (hmem : stored ∈ ledger)
      (hpred : stored.receipt.predecessor = some parent.digest)
      (hparent : Lineage ledger (parent :: ancestors)) :
      Lineage ledger (stored :: parent :: ancestors)

/-- The operation of the nearest intent whose outcome was partial or required recovery, of
a chain that starts with an outcome. -/
def nearestUnresolved : List StoredReceipt → Option EffectRef
  | outcome :: intent :: older =>
      if outcome.receipt.event = .outcome .partially ∨
          outcome.receipt.event = .outcome .recoveryRequired then
        some intent.receipt.context.effect
      else nearestUnresolved older
  | _ => none

/-- What the checks of `append` leave in a ledger: a digest names one receipt, a receipt
was checked against its predecessor, and following predecessors ends. -/
structure Linked (ledger : Ledger) : Prop where
  unique : ∀ a ∈ ledger, ∀ b ∈ ledger, a.digest = b.digest → a = b
  checked : ∀ stored ∈ ledger, ∀ digest ∈ stored.receipt.predecessor, ∃ parent ∈ ledger,
    parent.digest = digest ∧ ∃ link, stored.receipt.validateChildOf parent.receipt digest = .ok link
  rooted : ∀ stored ∈ ledger, ∃ ancestors, Lineage ledger (stored :: ancestors)

theorem Lineage.mem (h : Lineage ledger (stored :: ancestors)) : stored ∈ ledger := by
  cases h <;> assumption

theorem Lineage.mono (hsub : ledger ⊆ ledger') (h : Lineage ledger chain) :
    Lineage ledger' chain := by
  induction h with
  | root hmem hpred => exact .root (hsub hmem) hpred
  | child hmem hpred _ ih => exact .child (hsub hmem) hpred ih

theorem digest_ne_of_receiptWithDigest_eq_none
    (h : ledger.receiptWithDigest digest = none) (hmem : stored ∈ ledger) :
    stored.digest ≠ digest := by
  have hfind : ledger.find? (fun stored => stored.digest = digest) = none :=
    Option.map_eq_none_iff.mp h
  simpa using List.find?_eq_none.mp hfind stored hmem

/-- An accepted append keeps the ledger linked. -/
theorem Linked.step (h : Linked ledger) (hstep : ledger.step new = some ledger') :
    Linked ledger' := by
  obtain ⟨hfresh, rfl, hpred⟩ := step_eq_some_iff.mp hstep
  have hparent : ∀ digest ∈ new.receipt.predecessor, ∃ parent ∈ ledger, parent.digest = digest ∧
      ∃ link, new.receipt.validateChildOf parent.receipt digest = .ok link := by
    intro digest hdigest
    obtain ⟨_, receipt, hfound, hlink⟩ := hpred digest hdigest
    obtain ⟨parent, hmem, hd, rfl⟩ := exists_of_receiptWithDigest hfound
    exact ⟨parent, hmem, hd, hlink⟩
  have hne {stored : StoredReceipt} (hmem : stored ∈ ledger) : stored.digest ≠ new.digest :=
    digest_ne_of_receiptWithDigest_eq_none hfresh hmem
  have hsub : ledger ⊆ new :: ledger := List.subset_cons_self _ _
  constructor
  · intro a ha b hb hab
    rcases List.mem_cons.mp ha with rfl | haold <;> rcases List.mem_cons.mp hb with rfl | hbold
    · rfl
    · exact absurd hab.symm (hne hbold)
    · exact absurd hab (hne haold)
    · exact h.unique a haold b hbold hab
  · intro stored hmem digest hdigest
    obtain ⟨parent, hmem, hchecked⟩ : ∃ parent ∈ ledger, parent.digest = digest ∧
        ∃ link, stored.receipt.validateChildOf parent.receipt digest = .ok link := by
      rcases List.mem_cons.mp hmem with rfl | hmem
      · exact hparent digest hdigest
      · exact h.checked stored hmem digest hdigest
    exact ⟨parent, hsub hmem, hchecked⟩
  · intro stored hmem
    rcases List.mem_cons.mp hmem with rfl | hmem
    · cases hp : stored.receipt.predecessor with
      | none => exact ⟨[], .root List.mem_cons_self hp⟩
      | some digest =>
          obtain ⟨parent, hmem, rfl, _⟩ := hparent digest hp
          obtain ⟨ancestors, hlineage⟩ := h.rooted parent hmem
          exact ⟨parent :: ancestors, .child List.mem_cons_self hp (hlineage.mono hsub)⟩
    · obtain ⟨ancestors, hlineage⟩ := h.rooted stored hmem
      exact ⟨ancestors, hlineage.mono hsub⟩

/-- Every ledger built by appends is linked. -/
theorem linked_of_run {appends : List StoredReceipt}
    (hrun : Machine.run step [] appends = some ledger) : Linked ledger :=
  Machine.run_preserves (fun _ _ _ h hstep => h.step hstep) ⟨by simp, by simp, by simp⟩ hrun

/-! ## What a lineage looks like -/

/-- A receipt of a lineage was accepted as the child of the next one. -/
theorem Linked.link (h : Linked ledger) (hlineage : Lineage ledger (child :: parent :: ancestors)) :
    ∃ link, child.receipt.validateChildOf parent.receipt parent.digest = .ok link := by
  cases hlineage with
  | child hmem hpred hparent =>
      obtain ⟨found, hfound, hdigest, hlink⟩ := h.checked child hmem parent.digest hpred
      rwa [h.unique found hfound parent hparent.mem hdigest] at hlink

/-- A chain starts with an initial intent. -/
theorem root_isIntent (hpred : stored.receipt.predecessor = none) :
    stored.receipt.event = .intent ∧ stored.receipt.recovery = .none := by
  have hvalid := (EffectReceipt.valid_iff.mp stored.valid).2
  cases hevent : stored.receipt.event with
  | intent =>
      simp only [hevent, hpred] at hvalid
      rcases EffectReceipt.validIntentShape_cases hvalid with ⟨_, hrec⟩ | ⟨_, _, hsome, _⟩
      · exact ⟨rfl, hrec⟩
      · cases hsome
  | outcome o => simp [hevent, hpred] at hvalid

/-- The two kinds of link. -/
theorem link_cases {parent child : EffectReceipt}
    {link : ValidatedReceiptLink} (h : child.validateChildOf parent digest = .ok link) :
    parent.observedAt ≤ child.observedAt ∧
      (parent.event = .intent ∧ (∃ o, child.event = .outcome o ∧
          parent.expectedOutcomeRelation o = .ok child.recovery) ∨
        child.event = .intent ∧ ∃ effect, parent.unresolved = some effect ∧
          child.recovery = .recoveryOf effect) := by
  cases link with
  | outcome =>
      obtain ⟨_, htime, hevent, _, ho⟩ := EffectReceipt.validateChildOf_outcome_iff.mp h
      exact ⟨htime, .inl ⟨hevent, ho⟩⟩
  | recoveryIntent =>
      obtain ⟨_, htime, hevent, heffect⟩ := EffectReceipt.validateChildOf_recoveryIntent_iff.mp h
      exact ⟨htime, .inr ⟨hevent, heffect⟩⟩

/-- An outcome leaves unresolved its own operation, or what its intent was to recover. -/
theorem unresolved_of_expected {intent outcome : EffectReceipt} {o : EffectOutcome}
    {effect : EffectRef} (hevent : outcome.event = .outcome o)
    (hexpected : intent.expectedOutcomeRelation o = .ok outcome.recovery)
    (h : outcome.unresolved = some effect) :
    (o = .partially ∨ o = .recoveryRequired) ∧ effect = intent.context.effect ∨
      ¬ (o = .partially ∨ o = .recoveryRequired) ∧ intent.recovery = .recoveryOf effect := by
  cases o <;> cases hrec : intent.recovery <;>
    simp only [EffectReceipt.expectedOutcomeRelation, hrec, Except.ok.injEq,
      reduceCtorEq] at hexpected
  all_goals
    simp only [EffectReceipt.unresolved, hevent, ← hexpected, Option.some.injEq, reduceCtorEq] at h
  all_goals simp [h]

/-- Along a lineage, an intent recovers the nearest unresolved operation and an outcome
leaves that operation unresolved. -/
theorem Linked.targets (h : Linked ledger) (hlineage : Lineage ledger (stored :: ancestors)) :
    (∀ effect, stored.receipt.event = .intent → stored.receipt.recovery = .recoveryOf effect →
      nearestUnresolved ancestors = some effect) ∧
      ∀ effect, stored.receipt.unresolved = some effect →
        nearestUnresolved (stored :: ancestors) = some effect := by
  generalize hchain : stored :: ancestors = chain at hlineage
  induction hlineage generalizing stored ancestors with
  | root hmem hpred =>
      obtain ⟨rfl, rfl⟩ := List.cons.inj hchain
      obtain ⟨hevent, hrec⟩ := root_isIntent hpred
      simp [hrec, EffectReceipt.unresolved, hevent]
  | @child child parent older hmem hpred hparent ih =>
      obtain ⟨rfl, rfl⟩ := List.cons.inj hchain
      obtain ⟨ihintent, ihoutcome⟩ := ih rfl
      obtain ⟨link, hlink⟩ := h.link (.child hmem hpred hparent)
      obtain ⟨_, ⟨hevent, o, ho, hexpected⟩ | ⟨hevent, effect, hunresolved, hrec⟩⟩ :=
        link_cases hlink
      -- an outcome of the intent `parent`
      · refine ⟨by simp [ho], fun effect heffect => ?_⟩
        rcases unresolved_of_expected ho hexpected heffect with ⟨hkind, rfl⟩ | ⟨hkind, hrec⟩
        · simp [nearestUnresolved, ho, hkind]
        · simpa [nearestUnresolved, ho, hkind] using ihintent effect hevent hrec
      -- an intent that recovers the outcome `parent`
      · refine ⟨fun effect' _ hrec' => ?_, by simp [EffectReceipt.unresolved, hevent]⟩
        obtain rfl : effect = effect' := by simpa [hrec] using hrec'
        exact ihoutcome effect hunresolved

/-- Intents and outcomes alternate along a lineage, and no receipt is earlier than the ones
it descends from. -/
theorem Linked.ordered (h : Linked ledger) (hlineage : Lineage ledger chain) :
    chain.IsChain (fun newer older =>
        newer.receipt.event = .intent ↔ ¬ older.receipt.event = .intent) ∧
      chain.Pairwise fun newer older => older.receipt.observedAt ≤ newer.receipt.observedAt := by
  induction hlineage with
  | root _ _ => exact ⟨.singleton _, List.pairwise_singleton _ _⟩
  | @child child parent older hmem hpred hparent ih =>
      obtain ⟨halternate, htimes⟩ := ih
      obtain ⟨link, hlink⟩ := h.link (.child hmem hpred hparent)
      obtain ⟨htime, hkinds⟩ := link_cases hlink
      refine ⟨.cons_cons ?_ halternate, List.pairwise_cons.mpr ⟨?_, htimes⟩⟩
      · obtain ⟨hevent, o, ho, _⟩ | ⟨hevent, effect, hunresolved, _⟩ := hkinds
        · simp [hevent, ho]
        · have : parent.receipt.event ≠ .intent := by
            intro hintent
            simp [EffectReceipt.unresolved, hintent] at hunresolved
          simp [hevent, this]
      · intro older' hmem'
        rcases List.mem_cons.mp hmem' with rfl | hmem'
        · exact htime
        · exact ((List.pairwise_cons.mp htimes).1 older' hmem').trans htime

/-- An outcome that needs no recovery has no child. -/
theorem Linked.hasDescendant_eq_false (h : Linked ledger) (hmem : stored ∈ ledger)
    {o : EffectOutcome} (hevent : stored.receipt.event = .outcome o)
    (hneeds : outcomeNeedsRecovery o stored.receipt.recovery = false) :
    ledger.hasDescendant stored.digest = false := by
  rw [hasDescendant, List.any_eq_false]
  intro child hchild hpred
  obtain ⟨parent, hparent, hdigest, link, hlink⟩ :=
    h.checked child hchild stored.digest (of_decide_eq_true hpred)
  obtain rfl := h.unique parent hparent stored hmem hdigest
  obtain ⟨_, ⟨hintent, _⟩ | ⟨_, effect, hunresolved, _⟩⟩ := link_cases hlink
  · simp [hevent] at hintent
  · have := (EffectReceipt.outcomeNeedsRecovery_iff hevent).mpr ⟨effect, hunresolved⟩
    simp [hneeds] at this

/-- **Chains of receipts.**  In every ledger built by appends, every receipt has a lineage;
along a lineage intents and outcomes alternate and times do not decrease; an outcome that
needs no recovery has no child; and a recovery intent recovers the operation of the nearest
ancestor whose outcome was partial or required recovery. -/
theorem lineage_sound {appends : List StoredReceipt}
    (hrun : Machine.run step [] appends = some ledger) :
    (∀ stored ∈ ledger, ∃ ancestors, Lineage ledger (stored :: ancestors)) ∧
      (∀ chain, Lineage ledger chain →
        chain.IsChain (fun newer older =>
            newer.receipt.event = .intent ↔ ¬ older.receipt.event = .intent) ∧
          chain.Pairwise fun newer older => older.receipt.observedAt ≤ newer.receipt.observedAt) ∧
      (∀ outcome ∈ ledger, ∀ o, outcome.receipt.event = .outcome o →
        outcomeNeedsRecovery o outcome.receipt.recovery = false →
        ledger.hasDescendant outcome.digest = false) ∧
      ∀ intent ancestors, Lineage ledger (intent :: ancestors) →
        intent.receipt.event = .intent → intent.receipt.predecessor ≠ none →
        ∃ effect, intent.receipt.recovery = .recoveryOf effect ∧
          nearestUnresolved ancestors = some effect := by
  have h := linked_of_run hrun
  refine ⟨h.rooted, fun _ => h.ordered, fun _ hmem _ => h.hasDescendant_eq_false hmem, ?_⟩
  intro intent ancestors hlineage hevent hpred
  have hshape := (EffectReceipt.valid_iff.mp intent.valid).2
  rw [hevent] at hshape
  rcases EffectReceipt.validIntentShape_cases hshape with ⟨hnone, _⟩ | ⟨_, effect, _, hrec⟩
  · exact absurd hnone hpred
  · exact ⟨effect, hrec, (h.targets hlineage).1 effect hevent hrec⟩

/-- Operation 7 is left half done and operation 8 recovers it. -/
def sampleLedger : Ledger :=
  [⟨sampleRef 13, sampleRecovery, by decide⟩, ⟨sampleRef 12, samplePartial, by decide⟩,
    ⟨sampleRef 11, sampleIntent, by decide⟩]

theorem lineage_sound_recovery :
    Machine.run step [] sampleLedger.reverse = some sampleLedger ∧
      ∀ intent ancestors, Lineage sampleLedger (intent :: ancestors) →
        intent.digest = sampleRef 13 → nearestUnresolved ancestors = some (sampleRef 7) := by
  have hrun : Machine.run step [] sampleLedger.reverse = some sampleLedger := by decide
  refine ⟨hrun, fun intent ancestors hlineage hdigest => ?_⟩
  have hintent : intent.receipt = sampleRecovery := by
    have hmem : intent ∈ sampleLedger := by cases hlineage <;> assumption
    have hall : ∀ e ∈ sampleLedger, e.digest = sampleRef 13 →
        e.receipt = sampleRecovery := by decide
    exact hall intent hmem hdigest
  obtain ⟨effect, hrec, hnearest⟩ := (lineage_sound hrun).2.2.2 intent ancestors hlineage
    (by rw [hintent]; rfl) (by rw [hintent]; decide)
  rw [hintent] at hrec
  rwa [← (RecoveryRelation.recoveryOf.inj hrec : sampleRef 7 = effect)] at hnearest

end Ledger

end Akroasis.Effects
