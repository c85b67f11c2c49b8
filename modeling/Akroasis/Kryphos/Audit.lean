import Akroasis.Kryphos.System

/-!
# Akroasis.Kryphos.Audit

The audit log of the vault against its store.  The two have no common transaction, and
`commit_audited` writes the audit entry first.  `audit_before_effect` says what that order is
worth when any step may fail: the store never changes without its own entry in the log before
it, there are no more successful operations than entries, and without an entry there is no
change.
-/

namespace Akroasis.Kryphos

/-- The operation that holds the lock has its entry in the audit log. -/
def Phase.isAudited : Phase → Bool
  | .audited _ | .written => true
  | .locked | .prepared _ => false

namespace State

variable {V : Vault} {s s' : State} {e : Event} {events : List Event}

/-- The store that is left by what happened to it. -/
def replay (log : List StoreAction) : Keyspace :=
  log.foldl (fun keyspace action =>
    match action with
    | .audit _ => keyspace
    | .change _ mutation => mutation.apply keyspace) ∅

/-- How many operations of a kind on a credential have succeeded. -/
def successes (s : State) (name : Name) (operation : String) : Nat :=
  s.replies.countP fun r =>
    r.op.name = name ∧ r.op.operation = operation ∧ r.outcome.result r.op = .ok ()

/-- How many entries of a kind the audit log has for a credential. -/
def audits (V : Vault) (s : State) (name : Name) (operation : String) : Nat :=
  s.log.countP fun a => a = .audit ⟨auditRef V name, operation⟩

/-- Whether such an operation is under way for a credential. -/
def underway (s : State) (name : Name) (operation : String) : Nat :=
  s.holder.toList.countP fun p =>
    p.phase.isAudited ∧ p.op.name = name ∧ p.op.operation = operation

/-- The audit log accounts for the store. -/
structure Accounted (V : Vault) (s : State) : Prop where
  lock : Undisturbed V s
  store : s.keyspace = replay s.log
  preceded : ∀ before op mutation after, s.log = before ++ .change op mutation :: after →
    ∃ earlier, before = earlier ++ [.audit (auditEntry V op)]
  counted : ∀ name operation,
    s.successes name operation + s.underway name operation ≤ s.audits V name operation
  unchanged : ∀ r ∈ s.replies, r.outcome = .auditFailed → r.after = r.before

theorem accounted_start : Accounted V start where
  lock := undisturbed_start
  store := rfl
  preceded := by simp [start]
  counted := by simp [start, successes, underway]
  unchanged := by simp [start]

/-- The store changes by what is written down, right after its audit entry. -/
theorem Accounted.preceded_step (h : Accounted V s) (hstep : s.step V e = some s') :
    s'.keyspace = replay s'.log ∧
      ∀ before op mutation after, s'.log = before ++ .change op mutation :: after →
        ∃ earlier, before = earlier ++ [.audit (auditEntry V op)] := by
  rcases change_linearized h.lock hstep with ⟨hsame, hlog | ⟨op, hlog⟩⟩ |
    ⟨p, env, mutation, earlier, _, _, _, happly, hlast, hlog⟩
  · rw [hsame, hlog]
    exact ⟨h.store, h.preceded⟩
  · rw [hsame, hlog]
    refine ⟨by simpa [replay] using h.store, fun before op' mutation after heq => ?_⟩
    rcases Machine.append_singleton_split heq with ⟨_, hne⟩ | ⟨rest, hrest⟩
    · cases hne
    · exact h.preceded before op' mutation rest hrest
  · rw [happly, hlog]
    refine ⟨by simp [replay, h.store], fun before op' mutation' after heq => ?_⟩
    rcases Machine.append_singleton_split heq with ⟨rfl, hchange⟩ | ⟨rest, hrest⟩
    · obtain ⟨rfl, _⟩ := StoreAction.change.inj hchange
      exact ⟨earlier, hlast⟩
    · exact h.preceded before op' mutation' rest hrest

/-- Every success has used up the audit entry of its own operation. -/
theorem Accounted.counted_step (h : Accounted V s) (hstep : s.step V e = some s') (name : Name)
    (operation : String) :
    s'.successes name operation + s'.underway name operation ≤ s'.audits V name operation := by
  have hs := h.counted name operation
  simp only [successes, underway, audits] at hs ⊢
  rcases step_cases hstep with rfl | ⟨hholder, op, _, rfl⟩ | ⟨p, hholder, hadvanced⟩
  · exact hs
  · simpa [hholder, Phase.isAudited] using hs
  · rw [hholder, Option.toList_some, List.countP_singleton] at hs
    cases hadvanced with
    | refused hphase error => simpa [finish, Outcome.result, hphase, Phase.isAudited] using hs
    | prepared hphase hprepare => simpa [goto, hphase, Phase.isAudited] using hs
    | audited hphase =>
        simp only [goto, record, List.countP_append, List.countP_singleton, Option.toList_some,
          hphase, Phase.isAudited, auditEntry] at hs ⊢
        by_cases hmatch : p.op.name = name ∧ p.op.operation = operation
        · obtain ⟨rfl, rfl⟩ := hmatch
          simpa using hs
        · simp only [hmatch, and_false, decide_false, Bool.false_eq_true, if_false] at hs ⊢
          omega
    | auditFailed hphase => simpa [finish, Outcome.result, hphase, Phase.isAudited] using hs
    | auditLost hphase =>
        simp [finish, record, Outcome.result, hphase, Phase.isAudited, List.countP_append] at hs ⊢
        omega
    | written hphase hfits => simpa [goto, change, hphase, Phase.isAudited] using hs
    | writeFailed hphase | persistFailed hphase =>
        simp [finish, Outcome.result] at hs ⊢
        omega
    | done hphase =>
        simpa [finish, Outcome.result, hphase, Phase.isAudited, List.countP_singleton] using hs

/-- An operation that ends without an audit entry leaves the store as it found it. -/
theorem Accounted.unchanged_step (h : Accounted V s) (hstep : s.step V e = some s') :
    ∀ r ∈ s'.replies, r.outcome = .auditFailed → r.after = r.before := by
  rcases step_cases hstep with rfl | ⟨_, op, _, rfl⟩ | ⟨p, hholder, hadvanced⟩
  · exact h.unchanged
  · exact h.unchanged
  · have hlast : ∀ outcome after, (outcome = .auditFailed → after = p.before) →
        ∀ r ∈ s.replies ++ [⟨p.thread, p.op, outcome, p.before, after⟩],
          r.outcome = .auditFailed → r.after = r.before := by
      intro outcome after hnew r hmem houtcome
      rcases List.mem_append.mp hmem with hold | hnewest
      · exact h.unchanged r hold houtcome
      · obtain rfl := List.mem_singleton.mp hnewest
        exact hnew houtcome
    have hp := h.lock p hholder
    cases hadvanced with
    | prepared | audited | written => exact h.unchanged
    | refused | writeFailed | persistFailed | done =>
        exact hlast _ _ (fun houtcome => nomatch houtcome)
    | auditFailed hphase | auditLost hphase =>
        rw [hphase] at hp
        exact hlast _ _ fun _ => hp.1

/-- **Audit before effect.**  In every state of every run the store is what the logged changes
make of it, each of them follows its own audit entry directly, there are no more successful
operations of a kind on a credential than audit entries for it, and an operation whose audit
append failed has left the store as it was. -/
theorem audit_before_effect (hrun : Machine.run (step V) start events = some s) :
    s.keyspace = replay s.log ∧
      (∀ before op mutation after, s.log = before ++ .change op mutation :: after →
        ∃ earlier, before = earlier ++ [.audit ⟨auditRef V op.name, op.operation⟩]) ∧
      (∀ name operation, s.successes name operation ≤ s.audits V name operation) ∧
      ∀ r ∈ s.replies, r.outcome = .auditFailed → r.after = r.before := by
  have h : Accounted V s := by
    refine Machine.run_preserves ?_ accounted_start hrun
    intro s e s' hs hstep
    obtain ⟨hstore, hpreceded⟩ := hs.preceded_step hstep
    exact ⟨hs.lock.step hstep, hstore, hpreceded, hs.counted_step hstep, hs.unchanged_step hstep⟩
  exact ⟨h.store, h.preceded, fun name operation => (Nat.le_add_right _ _).trans
    (h.counted name operation), h.unchanged⟩

/-- Credential `wx` is added; its rotation fails because the audit log cannot be written. -/
theorem audit_before_effect_failed :
    ∃ s, Machine.run (step sampleVault) start
        (sampleEvents 1 (.add (ascii "wx") .apiKey (ascii "s1")) 1 ++
          [⟨2, .acquire (.rotate (ascii "wx") (ascii "s2"))⟩,
            ⟨2, .prepare ⟨sampleTime 2, default, default, false⟩⟩,
              ⟨2, .audit (.failed false)⟩]) = some s ∧
      s.replies.map Reply.outcome = [.done, .auditFailed] ∧
      s.successes (ascii "wx") "add" ≤ s.audits sampleVault (ascii "wx") "add" ∧
      ∀ r ∈ s.replies, r.outcome = .auditFailed → r.after = r.before := by
  have hview : ((Machine.run (step sampleVault) start
      (sampleEvents 1 (.add (ascii "wx") .apiKey (ascii "s1")) 1 ++
        [⟨2, .acquire (.rotate (ascii "wx") (ascii "s2"))⟩,
          ⟨2, .prepare ⟨sampleTime 2, default, default, false⟩⟩, ⟨2, .audit (.failed false)⟩])).map
      fun s => s.replies.map Reply.outcome) = some [.done, .auditFailed] := by decide +kernel
  obtain ⟨s, hrun, houtcomes⟩ := Option.map_eq_some_iff.mp hview
  obtain ⟨_, _, hcounted, hunchanged⟩ := audit_before_effect hrun
  exact ⟨s, hrun, houtcomes, hcounted _ _, hunchanged⟩

end State

end Akroasis.Kryphos
