import Mathlib.Control.Basic

/-!
# Akroasis.Machine

Machines whose step is a partial function: `step s e = none` says that the event `e`
cannot happen in the state `s`.

`Meets` says that every event of a run satisfies a condition in the state in which it
happens, and `run_invariant` is the induction over runs: what one step under the
condition preserves, a whole run preserves.  The module names nothing of any particular
machine.
-/

namespace Akroasis.Machine

variable {S E : Type*} (step : S → E → Option S) {P : S → E → Prop} {I : S → Prop}

/-- The state after a list of events, if all of them can happen. -/
def run (s : S) (events : List E) : Option S := events.foldlM step s

/-- Every event satisfies `P` in the state in which it happens. -/
def Meets (P : S → E → Prop) : S → List E → Prop
  | _, [] => True
  | s, e :: es => P s e ∧ ∀ s' ∈ step s e, Meets P s' es

instance decidableMeets (P : S → E → Prop) [∀ s e, Decidable (P s e)] :
    ∀ s es, Decidable (Meets step P s es)
  | _, [] => inferInstanceAs (Decidable True)
  | s, e :: es =>
      have (s' : S) : Decidable (Meets step P s' es) := decidableMeets P s' es
      inferInstanceAs (Decidable (P s e ∧ ∀ s' ∈ step s e, Meets step P s' es))

variable {step} {s s' : S} {e : E} {es : List E}

@[simp] theorem run_nil : run step s [] = some s := rfl

theorem run_cons : run step s (e :: es) = (step s e).bind fun t => run step t es := rfl

theorem run_append {fs : List E} :
    run step s (es ++ fs) = (run step s es).bind fun t => run step t fs :=
  List.foldlM_append

/-- **Induction over runs**: what a step under `P` preserves, a run under `P` preserves. -/
theorem run_invariant
    (hstep : ∀ s e s', I s → P s e → step s e = some s' → I s')
    (h : I s) (hmeets : Meets step P s es) (hrun : run step s es = some s') : I s' := by
  induction es generalizing s with
  | nil =>
      obtain rfl := Option.some.inj hrun
      exact h
  | cons e es ih =>
      obtain ⟨t, ht, hrest⟩ := Option.bind_eq_some_iff.mp (run_cons ▸ hrun)
      exact ih (hstep s e t h hmeets.1 ht) (hmeets.2 t ht) hrest

/-- **Progress over runs**: if every one of the first `N` steps can happen and leads from
`I n` to `I (n + 1)`, a run of that length can happen. -/
theorem exists_run {I : Nat → S → Prop} {N n : Nat}
    (hstep : ∀ n < N, ∀ s e, I n s → ∃ s', step s e = some s' ∧ I (n + 1) s')
    (hlen : n + es.length ≤ N) (h : I n s) :
    ∃ s', run step s es = some s' ∧ I (n + es.length) s' := by
  induction es generalizing n s with
  | nil => exact ⟨s, rfl, h⟩
  | cons e es ih =>
      rw [List.length_cons] at hlen
      obtain ⟨t, ht, hI⟩ := hstep n (by omega) s e h
      obtain ⟨s', hs', hI'⟩ := ih (by omega) hI
      refine ⟨s', by rw [run_cons, ht, Option.bind_some, hs'], ?_⟩
      rwa [List.length_cons, ← Nat.add_assoc, Nat.add_right_comm]

/-- Two conditions that agree in every state of an invariant, which calls under the first
one preserve, hold of the same runs. -/
theorem meets_congr {Q : S → E → Prop}
    (hstep : ∀ s e s', I s → P s e → step s e = some s' → I s')
    (hiff : ∀ s e, I s → (P s e ↔ Q s e)) (h : I s) : Meets step P s es ↔ Meets step Q s es := by
  induction es generalizing s with
  | nil => exact Iff.rfl
  | cons e es ih =>
      have hrest : P s e → ∀ s' ∈ step s e, (Meets step P s' es ↔ Meets step Q s' es) :=
        fun hP s' hs' => ih (hstep s e s' h hP hs')
      constructor
      · intro hmeets
        exact ⟨(hiff s e h).mp hmeets.1, fun s' hs' => (hrest hmeets.1 s' hs').mp (hmeets.2 s' hs')⟩
      · intro hmeets
        have hP := (hiff s e h).mpr hmeets.1
        exact ⟨hP, fun s' hs' => (hrest hP s' hs').mpr (hmeets.2 s' hs')⟩

/-- If a step keeps `I` exactly if it meets `P`, a run meets `P` exactly if `I` holds after every
part of it. -/
theorem meets_iff_take
    (hstep : ∀ s e s', I s → step s e = some s' → (P s e ↔ I s')) (h : I s)
    (hrun : run step s es = some s') :
    Meets step P s es ↔ ∀ n t, run step s (es.take n) = some t → I t := by
  induction es generalizing s with
  | nil =>
      refine ⟨fun _ n t ht => ?_, fun _ => trivial⟩
      rw [List.take_nil] at ht
      exact Option.some.inj ht ▸ h
  | cons e es ih =>
      obtain ⟨t, ht, hrest⟩ := Option.bind_eq_some_iff.mp (run_cons ▸ hrun)
      have htake : ∀ n, run step s ((e :: es).take (n + 1)) = run step t (es.take n) := fun n => by
        rw [List.take_succ_cons, run_cons, ht, Option.bind_some]
      constructor
      · intro hmeets n u hu
        cases n with
        | zero => exact Option.some.inj hu ▸ h
        | succ n =>
            have ht' := (hstep s e t h ht).mp hmeets.1
            exact (ih ht' hrest).mp (hmeets.2 t ht) n u (htake n ▸ hu)
      · intro hall
        have ht' : I t := hall 1 t (htake 0)
        refine ⟨(hstep s e t h ht).mpr ht', fun u hu => ?_⟩
        obtain rfl := Option.some.inj (ht.symm.trans hu)
        exact (ih ht' hrest).mpr fun n v hv => hall (n + 1) v ((htake n).trans hv)

/-- A condition that always holds. -/
theorem meets_of_forall (h : ∀ s e, P s e) (s : S) (es : List E) :
    Meets step P s es := by
  induction es generalizing s with
  | nil => trivial
  | cons e es ih => exact ⟨h s e, fun t _ => ih t⟩

/-- What every step preserves, every run preserves. -/
theorem run_preserves (hstep : ∀ s e s', I s → step s e = some s' → I s') (h : I s)
    (hrun : run step s es = some s') : I s' :=
  run_invariant (P := fun _ _ => True) (fun s e s' h _ => hstep s e s' h) h
    (meets_of_forall (fun _ _ => trivial) s es) hrun

/-- A condition that every event of the list satisfies, in any state. -/
theorem meets_of_forall_mem (h : ∀ e ∈ es, ∀ s, P s e) (s : S) :
    Meets step P s es := by
  induction es generalizing s with
  | nil => trivial
  | cons e es ih =>
      exact ⟨h e List.mem_cons_self s,
        fun t _ => ih (fun f hf => h f (List.mem_cons_of_mem e hf)) t⟩

/-- If no event under `P` is stuck in a state of an invariant, no run under `P` is. -/
theorem exists_run_of_meets
    (hstep : ∀ s e, I s → P s e → ∃ s', step s e = some s' ∧ I s') (h : I s)
    (hmeets : Meets step P s es) :
    ∃ s', run step s es = some s' ∧ I s' := by
  induction es generalizing s with
  | nil => exact ⟨s, rfl, h⟩
  | cons e es ih =>
      obtain ⟨t, ht, hI⟩ := hstep s e h hmeets.1
      obtain ⟨s', hs', hI'⟩ := ih hI (hmeets.2 t ht)
      exact ⟨s', by rw [run_cons, ht, Option.bind_some, hs'], hI'⟩

/-- If no event is stuck in a state of an invariant, no run is. -/
theorem exists_run_of_invariant
    (hstep : ∀ s e, I s → ∃ s', step s e = some s' ∧ I s') (h : I s) (es : List E) :
    ∃ s', run step s es = some s' ∧ I s' :=
  exists_run_of_meets (P := fun _ _ => True) (fun s e h _ => hstep s e h) h
    (meets_of_forall (fun _ _ => trivial) s es)

/-! ## Termination -/

section Measure

variable {μ : S → Nat} (hdec : ∀ s e s', step s e = some s' → μ s' < μ s)

include hdec

/-- **Termination**: if every step decreases a measure, the measure bounds the length of runs. -/
theorem length_add_le_of_run (hrun : run step s es = some s') : es.length + μ s' ≤ μ s := by
  induction es generalizing s with
  | nil =>
      obtain rfl := Option.some.inj hrun
      simp
  | cons e es ih =>
      obtain ⟨t, ht, hrest⟩ := Option.bind_eq_some_iff.mp (run_cons ▸ hrun)
      have hlt := hdec s e t ht
      have hle := ih hrest
      rw [List.length_cons]
      omega

/-- **Completion**: if besides a step is possible in every state of an invariant that is not
final, a final state can be reached from everywhere. -/
theorem exists_run_to {I F : S → Prop} (hstep : ∀ s e s', I s → step s e = some s' → I s')
    (hprogress : ∀ s, I s → ¬F s → ∃ e s', step s e = some s') (h : I s) :
    ∃ es s', run step s es = some s' ∧ F s' := by
  induction hn : μ s using Nat.strongRecOn generalizing s with
  | _ n ih =>
      by_cases hF : F s
      · exact ⟨[], s, rfl, hF⟩
      · obtain ⟨e, t, ht⟩ := hprogress s h hF
        obtain ⟨es, s', hrun, hF'⟩ := ih (μ t) (hn ▸ hdec s e t ht) (hstep s e t h ht) rfl
        exact ⟨e :: es, s', by rw [run_cons, ht, Option.bind_some, hrun], hF'⟩

end Measure

/-- A place in a log that has grown by one action is the new end, or a place in the old log. -/
theorem append_singleton_split {α : Type*} {l before after : List α} {x a : α}
    (h : l ++ [x] = before ++ a :: after) :
    before = l ∧ a = x ∨ ∃ rest, l = before ++ a :: rest := by
  rcases List.eq_nil_or_concat after with rfl | ⟨rest, y, rfl⟩
  · obtain ⟨hl, hx⟩ := List.append_inj' h rfl
    exact .inl ⟨hl.symm, (List.singleton_inj.mp hx).symm⟩
  · rw [List.concat_eq_append, ← List.cons_append, ← List.append_assoc] at h
    exact .inr ⟨rest, (List.append_inj' h rfl).1⟩

end Akroasis.Machine
