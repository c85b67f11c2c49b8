import Akroasis.Results
import Mathlib.Control.Basic

/-!
# Akroasis.Driver

Calls on a device: a call ends with a result or an error and leaves the device in a new
state in either case, as a `?` does that returns early.

`exec` runs a call.  `exec_bind_ok` and `exec_bind_eq_ok` take a sequence of calls apart,
`retrying` repeats a call that fails, and `forM_induction` is the induction over a loop
that ran to its end.  `Moves` says what a call does to the state whatever its outcome, and
`EndsIn` what it returns and what it leaves if it fails, with one rule for each way to put
calls together.  The module names nothing of the repository.
-/

namespace Akroasis

/-- A call on a device with states `σ`. -/
abbrev Driver (ε σ α : Type) := ExceptT ε (StateM σ) α

namespace Driver

variable {ε σ α β : Type} {x : Driver ε σ α} {s t : σ} {a : α} {e : ε} {f : α → Driver ε σ β}
  {final : ε → Option ε} {exhausted : ε → ε}

/-- The outcome of a call and the state afterwards. -/
def exec (x : Driver ε σ α) (s : σ) : Except ε α × σ := x.run s

/-- A call given by what it does in each state. -/
def ofExec (f : σ → Except ε α × σ) : Driver ε σ α := ExceptT.mk f

/-- A result computed without the device. -/
def ofResult : Except ε α → Driver ε σ α
  | .ok a => pure a
  | .error e => throw e

@[simp] theorem exec_pure : exec (pure a : Driver ε σ α) s = (.ok a, s) := rfl

@[simp] theorem exec_throw : exec (throw e : Driver ε σ α) s = (.error e, s) := rfl

@[simp] theorem exec_ofExec {f : σ → Except ε α × σ} : exec (ofExec f) s = f s := rfl

theorem exec_bind :
    exec (x >>= f) s =
      match exec x s with
      | (.ok a, t) => exec (f a) t
      | (.error e, t) => (.error e, t) := by
  show (ExceptT.bindCont f (exec x s).1) (exec x s).2 = _
  cases h : exec x s with
  | mk result t => cases result <;> rfl

theorem exec_bind_ok (h : exec x s = (.ok a, t)) :
    exec (x >>= f) s = exec (f a) t := by
  rw [exec_bind, h]

theorem exec_bind_error (h : exec x s = (.error e, t)) :
    exec (x >>= f) s = (.error e, t) := by
  rw [exec_bind, h]

theorem exec_bind_eq_ok {b : β} {u : σ} :
    exec (x >>= f) s = (.ok b, u) ↔ ∃ a t, exec x s = (.ok a, t) ∧ exec (f a) t = (.ok b, u) := by
  rw [exec_bind]
  cases h : exec x s with
  | mk result t =>
      cases result with
      | error e => simp
      | ok a =>
          constructor
          · intro hrest
            exact ⟨a, t, rfl, hrest⟩
          · rintro ⟨_, _, ⟨rfl, rfl⟩, hrest⟩
            exact hrest

theorem exec_ofResult (r : Except ε α) : exec (ofResult r : Driver ε σ α) s = (r, s) := by
  cases r <;> rfl

/-! ## Changed errors -/

/-- A call with its errors changed, as `map_err` does. -/
def mapErr {ε' : Type} (f : ε → ε') (x : Driver ε σ α) : Driver ε' σ α :=
  ofExec fun s => ((exec x s).1.mapError f, (exec x s).2)

theorem exec_mapErr_eq_ok {ε' : Type} {f : ε → ε'} :
    exec (mapErr f x) s = (.ok a, t) ↔ exec x s = (.ok a, t) := by
  rw [mapErr, exec_ofExec]
  cases h : exec x s with
  | mk result u => cases result <;> simp

/-! ## Repeated calls -/

theorem exec_tryCatch {handle : ε → Driver ε σ α} :
    exec (tryCatch x handle) s =
      match exec x s with
      | (.ok a, t) => (.ok a, t)
      | (.error e, t) => exec (handle e) t := by
  show (match (exec x s).1 with
    | .ok a => exec (pure a)
    | .error e => exec (handle e)) (exec x s).2 = _
  cases h : exec x s with
  | mk result t => cases result <;> rfl

/-- A call repeated while it fails, `left` more times at most.  An error for which `final`
gives another one is not tried again, and neither is the last one, which becomes `exhausted`. -/
def retrying (final : ε → Option ε) (exhausted : ε → ε) (x : Driver ε σ α) : Nat → Driver ε σ α
  | 0 => tryCatch x fun e => throw ((final e).getD (exhausted e))
  | left + 1 => tryCatch x fun e =>
      match final e with
      | some e' => throw e'
      | none => retrying final exhausted x left

theorem exec_retrying_of_ok {left : Nat}
    (h : exec x s = (.ok a, t)) : exec (retrying final exhausted x left) s = (.ok a, t) := by
  cases left <;> rw [retrying, exec_tryCatch, h]

theorem exec_retrying_of_error {left : Nat}
    (h : exec x s = (.error e, t)) (hfinal : final e = none) :
    exec (retrying final exhausted x (left + 1)) s = exec (retrying final exhausted x left) t := by
  rw [retrying, exec_tryCatch, h]
  simp only [hfinal]

theorem exec_retrying_eq_ok {left : Nat}
    (h : exec (retrying final exhausted x left) s = (.ok a, t)) :
    exec x s = (.ok a, t) ∨
      ∃ e s' left', exec x s = (.error e, s') ∧ left = left' + 1 ∧
        exec (retrying final exhausted x left') s' = (.ok a, t) := by
  cases hx : exec x s with
  | mk result s' =>
      cases result with
      | ok b => exact .inl ((exec_retrying_of_ok hx).symm.trans h)
      | error e =>
          cases left with
          | zero => simp [retrying, exec_tryCatch, hx] at h
          | succ left =>
              simp only [retrying, exec_tryCatch, hx] at h
              split at h
              · simp at h
              · exact .inr ⟨e, s', left, rfl, rfl, h⟩

/-- **Induction over repeated calls** that ended well: failed attempts, then one that returns. -/
theorem retrying_induction {motive : σ → σ → Prop}
    (last : ∀ s t, exec x s = (.ok a, t) → motive s t)
    (failed : ∀ s s' t e, exec x s = (.error e, s') → motive s' t → motive s t) {left : Nat}
    (h : exec (retrying final exhausted x left) s = (.ok a, t)) : motive s t := by
  induction left generalizing s with
  | zero =>
      obtain hx | ⟨_, _, _, _, hleft, _⟩ := exec_retrying_eq_ok h
      · exact last _ _ hx
      · simp at hleft
  | succ left ih =>
      obtain hx | ⟨e, s', _, hx, hleft, hrest⟩ := exec_retrying_eq_ok h
      · exact last _ _ hx
      obtain rfl := Nat.succ.inj hleft
      exact failed _ _ _ _ hx (ih hrest)

/-! ## Loops -/

/-- **Induction over a loop** that ran to its end. -/
theorem forM_induction {f : α → Driver ε σ PUnit} {motive : List α → σ → σ → Prop}
    (nil : ∀ s, motive [] s s)
    (cons : ∀ a l s s' t, exec (f a) s = (.ok ⟨⟩, s') → motive l s' t → motive (a :: l) s t)
    {l : List α} (h : exec (l.forM f) s = (.ok ⟨⟩, t)) : motive l s t := by
  induction l generalizing s with
  | nil =>
      obtain rfl : s = t := congrArg Prod.snd h
      exact nil s
  | cons a l ih =>
      obtain ⟨_, s', hfirst, hrest⟩ := exec_bind_eq_ok.mp h
      exact cons a l s s' t hfirst (ih hrest)

/-! ## What calls do to the state -/

/-- Whatever its outcome, the call moves the state as `R` says. -/
def Moves (R : σ → σ → Prop) (x : Driver ε σ α) : Prop := ∀ s, R s (exec x s).2

section Moves

variable {R : σ → σ → Prop}

theorem Moves.of_exec {r : Except ε α} (hx : Moves R x) (h : exec x s = (r, t)) : R s t := by
  have := hx s
  rwa [h] at this

section Trans

variable (htrans : ∀ s t u, R s t → R t u → R s u)

include htrans

theorem Moves.bind {f : α → Driver ε σ β} (hx : Moves R x) (hf : ∀ a, Moves R (f a)) :
    Moves R (x >>= f) := by
  intro s
  have hfirst := hx s
  rw [exec_bind]
  cases hrun : exec x s with
  | mk result t =>
      rw [hrun] at hfirst
      cases result with
      | error e => exact hfirst
      | ok a => exact htrans _ _ _ hfirst (hf a t)

theorem Moves.tryCatch {handle : ε → Driver ε σ α} (hx : Moves R x) (hh : ∀ e, Moves R (handle e)) :
    Moves R (MonadExcept.tryCatch x handle) := by
  intro s
  have hfirst := hx s
  rw [exec_tryCatch]
  cases hrun : exec x s with
  | mk result t =>
      rw [hrun] at hfirst
      cases result with
      | ok a => exact hfirst
      | error e => exact htrans _ _ _ hfirst (hh e t)

variable (hrefl : ∀ s, R s s)

include hrefl

theorem Moves.retrying {final : ε → Option ε} {exhausted : ε → ε} (hx : Moves R x) (left : Nat) :
    Moves R (Driver.retrying final exhausted x left) := by
  induction left with
  | zero => exact hx.tryCatch htrans fun e s => hrefl s
  | succ left ih =>
      refine hx.tryCatch htrans fun e => ?_
      split
      · exact fun s => hrefl s
      · exact ih

theorem moves_forM {f : α → Driver ε σ PUnit} {l : List α} (h : ∀ a ∈ l, Moves R (f a)) :
    Moves R (l.forM f) := by
  induction l with
  | nil => exact fun s => hrefl s
  | cons a l ih =>
      have hrest := ih fun b hb => h b (List.mem_cons_of_mem a hb)
      exact (h a List.mem_cons_self).bind htrans fun _ => hrest

end Trans

end Moves

/-! ## What calls return -/

/-- The call returns `a` and leaves `t`, or it fails as `Q` says. -/
def EndsIn (x : Driver ε σ α) (s : σ) (a : α) (t : σ) (Q : ε → σ → Prop) : Prop :=
  exec x s = (.ok a, t) ∨ ∃ e u, exec x s = (.error e, u) ∧ Q e u

section EndsIn

variable {Q : ε → σ → Prop}

theorem endsIn_pure : EndsIn (pure a) s a s Q := .inl rfl

theorem endsIn_ofResult {r : Except ε α} (h : r = .ok a) : EndsIn (ofResult r) s a s Q :=
  .inl (h ▸ exec_ofResult r)

theorem EndsIn.bind {f : α → Driver ε σ β} {b : β} {u : σ} (hx : EndsIn x s a t Q)
    (hf : EndsIn (f a) t b u Q) :
    EndsIn (x >>= f) s b u Q := by
  obtain hx | ⟨e, left, hx, hQ⟩ := hx
  · rwa [EndsIn, exec_bind_ok hx]
  · exact .inr ⟨e, left, exec_bind_error hx, hQ⟩

theorem EndsIn.mono {Q' : ε → σ → Prop} (h : EndsIn x s a t Q) (hQ : ∀ e u, Q e u → Q' e u) :
    EndsIn x s a t Q' :=
  h.imp_right fun ⟨e, u, hexec, hleft⟩ => ⟨e, u, hexec, hQ e u hleft⟩

/-- A call that fails as nothing can returns. -/
theorem EndsIn.exec_eq (h : EndsIn x s a t Q) (hQ : ∀ e u, ¬Q e u) : exec x s = (.ok a, t) := by
  obtain h | ⟨e, u, -, hfail⟩ := h
  · exact h
  · exact absurd hfail (hQ e u)

end EndsIn

end Driver

end Akroasis
