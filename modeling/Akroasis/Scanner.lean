import Mathlib.Data.List.Basic

/-!
# Akroasis.Scanner

Scanning a stream that arrives in pieces.  A scanner makes one move at a time: it takes
some symbols off the front of its buffer, with or without an item to show for them, or it
waits for more.

Two laws make a scanner: a move takes at least one symbol, and what it does is settled by
the symbols it has seen, so that later ones cannot change it.  From these, `drain_append`:
the moves on `xs ++ ys` are the moves on `xs` and then those on what is left of `xs` with
`ys` behind it.  How a stream is cut into pieces therefore does not matter (`feed_eq_drain`).
The module names nothing of the repository.
-/

namespace Akroasis

/-- A scanner of items `M` in a stream of symbols `A`. -/
structure Scanner (A M : Type*) where
  /-- One move: the item found, if any, and the buffer after it. -/
  move : List A → Option (Option M × List A)
  shrinks : ∀ {xs item rest}, move xs = some (item, rest) → rest.length < xs.length
  stable : ∀ {xs item rest} (ys : List A), move xs = some (item, rest) →
    move (xs ++ ys) = some (item, rest ++ ys)

namespace Scanner

variable {A M : Type*} (S : Scanner A M)

/-- At most `fuel` moves. -/
def drainWith : Nat → List A → List M × List A
  | 0, xs => ([], xs)
  | fuel + 1, xs =>
      match S.move xs with
      | none => ([], xs)
      | some (item, rest) =>
          (item.toList ++ (drainWith fuel rest).1, (drainWith fuel rest).2)

/-- All moves: the items found and the buffer that waits for more. -/
def drain (xs : List A) : List M × List A := S.drainWith xs.length xs

variable {S} {xs rest : List A} {item : Option M}

theorem drainWith_of_none (h : S.move xs = none) (fuel : Nat) : S.drainWith fuel xs = ([], xs) := by
  cases fuel with
  | zero => rfl
  | succ fuel => rw [drainWith, h]

/-- As many moves as there are symbols are enough. -/
theorem drainWith_eq_drain {fuel : Nat} (h : xs.length ≤ fuel) :
    S.drainWith fuel xs = S.drain xs := by
  unfold drain
  generalize hn : xs.length = n at h
  induction n using Nat.strongRecOn generalizing xs fuel with
  | ind n ih =>
    cases hmove : S.move xs with
    | none => rw [drainWith_of_none hmove, drainWith_of_none hmove]
    | some p =>
        obtain ⟨item, rest⟩ := p
        have hlt := S.shrinks hmove
        obtain ⟨fuel, rfl⟩ : ∃ k, fuel = k + 1 := ⟨fuel - 1, by omega⟩
        obtain ⟨k, rfl⟩ : ∃ k, n = k + 1 := ⟨n - 1, by omega⟩
        have hfuel : S.drainWith fuel rest = S.drainWith rest.length rest :=
          ih rest.length (by omega) rfl (by omega)
        have hk : S.drainWith k rest = S.drainWith rest.length rest :=
          ih rest.length (by omega) rfl (by omega)
        simp only [drainWith, hmove, hfuel, hk]

theorem drain_of_none (h : S.move xs = none) : S.drain xs = ([], xs) := drainWith_of_none h _

theorem drain_of_some (h : S.move xs = some (item, rest)) :
    S.drain xs = (item.toList ++ (S.drain rest).1, (S.drain rest).2) := by
  have hlt := S.shrinks h
  obtain ⟨n, hn⟩ : ∃ n, xs.length = n + 1 := ⟨xs.length - 1, by omega⟩
  rw [drain, hn, drainWith, h]
  simp only [drainWith_eq_drain (show rest.length ≤ n by omega)]

/-- Every buffer is drained by moves; this is the induction that follows them. -/
theorem drain_induction (S : Scanner A M) {P : List A → Prop}
    (hwait : ∀ xs, S.move xs = none → P xs)
    (hmove : ∀ xs item rest, S.move xs = some (item, rest) → P rest → P xs) (xs : List A) :
    P xs := by
  generalize hn : xs.length = n
  induction n using Nat.strongRecOn generalizing xs with
  | ind n ih =>
    cases h : S.move xs with
    | none => exact hwait xs h
    | some p => exact hmove xs p.1 p.2 h (ih p.2.length (hn ▸ S.shrinks h) p.2 rfl)

/-- The buffer that is left waits for more. -/
theorem move_drain_snd (xs : List A) : S.move (S.drain xs).2 = none := by
  induction xs using S.drain_induction with
  | hwait xs h => rwa [drain_of_none h]
  | hmove xs item rest h ih => rwa [drain_of_some h]

/-- **Draining a longer stream** is draining its front and going on with what is left. -/
theorem drain_append (xs ys : List A) :
    S.drain (xs ++ ys) =
      ((S.drain xs).1 ++ (S.drain ((S.drain xs).2 ++ ys)).1,
        (S.drain ((S.drain xs).2 ++ ys)).2) := by
  induction xs using S.drain_induction with
  | hwait xs h => simp [drain_of_none h]
  | hmove xs item rest h ih =>
      rw [drain_of_some h, drain_of_some (S.stable ys h), ih, List.append_assoc]

/-- Feeding the pieces of a stream one after another, from a buffer that waits for more. -/
def feed (S : Scanner A M) (start : List M × List A) (chunks : List (List A)) : List M × List A :=
  chunks.foldl
    (fun acc chunk => (acc.1 ++ (S.drain (acc.2 ++ chunk)).1, (S.drain (acc.2 ++ chunk)).2))
    start

theorem feed_eq (items : List M) {buffer : List A} (h : S.move buffer = none)
    (chunks : List (List A)) :
    S.feed (items, buffer) chunks =
      (items ++ (S.drain (buffer ++ chunks.flatten)).1,
        (S.drain (buffer ++ chunks.flatten)).2) := by
  induction chunks generalizing items buffer with
  | nil => simp [feed, drain_of_none h]
  | cons chunk chunks ih =>
      have hwait := move_drain_snd (S := S) (buffer ++ chunk)
      change S.feed (items ++ (S.drain (buffer ++ chunk)).1, (S.drain (buffer ++ chunk)).2)
        chunks = _
      rw [ih _ hwait, List.flatten_cons, ← List.append_assoc buffer, drain_append (buffer ++ chunk),
        List.append_assoc]

/-- **Pieces do not matter.** -/
theorem feed_eq_drain (h : S.move [] = none) (chunks : List (List A)) :
    S.feed ([], []) chunks = S.drain chunks.flatten :=
  feed_eq [] h chunks

end Scanner

end Akroasis
