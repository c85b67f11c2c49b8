import Mathlib.Data.List.TakeWhile

/-!
# Akroasis.StableQueue

A list kept in the order of a key, highest first, by inserting each new element before the
first one with a lower key.

Where elements also bear numbers that grow with every insertion, `Ahead` is the order of
service: a higher key first, and among equal keys the lower number.  Insertion keeps a list
in that order (`pairwise_insert`), and so does everything that only removes elements.  The
module names nothing of the repository.
-/

namespace Akroasis.StableQueue

variable {A B : Type*}

/-- Insert before the first element with a lower key. -/
def insert (key : A → Int) (a : A) (xs : List A) : List A :=
  xs.take (xs.findIdx fun x => key x < key a) ++ a :: xs.drop (xs.findIdx fun x => key x < key a)

/-- `a` is served before `b`. -/
def Ahead (key : A → Int) (number : A → Nat) (a b : A) : Prop :=
  key b < key a ∨ key a = key b ∧ number a < number b

variable {key : A → Int} {number : A → Nat} {a : A} {xs : List A}

theorem insert_cons (x : A) :
    insert key a (x :: xs) = if key x < key a then a :: x :: xs else x :: insert key a xs := by
  unfold insert
  rw [List.findIdx_cons]
  by_cases h : key x < key a
  · simp [h]
  · simp [h]

theorem insert_perm (key : A → Int) (a : A) (xs : List A) : (insert key a xs).Perm (a :: xs) := by
  refine List.perm_middle.trans ?_
  rw [List.take_append_drop]

theorem mem_insert {x : A} : x ∈ insert key a xs ↔ x = a ∨ x ∈ xs := by
  rw [(insert_perm key a xs).mem_iff, List.mem_cons]

/-- Inserting in a list seen through `f`. -/
theorem map_insert (key : B → Int) (f : A → B) (a : A) (xs : List A) :
    (insert (fun x => key (f x)) a xs).map f = insert key (f a) (xs.map f) := by
  induction xs with
  | nil => rfl
  | cons x xs ih =>
      rw [List.map_cons, insert_cons, insert_cons, ← ih]
      split <;> rfl

/-- An element with a number of its own joins the order. -/
theorem pairwise_insert (h : xs.Pairwise (Ahead key number))
    (hnew : ∀ x ∈ xs, number x < number a) :
    (insert key a xs).Pairwise (Ahead key number) := by
  induction xs with
  | nil => exact List.pairwise_singleton _ _
  | cons x xs ih =>
      obtain ⟨hx, hxs⟩ := List.pairwise_cons.mp h
      rw [insert_cons]
      split
      · next hlt =>
        refine List.pairwise_cons.mpr ⟨fun y hy => .inl ?_, h⟩
        obtain rfl | hy := List.mem_cons.mp hy
        · exact hlt
        · have hxy := hx y hy
          unfold Ahead at hxy
          omega
      · next hge =>
        have hrest := ih hxs fun y hy => hnew y (List.mem_cons_of_mem _ hy)
        refine List.pairwise_cons.mpr ⟨fun y hy => ?_, hrest⟩
        obtain rfl | hy := mem_insert.mp hy
        · have hlower := hnew x List.mem_cons_self
          unfold Ahead
          omega
        · exact hx y hy

/-- The first element that `p` does not rule out is served before all others of them. -/
theorem ahead_of_dropWhile {p : A → Bool} {rest : List A} (h : xs.Pairwise (Ahead key number))
    (hrest : xs.dropWhile p = a :: rest) {x : A} (hx : x ∈ xs) (hp : p x = false) :
    x = a ∨ Ahead key number a x := by
  have hsplit := List.takeWhile_append_dropWhile (p := p) (l := xs)
  rw [hrest] at hsplit
  rw [← hsplit] at h hx
  obtain hx | hx := List.mem_append.mp hx
  · exact absurd (List.mem_takeWhile_imp hx) (by simp [hp])
  · refine (List.mem_cons.mp hx).imp_right fun hx => ?_
    exact List.rel_of_pairwise_cons (List.pairwise_append.mp h).2.1 hx

end Akroasis.StableQueue
