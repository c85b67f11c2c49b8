import Mathlib.Data.Set.Function
import Mathlib.Data.List.Induction
import Mathlib.Data.List.Basic

/-!
# Akroasis.HashChain

Hash chains over any record and hash type: a chain starts at a root and each record is
linked to the hash before it.

What a chain is good for is `chain_append_ne`: as long as linking does not collide on
the pairs that were linked and never hits the root, no proper extension of a chain ends
at the hash the chain ended at; and `eq_of_chain_eq`: chains of one length that end at
the same hash are the same.  A collision-free hash is never assumed on all inputs,
which no function into a finite type satisfies, only on the list `linked` of a chain.
The module names nothing of the repository.
-/

namespace Akroasis.HashChain

variable {α H : Type*} (link : α → H → H)

/-- The hash a chain reaches after linking `xs` in order from `root`. -/
def chain (root : H) (xs : List α) : H := xs.foldl (fun h x => link x h) root

/-- The pairs of a record and the hash before it that a chain links. -/
def linked : H → List α → List (α × H)
  | _, [] => []
  | h, x :: xs => (x, h) :: linked (link x h) xs

@[simp] theorem chain_nil (root : H) : chain link root [] = root := rfl

@[simp] theorem chain_cons (root : H) (x : α) (xs : List α) :
    chain link root (x :: xs) = chain link (link x root) xs := rfl

theorem chain_append (root : H) (xs ys : List α) :
    chain link root (xs ++ ys) = chain link (chain link root xs) ys := by
  simp [chain, List.foldl_append]

theorem linked_append (root : H) (xs ys : List α) :
    linked link root (xs ++ ys) = linked link root xs ++ linked link (chain link root xs) ys := by
  induction xs generalizing root with
  | nil => rfl
  | cons x xs ih => simp [linked, ih]

/-- Every record of the chain is linked to the hash of what precedes it. -/
theorem mem_linked (root : H) (xs ys : List α) (x : α) :
    (x, chain link root xs) ∈ linked link root (xs ++ x :: ys) := by
  rw [linked_append]
  exact List.mem_append_right _ List.mem_cons_self

/-- Only records of the chain are linked. -/
theorem fst_mem_of_mem_linked {root : H} {xs : List α} {p : α × H} (h : p ∈ linked link root xs) :
    p.1 ∈ xs := by
  induction xs generalizing root with
  | nil => contradiction
  | cons x xs ih =>
      rcases List.mem_cons.mp h with rfl | h
      · exact List.mem_cons_self
      · exact List.mem_cons_of_mem _ (ih h)

/-- **No return**: a proper extension of a chain ends at a different hash. -/
theorem chain_append_ne {root : H} {xs ys : List α} {S : Set (α × H)}
    (hinj : S.InjOn fun p => link p.1 p.2) (hroot : ∀ p ∈ S, link p.1 p.2 ≠ root)
    (hmem : ∀ p ∈ linked link root (xs ++ ys), p ∈ S) (hys : ys ≠ []) :
    chain link root (xs ++ ys) ≠ chain link root xs := by
  -- by induction on the shorter chain, from its end
  induction xs using List.reverseRecOn generalizing ys with
  | nil =>
      obtain ⟨zs, z, rfl⟩ := List.eq_nil_or_concat' ys |>.resolve_left hys
      rw [List.nil_append] at hmem ⊢
      rw [chain_append]
      exact hroot (z, chain link root zs) (hmem _ (mem_linked link root zs [] z))
  | append_singleton xs x ih =>
      obtain ⟨zs, z, rfl⟩ := List.eq_nil_or_concat' ys |>.resolve_left hys
      intro heq
      have hlast : link z (chain link root (xs ++ [x] ++ zs)) = link x (chain link root xs) := by
        rw [← List.append_assoc, chain_append] at heq
        rw [chain_append link root xs [x]] at heq
        exact heq
      have hz : (z, chain link root (xs ++ [x] ++ zs)) ∈ S := by
        apply hmem
        rw [← List.append_assoc]
        exact mem_linked link root (xs ++ [x] ++ zs) [] z
      have hx : (x, chain link root xs) ∈ S := by
        apply hmem
        rw [List.append_assoc]
        exact mem_linked link root xs _ x
      have hpair := congrArg Prod.snd (hinj hz hx hlast)
      rw [List.append_assoc] at hpair
      refine ih (fun p hp => hmem p ?_) (by simp) hpair
      rw [← List.append_assoc, linked_append, List.append_assoc]
      exact List.mem_append_left _ hp

/-- **Binding**: two chains of one length from one root that end at the same hash have
linked the same records. -/
theorem eq_of_chain_eq {root : H} {xs ys : List α} {S : Set (α × H)}
    (hinj : S.InjOn fun p => link p.1 p.2)
    (hxs : ∀ p ∈ linked link root xs, p ∈ S) (hys : ∀ p ∈ linked link root ys, p ∈ S)
    (hlen : xs.length = ys.length) (hend : chain link root xs = chain link root ys) : xs = ys := by
  -- from the end: the last links agree, so do the records linked and the hashes before them
  induction xs using List.reverseRecOn generalizing ys with
  | nil => exact (List.eq_nil_of_length_eq_zero hlen.symm).symm
  | append_singleton xs x ih =>
      have hne : ys ≠ [] := by
        intro hnil
        simp [hnil] at hlen
      obtain ⟨zs, z, rfl⟩ := (List.eq_nil_or_concat' ys).resolve_left hne
      rw [chain_append, chain_append] at hend
      have hpair :=
        hinj (hxs _ (mem_linked link root xs [] x)) (hys _ (mem_linked link root zs [] z))
        hend
      obtain ⟨rfl, hprev⟩ := Prod.mk.inj hpair
      have hlen' : xs.length = zs.length := by simpa using hlen
      have hfront : ∀ ws : List α, ∀ p ∈ linked link root ws, p ∈ linked link root (ws ++ [x]) := by
        intro ws p hp
        rw [linked_append]
        exact List.mem_append_left _ hp
      rw [ih (fun p hp => hxs p (hfront xs p hp)) (fun p hp => hys p (hfront zs p hp)) hlen' hprev]

end Akroasis.HashChain
