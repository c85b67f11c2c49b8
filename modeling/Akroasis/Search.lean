import Mathlib.Algebra.BigOperators.Group.Finset.Basic
import Mathlib.Algebra.Order.BigOperators.Group.Finset
import Mathlib.Logic.Relation

/-!
# Akroasis.Search

Search in a graph with a stack of vertices to visit.

The graph is a function that lists the neighbours of a vertex, and the vertices seen so far
are recorded by any `Marking`.  A search comes to its end once it has as much fuel as there
are vertices on the stack and edges at vertices not seen; it visits vertices that can be
reached from the stack, and with each of them all its neighbours (`explore_visits`).  Where
neighbours are mutual and what was seen before are whole components, a search visits one
component more (`Components.explore`).  The module names nothing of the repository.
-/

namespace Akroasis

variable {α : Type} {next : α → List α} {groups : List (List α)} {a b : α}

/-! ## Components -/

variable (next) in
/-- A path of neighbours. -/
abbrev Reaches : α → α → Prop := Relation.ReflTransGen fun a b => b ∈ next a

variable (next) in
/-- Groups of vertices that are whole components, no vertex in two of them or twice in one. -/
structure Components (groups : List (List α)) : Prop where
  nodup : groups.flatten.Nodup
  whole : ∀ group ∈ groups, ∃ root, ∀ v, v ∈ group ↔ Reaches next root v

theorem Components.nil : Components next ([] : List (List α)) := ⟨List.nodup_nil, by simp⟩

/-- Paths between mutual neighbours lead back. -/
theorem Reaches.symm (hmutual : ∀ a b, b ∈ next a → a ∈ next b) (h : Reaches next a b) :
    Reaches next b a := by
  induction h with
  | refl => exact .refl
  | tail _ hstep ih => exact .head (hmutual _ _ hstep) ih

theorem Components.mem_of_reaches (h : Components next groups) {group : List α}
    (hgroup : group ∈ groups) (ha : a ∈ group) (hreach : Reaches next a b) : b ∈ group := by
  obtain ⟨root, hroot⟩ := h.whole group hgroup
  exact (hroot b).mpr (((hroot a).mp ha).trans hreach)

/-- Two vertices are in one group exactly if a path joins them. -/
theorem Components.together_iff (h : Components next groups)
    (hmutual : ∀ a b, b ∈ next a → a ∈ next b) :
    (∃ group ∈ groups, a ∈ group ∧ b ∈ group) ↔ a ∈ groups.flatten ∧ Reaches next a b := by
  constructor
  · intro htogether
    obtain ⟨group, hgroup, ha, hb⟩ := htogether
    obtain ⟨root, hroot⟩ := h.whole group hgroup
    exact ⟨List.mem_flatten.mpr ⟨group, hgroup, ha⟩,
      (Reaches.symm hmutual ((hroot a).mp ha)).trans ((hroot b).mp hb)⟩
  · intro hjoined
    obtain ⟨group, hgroup, ha⟩ := List.mem_flatten.mp hjoined.1
    exact ⟨group, hgroup, ha, h.mem_of_reaches hgroup ha hjoined.2⟩

/-! ## Searching -/

/-- A record of the vertices seen. -/
structure Marking (α S : Type) [DecidableEq α] where
  seen : S → α → Bool
  mark : S → α → S
  seen_mark : ∀ s a b, seen (mark s a) b = (decide (b = a) || seen s b)

variable [DecidableEq α] {S : Type} (M : Marking α S)

namespace Marking

variable (next) in
/-- Visit what is on the stack, the top first, and push the neighbours that were not seen. -/
def explore : Nat → S → List α → Option S
  | _, s, [] => some s
  | 0, _, _ :: _ => none
  | fuel + 1, s, a :: stack =>
      if M.seen s a then explore fuel s stack
      else
        let s := M.mark s a
        explore fuel s (((next a).filter fun b => !M.seen s b).reverse ++ stack)

variable (next) in
/-- The edges at the vertices not seen. -/
def unexplored (vertices : Finset α) (s : S) : Nat :=
  ∑ v ∈ vertices with M.seen s v = false, (next v).length

variable {M} {vertices : Finset α} {s : S}

theorem seen_foldl_mark (visited : List α) (s : S) (b : α) :
    M.seen (visited.foldl M.mark s) b = (decide (b ∈ visited) || M.seen s b) := by
  induction visited generalizing s with
  | nil => simp
  | cons a rest ih => simp [ih, M.seen_mark, Bool.or_left_comm, Bool.or_assoc]

theorem unexplored_mark (ha : a ∈ vertices) (hseen : M.seen s a = false) :
    M.unexplored next vertices (M.mark s a) + (next a).length = M.unexplored next vertices s := by
  have herase : (vertices.filter fun v => M.seen (M.mark s a) v = false) =
      (vertices.filter fun v => M.seen s v = false).erase a := by
    ext v
    simp only [Finset.mem_filter, Finset.mem_erase, M.seen_mark, Bool.or_eq_false_iff,
      decide_eq_false_iff_not]
    exact and_left_comm
  rw [unexplored, herase, Finset.sum_erase_add _ _ (Finset.mem_filter.mpr ⟨ha, hseen⟩)]
  rfl

theorem unexplored_le (vertices : Finset α) (s : S) :
    M.unexplored next vertices s ≤ ∑ v ∈ vertices, (next v).length :=
  Finset.sum_le_sum_of_subset (Finset.filter_subset _ _)

/-- **Search**: with enough fuel it comes to its end.  It visits vertices not seen before,
each once and each reached from the stack; then all of the stack is seen, and all neighbours
of what was visited. -/
theorem explore_visits (hclosed : ∀ a ∈ vertices, ∀ b ∈ next a, b ∈ vertices) {fuel : Nat} {s : S}
    {stack : List α} (hstack : ∀ a ∈ stack, a ∈ vertices)
    (hfuel : stack.length + M.unexplored next vertices s ≤ fuel) :
    ∃ visited : List α, M.explore next fuel s stack = some (visited.foldl M.mark s) ∧
      visited.Nodup ∧
      (∀ v ∈ visited, M.seen s v = false ∧ ∃ a ∈ stack, Reaches next a v) ∧
      (∀ a ∈ stack, M.seen (visited.foldl M.mark s) a) ∧
      ∀ v ∈ visited, ∀ w ∈ next v, M.seen (visited.foldl M.mark s) w := by
  fun_induction M.explore next fuel s stack with
  | case1 fuel s => exact ⟨[], rfl, List.nodup_nil, by simp, by simp, by simp⟩
  | case2 s a stack => simp at hfuel
  | case3 fuel s a stack hseen ih =>
      obtain ⟨visited, hexplore, hnodup, hnew, hstack', hnext⟩ := ih
        (fun b hb => hstack b (List.mem_cons_of_mem a hb))
        (by simp only [List.length_cons] at hfuel; omega)
      refine ⟨visited, hexplore, hnodup, fun v hv => ?_, fun b hb => ?_, hnext⟩
      · obtain ⟨hv, b, hb, hreach⟩ := hnew v hv
        exact ⟨hv, b, List.mem_cons_of_mem a hb, hreach⟩
      · obtain rfl | hb := List.mem_cons.mp hb
        · simp [seen_foldl_mark, hseen]
        · exact hstack' b hb
  | case4 fuel s a stack hseen s' ih =>
      simp only [Bool.not_eq_true] at hseen
      have ha : a ∈ vertices := hstack a List.mem_cons_self
      have hpushed : ((next a).filter fun b => !M.seen s' b).length ≤ (next a).length :=
        List.length_filter_le _ _
      have hwork : M.unexplored next vertices s' + _ = _ := unexplored_mark ha hseen
      obtain ⟨visited, hexplore, hnodup, hnew, hstack', hnext⟩ := ih
        (fun b hb => by
          obtain hb | hb := List.mem_append.mp hb
          · exact hclosed a ha b (List.mem_filter.mp (List.mem_reverse.mp hb)).1
          · exact hstack b (List.mem_cons_of_mem a hb))
        (by
          simp only [List.length_cons, List.length_append, List.length_reverse] at hfuel ⊢
          omega)
      have hunseen : ∀ v ∈ visited, v ≠ a ∧ M.seen s v = false := fun v hv => by
        simpa [s', M.seen_mark] using (hnew v hv).1
      refine ⟨a :: visited, hexplore, List.nodup_cons.mpr ⟨fun ha => (hunseen a ha).1 rfl, hnodup⟩,
        fun v hv => ?_, fun b hb => ?_, fun v hv w hw => ?_⟩
      · obtain rfl | hv := List.mem_cons.mp hv
        · exact ⟨hseen, v, List.mem_cons_self, .refl⟩
        · refine ⟨(hunseen v hv).2, ?_⟩
          obtain ⟨-, b, hb, hreach⟩ := hnew v hv
          obtain hb | hb := List.mem_append.mp hb
          · exact ⟨a, List.mem_cons_self,
              .head (List.mem_filter.mp (List.mem_reverse.mp hb)).1 hreach⟩
          · exact ⟨b, List.mem_cons_of_mem a hb, hreach⟩
      · obtain rfl | hb := List.mem_cons.mp hb
        · simp [seen_foldl_mark, M.seen_mark]
        · exact hstack' b (List.mem_append_right _ hb)
      · obtain rfl | hv := List.mem_cons.mp hv
        · -- A neighbour was seen before or is on the stack now.
          cases hw' : M.seen s' w with
          | true => rw [List.foldl_cons, seen_foldl_mark, hw', Bool.or_true]
          | false =>
              refine hstack' w (List.mem_append_left _ (List.mem_reverse.mpr ?_))
              exact List.mem_filter.mpr ⟨hw, by rw [hw']; rfl⟩
        · exact hnext v hv w hw

end Marking

/-- **Component**: a search from a vertex not seen visits its component. -/
theorem Components.explore {M : Marking α S} {vertices : Finset α} {s : S} {root : α} {fuel : Nat}
    (h : Components next groups) (hmutual : ∀ a b, b ∈ next a → a ∈ next b)
    (hclosed : ∀ a ∈ vertices, ∀ b ∈ next a, b ∈ vertices)
    (hseen : ∀ v, M.seen s v ↔ v ∈ groups.flatten) (hroot : root ∈ vertices)
    (hunseen : M.seen s root = false) (hfuel : ∑ v ∈ vertices, (next v).length < fuel) :
    ∃ visited : List α, M.explore next fuel s [root] = some (visited.foldl M.mark s) ∧
      Components next (groups ++ [visited]) ∧ root ∈ visited := by
  have hwork : M.unexplored next vertices s ≤ _ := Marking.unexplored_le vertices s
  have hroots : ∀ a ∈ [root], a ∈ vertices := by simpa using hroot
  obtain ⟨visited, hexplore, hnodup, hnew, hstack, hnext⟩ :=
    Marking.explore_visits (M := M) (s := s) hclosed hroots
      (show [root].length + _ ≤ fuel by simp only [List.length_singleton]; omega)
  have hfinal : ∀ v, M.seen (visited.foldl M.mark s) v → v ∈ visited ∨ v ∈ groups.flatten :=
    fun v hv => by
    simpa [Marking.seen_foldl_mark, ← hseen] using hv
  have hout : ∀ v ∈ visited, v ∉ groups.flatten := fun v hv hmem => by
    rw [← hseen, (hnew v hv).1] at hmem
    cases hmem
  have hmem : root ∈ visited := by
    refine (hfinal root (hstack root List.mem_cons_self)).resolve_right fun hmem => ?_
    rw [← hseen, hunseen] at hmem
    cases hmem
  refine ⟨visited, hexplore, ⟨?_, fun group hgroup => ?_⟩, hmem⟩
  · rw [List.flatten_append, List.flatten_singleton]
    exact h.nodup.append hnodup fun v hgroups hvisited => hout v hvisited hgroups
  · obtain hgroup | hgroup := List.mem_append.mp hgroup
    · exact h.whole group hgroup
    obtain rfl := List.mem_singleton.mp hgroup
    refine ⟨root, fun v => ⟨fun hv => ?_, fun hreach => ?_⟩⟩
    · obtain ⟨-, a, ha, hreach⟩ := hnew v hv
      obtain rfl := List.mem_singleton.mp ha
      exact hreach
    · induction hreach with
      | refl => exact hmem
      | @tail v w _ hstep ih =>
          -- A neighbour in another group would have brought its neighbour along.
          refine (hfinal w (hnext v ih w hstep)).resolve_right fun hw => ?_
          obtain ⟨other, hother, hw⟩ := List.mem_flatten.mp hw
          exact hout v ih (List.mem_flatten.mpr
            ⟨other, hother, h.mem_of_reaches hother hw (.single (hmutual v w hstep))⟩)

end Akroasis
