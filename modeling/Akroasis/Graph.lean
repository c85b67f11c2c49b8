import Akroasis.Table

/-!
# Akroasis.Graph

Directed graphs whose indices stay valid when other vertices or edges are removed (the
interface of `petgraph`'s `StableGraph`).

`StableGraph` is the operations together with what is known of them: a new vertex or edge
gets an index that is not in use, removing a vertex removes its edges, and adding an edge
needs both of its ends.  Operations that can panic return an `Option`.  `tableGraph` is an
implementation by finite maps.  The module names nothing of the repository.
-/

namespace Akroasis

/-- The number of indices a graph has: they are 32 bits wide, and one is not used. -/
def maxIndex : Nat := 2 ^ 32 - 1

/-- An implementation of stable graphs with vertex weights in `V` and edge weights in `W`. -/
structure StableGraph (V W : Type) where
  Graph : Type
  NodeIx : Type
  EdgeIx : Type
  decNodeIx : DecidableEq NodeIx
  decEdgeIx : DecidableEq EdgeIx
  empty : Graph
  nodeWeight : Graph → NodeIx → Option V
  edge : Graph → EdgeIx → Option (NodeIx × NodeIx × W)
  nodeIndices : Graph → List NodeIx
  edgeIndices : Graph → List EdgeIx
  edgesConnecting : Graph → NodeIx → NodeIx → List EdgeIx
  incoming : Graph → NodeIx → List EdgeIx
  outgoing : Graph → NodeIx → List EdgeIx
  addNode : Graph → V → Option (NodeIx × Graph)
  removeNode : Graph → NodeIx → Graph
  addEdge : Graph → NodeIx → NodeIx → W → Option (EdgeIx × Graph)
  removeEdge : Graph → EdgeIx → Graph
  setWeight : Graph → EdgeIx → W → Graph
  nodeWeight_empty : ∀ i, nodeWeight empty i = none
  edge_empty : ∀ e, edge empty e = none
  nodup_nodeIndices : ∀ g, (nodeIndices g).Nodup
  mem_nodeIndices : ∀ g i, i ∈ nodeIndices g ↔ (nodeWeight g i).isSome
  nodup_edgeIndices : ∀ g, (edgeIndices g).Nodup
  mem_edgeIndices : ∀ g e, e ∈ edgeIndices g ↔ (edge g e).isSome
  mem_edgesConnecting : ∀ g a b e, e ∈ edgesConnecting g a b ↔ ∃ w, edge g e = some (a, b, w)
  addNode_spec : ∀ g v, (nodeIndices g).length < maxIndex →
    ∃ i g', addNode g v = some (i, g') ∧ nodeWeight g i = none ∧
      (∀ j, nodeWeight g' j = if j = i then some v else nodeWeight g j) ∧
      ∀ e, edge g' e = edge g e
  addEdge_spec : ∀ g a b w, (nodeWeight g a).isSome → (nodeWeight g b).isSome →
    (edgeIndices g).length < maxIndex →
    ∃ e g', addEdge g a b w = some (e, g') ∧ edge g e = none ∧
      (∀ e', edge g' e' = if e' = e then some (a, b, w) else edge g e') ∧
      ∀ j, nodeWeight g' j = nodeWeight g j
  nodeWeight_removeNode : ∀ g i j,
    nodeWeight (removeNode g i) j = if j = i then none else nodeWeight g j
  edge_removeNode : ∀ g i e,
    edge (removeNode g i) e = (edge g e).filter fun x => decide (x.1 ≠ i ∧ x.2.1 ≠ i)
  nodeWeight_removeEdge : ∀ g e j, nodeWeight (removeEdge g e) j = nodeWeight g j
  edge_removeEdge : ∀ g e e', edge (removeEdge g e) e' = if e' = e then none else edge g e'
  nodeWeight_setWeight : ∀ g e w j, nodeWeight (setWeight g e w) j = nodeWeight g j
  edge_setWeight : ∀ g e w e', edge (setWeight g e w) e' =
    if e' = e then (edge g e).map fun x => (x.1, x.2.1, w) else edge g e'

namespace StableGraph

variable {V W : Type} (S : StableGraph V W)

instance : DecidableEq S.NodeIx := S.decNodeIx
instance : DecidableEq S.EdgeIx := S.decEdgeIx

/-- `edge_count`. -/
def edgeCount (g : S.Graph) : Nat := (S.edgeIndices g).length

/-- The edges listed at a vertex are those that end there, and those that start there. -/
structure Adjacent : Prop where
  mem_incoming : ∀ g i e, e ∈ S.incoming g i ↔ ∃ a w, S.edge g e = some (a, i, w)
  mem_outgoing : ∀ g i e, e ∈ S.outgoing g i ↔ ∃ b w, S.edge g e = some (i, b, w)

variable {S} {g g' : S.Graph}

/-! ## Counting edges -/

theorem edgeCount_eq (h : ∀ e, (S.edge g' e).isSome = (S.edge g e).isSome) :
    S.edgeCount g' = S.edgeCount g := by
  refine List.Perm.length_eq ?_
  rw [List.perm_ext_iff_of_nodup (S.nodup_edgeIndices g') (S.nodup_edgeIndices g)]
  intro e
  rw [S.mem_edgeIndices, S.mem_edgeIndices, h]

/-- Fewer edges. -/
theorem edgeCount_le (h : ∀ e, (S.edge g' e).isSome → (S.edge g e).isSome) :
    S.edgeCount g' ≤ S.edgeCount g := by
  refine ((S.nodup_edgeIndices g').subperm fun e he => ?_).length_le
  rw [S.mem_edgeIndices] at he ⊢
  exact h e he

/-- One more edge. -/
theorem edgeCount_add_one {e : S.EdgeIx} (hnew : S.edge g e = none)
    (h : ∀ e', (S.edge g' e').isSome ↔ e' = e ∨ (S.edge g e').isSome) :
    S.edgeCount g' = S.edgeCount g + 1 := by
  have hmem : e ∉ S.edgeIndices g := by simp [S.mem_edgeIndices, hnew]
  have hperm : (S.edgeIndices g').Perm (e :: S.edgeIndices g) := by
    rw [List.perm_ext_iff_of_nodup (S.nodup_edgeIndices g')
      (List.nodup_cons.mpr ⟨hmem, S.nodup_edgeIndices g⟩)]
    intro e'
    rw [S.mem_edgeIndices, List.mem_cons, S.mem_edgeIndices, h]
  exact hperm.length_eq

/-- A removed edge. -/
theorem edgeCount_removeEdge {e : S.EdgeIx} (h : (S.edge g e).isSome) :
    S.edgeCount (S.removeEdge g e) + 1 = S.edgeCount g := by
  refine (edgeCount_add_one (e := e) ?_ fun e' => ?_).symm
  · rw [S.edge_removeEdge, if_pos rfl]
  · rw [S.edge_removeEdge]
    by_cases he : e' = e
    · simp [he, h]
    · simp [he]

end StableGraph

/-! ## An implementation -/

namespace Table

variable {V : Type}

/-- A key that is not in use. -/
def freshKey (t : Table Nat V) : Nat := t.keys.foldr max 0 + 1

theorem le_foldr_max {n : Nat} {ks : List Nat} (h : n ∈ ks) : n ≤ ks.foldr max 0 := by
  induction ks with
  | nil => cases h
  | cons k ks ih =>
      rw [List.foldr_cons]
      rcases List.mem_cons.mp h with rfl | h
      · exact Nat.le_max_left _ _
      · exact (ih h).trans (Nat.le_max_right _ _)

theorem lookup_freshKey (t : Table Nat V) : t.lookup t.freshKey = none := by
  cases h : t.lookup t.freshKey with
  | none => rfl
  | some v =>
      have hle := le_foldr_max ((mem_keys_iff t _).mpr ⟨v, h⟩)
      rw [freshKey] at hle
      omega

theorem mem_keys_target {t : Table Nat (Nat × Nat × V)} {i e : Nat} :
    e ∈ t.keys.filter (fun e => (t.lookup e).any fun x => decide (x.2.1 = i)) ↔
      ∃ a w, t.lookup e = some (a, i, w) := by
  rw [List.mem_filter, mem_keys_iff]
  cases t.lookup e with
  | none => simp
  | some x => obtain ⟨a, b, w⟩ := x; simp

theorem mem_keys_source {t : Table Nat (Nat × Nat × V)} {i e : Nat} :
    e ∈ t.keys.filter (fun e => (t.lookup e).any fun x => decide (x.1 = i)) ↔
      ∃ b w, t.lookup e = some (i, b, w) := by
  rw [List.mem_filter, mem_keys_iff]
  cases t.lookup e with
  | none => simp
  | some x => obtain ⟨a, b, w⟩ := x; simp

end Table

/-- Stable graphs as two finite maps. -/
def tableGraph (V W : Type) : StableGraph V W where
  Graph := Table Nat V × Table Nat (Nat × Nat × W)
  NodeIx := Nat
  EdgeIx := Nat
  decNodeIx := inferInstance
  decEdgeIx := inferInstance
  empty := (∅, ∅)
  nodeWeight g i := g.1.lookup i
  edge g e := g.2.lookup e
  nodeIndices g := g.1.keys
  edgeIndices g := g.2.keys
  edgesConnecting g a b := g.2.keys.filter fun e =>
    ((g.2.lookup e).any fun x => decide (x.1 = a) && decide (x.2.1 = b))
  incoming g i := g.2.keys.filter fun e => (g.2.lookup e).any fun x => decide (x.2.1 = i)
  outgoing g i := g.2.keys.filter fun e => (g.2.lookup e).any fun x => decide (x.1 = i)
  addNode g v := some (g.1.freshKey, (g.1.insert g.1.freshKey v, g.2))
  removeNode g i := (g.1.erase i, g.2.retain fun _ x => decide (x.1 ≠ i ∧ x.2.1 ≠ i))
  addEdge g a b w :=
    if (g.1.lookup a).isSome && (g.1.lookup b).isSome then
      some (g.2.freshKey, (g.1, g.2.insert g.2.freshKey (a, b, w)))
    else none
  removeEdge g e := (g.1, g.2.erase e)
  setWeight g e w := (g.1, match g.2.lookup e with
    | some x => g.2.insert e (x.1, x.2.1, w)
    | none => g.2)
  nodeWeight_empty _ := AList.lookup_empty _
  edge_empty _ := AList.lookup_empty _
  nodup_nodeIndices g := g.1.keys_nodup
  mem_nodeIndices g i := by rw [Table.mem_keys_iff, Option.isSome_iff_exists]
  nodup_edgeIndices g := g.2.keys_nodup
  mem_edgeIndices g e := by rw [Table.mem_keys_iff, Option.isSome_iff_exists]
  mem_edgesConnecting g a b e := by
    rw [List.mem_filter, Table.mem_keys_iff]
    cases h : g.2.lookup e with
    | none => simp
    | some x => obtain ⟨a', b', w⟩ := x; simp
  addNode_spec g v _ :=
    ⟨_, _, rfl, g.1.lookup_freshKey, fun j => Table.lookup_insert_ite _ _ _ _, fun _ => rfl⟩
  addEdge_spec g a b w ha hb _ := by
    refine ⟨g.2.freshKey, (g.1, g.2.insert g.2.freshKey (a, b, w)), ?_, g.2.lookup_freshKey,
      fun e' => Table.lookup_insert_ite _ _ _ _, fun _ => rfl⟩
    rw [ha, hb]
    rfl
  nodeWeight_removeNode g i j := Table.lookup_erase_ite _ _ _
  edge_removeNode g i e := Table.lookup_retain _ _ _
  nodeWeight_removeEdge _ _ _ := rfl
  edge_removeEdge g e e' := Table.lookup_erase_ite _ _ _
  nodeWeight_setWeight _ _ _ _ := rfl
  edge_setWeight g e w e' := by
    cases h : g.2.lookup e with
    | none =>
        by_cases he : e' = e
        · rw [he, if_pos rfl]; exact h
        · rw [if_neg he]
    | some x => rw [Table.lookup_insert_ite]; rfl

theorem tableGraph_adjacent (V W : Type) : (tableGraph V W).Adjacent where
  mem_incoming _ _ _ := Table.mem_keys_target
  mem_outgoing _ _ _ := Table.mem_keys_source

end Akroasis
