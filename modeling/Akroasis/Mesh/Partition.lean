import Akroasis.Search
import Akroasis.Mesh.Topology

/-!
# Akroasis.Mesh.Partition

Which parts of the mesh hear each other (`connected_components`, `is_partitioned`): a search
from every vertex of the index that was not seen yet, along links in both directions.

The search is `Marking.explore` with a table of component numbers as its record; the loop
over the index finds one whole component with each search (`Searched`), so that the second
loop over the index has nothing left to do.  `connectedComponents_partition` says it in terms
of the nodes: the groups partition them, and two are in one group exactly if a path of links
joins them, whatever the order in which the index is visited.
-/

namespace Akroasis.Mesh.MeshTopology

variable {R : Type} {C : TopologyCrates R}

/-! ## The search -/

/-- The other ends of the edges at a vertex: the targets of the outgoing ones and the sources
of the incoming ones. -/
def adjacent (t : MeshTopology C) (idx : C.graph.NodeIx) : List C.graph.NodeIx :=
  ((C.graph.outgoing t.graph idx).filterMap fun e => (C.graph.edge t.graph e).map fun x => x.2.1) ++
    (C.graph.incoming t.graph idx).filterMap fun e => (C.graph.edge t.graph e).map fun x => x.1

/-- A visit: the vertex gets the number of its component, and its node joins the group. -/
def visiting (t : MeshTopology C) (compId : Nat) :
    Marking C.graph.NodeIx (Table C.graph.NodeIx Nat × List UInt32) where
  seen s idx := (s.1.lookup idx).isSome
  mark s idx := (s.1.insert idx compId, s.2 ++ (C.graph.nodeWeight t.graph idx).toList)
  seen_mark s a b := by
    rw [Table.lookup_insert_ite]
    by_cases h : b = a <;> simp [h]

variable (C) in
/-- The component numbers and the groups found so far. -/
abbrev Found := Table C.graph.NodeIx Nat × List (List UInt32)

/-- The search from a vertex of the index, unless it was seen. -/
def searchFrom (t : MeshTopology C) (fuel : Nat) (found : Found C) (idx : C.graph.NodeIx) :
    Option (Found C) :=
  if (found.1.lookup idx).isSome then some found
  else
    ((t.visiting found.2.length).explore t.adjacent fuel (found.1, []) [idx]).map fun s =>
      (s.1, if s.2.isEmpty then found.2 else found.2 ++ [s.2])

/-- A vertex without a component is a group of its own. -/
def addSingleton (t : MeshTopology C) (found : Found C) (idx : C.graph.NodeIx) : Found C :=
  match found.1.lookup idx with
  | some _ => found
  | none =>
      match C.graph.nodeWeight t.graph idx with
      | some num => (found.1.insert idx found.2.length, found.2 ++ [[num]])
      | none => found

/-- `connected_components`; `none` if a search runs out of `fuel`. -/
def connectedComponents (t : MeshTopology C) (it : Iteration C) (fuel : Nat) :
    Option (List (List UInt32)) :=
  if t.nodeIndex.size = 0 then some []
  else do
    let indices := (t.nodeIndex.visit it).map Prod.snd
    let found ← indices.foldlM (t.searchFrom fuel) (∅, [])
    some (indices.foldl t.addSingleton found).2

/-- `is_partitioned`. -/
def isPartitioned (t : MeshTopology C) (it : Iteration C) (fuel : Nat) (node serverNode : UInt32) :
    Option Bool :=
  if (t.nodeIndex.lookup node).isNone || (t.nodeIndex.lookup serverNode).isNone then some true
  else (t.connectedComponents it fuel).map fun groups =>
    !groups.any fun group => group.contains node && group.contains serverNode

/-- Fuel for every search: a turn for its start and one for each end of an edge. -/
def searchBound (t : MeshTopology C) : Nat :=
  ((C.graph.nodeIndices t.graph).map fun idx => (t.adjacent idx).length).sum + 1

/-! ## Neighbours -/

variable {t : MeshTopology C}

theorem mem_adjacent (hgraph : C.graph.Adjacent) {a b : C.graph.NodeIx} :
    b ∈ t.adjacent a ↔
      ∃ e w, C.graph.edge t.graph e = some (a, b, w) ∨ C.graph.edge t.graph e = some (b, a, w) := by
  simp only [adjacent, List.mem_append, List.mem_filterMap, hgraph.mem_outgoing,
    hgraph.mem_incoming, Option.map_eq_some_iff]
  constructor
  · rintro (⟨e, ⟨c, w, he⟩, x, hx, rfl⟩ | ⟨e, ⟨c, w, he⟩, x, hx, rfl⟩)
    · obtain rfl := Option.some.inj (he.symm.trans hx)
      exact ⟨e, w, .inl he⟩
    · obtain rfl := Option.some.inj (he.symm.trans hx)
      exact ⟨e, w, .inr he⟩
  · rintro ⟨e, w, he | he⟩
    · exact .inl ⟨e, ⟨b, w, he⟩, _, he, rfl⟩
    · exact .inr ⟨e, ⟨b, w, he⟩, _, he, rfl⟩

theorem adjacent_mutual (hgraph : C.graph.Adjacent) (a b : C.graph.NodeIx) (h : b ∈ t.adjacent a) :
    a ∈ t.adjacent b := by
  rw [mem_adjacent hgraph] at h ⊢
  obtain ⟨e, w, he⟩ := h
  exact ⟨e, w, he.symm⟩

/-- The other end of an edge is a vertex. -/
theorem Coherent.isSome_adjacent (h : t.Coherent) (hgraph : C.graph.Adjacent) {a b : C.graph.NodeIx}
    (hb : b ∈ t.adjacent a) : (C.graph.nodeWeight t.graph b).isSome := by
  obtain ⟨e, w, he | he⟩ := (mem_adjacent hgraph).mp hb
  · exact (h.ends e a b w he).2
  · exact (h.ends e b a w he).1

/-! ## The loop over the index -/

/-- What was found are whole components, `groups` of vertices, under the names of the nodes. -/
structure Searched (t : MeshTopology C) (found : Found C) (groups : List (List C.graph.NodeIx)) :
    Prop where
  components : Components t.adjacent groups
  seen : ∀ v, (found.1.lookup v).isSome ↔ v ∈ groups.flatten
  named : found.2 = groups.map (List.filterMap (C.graph.nodeWeight t.graph))
  nonempty : [] ∉ found.2

theorem searched_empty : t.Searched (∅, []) [] := ⟨.nil, by simp, rfl, by simp⟩

/-- The record of a search: the group of what it visited. -/
theorem foldl_visiting (compId : Nat) (visited : List C.graph.NodeIx)
    (s : Table C.graph.NodeIx Nat × List UInt32) :
    (visited.foldl (t.visiting compId).mark s).2 =
      s.2 ++ visited.filterMap (C.graph.nodeWeight t.graph) := by
  induction visited generalizing s with
  | nil => simp
  | cons idx rest ih =>
      rw [List.foldl_cons, ih]
      cases h : C.graph.nodeWeight t.graph idx <;> simp [visiting, h]

/-- **Turn**: a vertex of the index brings its component. -/
theorem Searched.searchFrom (h : t.Coherent) (hgraph : C.graph.Adjacent) {fuel : Nat}
    (hfuel : t.searchBound ≤ fuel) {found : Found C} {groups : List (List C.graph.NodeIx)}
    (hsearched : t.Searched found groups) {idx : C.graph.NodeIx}
    (hidx : (C.graph.nodeWeight t.graph idx).isSome) :
    ∃ found' groups', t.searchFrom fuel found idx = some found' ∧ t.Searched found' groups' ∧
      idx ∈ groups'.flatten ∧ groups.flatten ⊆ groups'.flatten := by
  unfold MeshTopology.searchFrom
  by_cases hseen : (found.1.lookup idx).isSome
  · exact ⟨found, groups, if_pos hseen, hsearched, (hsearched.seen idx).mp hseen, fun _ hv => hv⟩
  set vertices := (C.graph.nodeIndices t.graph).toFinset with hvertices
  have hvertex : ∀ v, v ∈ vertices ↔ (C.graph.nodeWeight t.graph v).isSome := fun v => by
    rw [hvertices, List.mem_toFinset, C.graph.mem_nodeIndices]
  obtain ⟨visited, hexplore, hcomponents, hmem⟩ := hsearched.components.explore
    (M := t.visiting found.2.length) (s := (found.1, [])) (adjacent_mutual hgraph)
    (fun a _ b hb => (hvertex b).mpr (h.isSome_adjacent hgraph hb)) hsearched.seen
    ((hvertex idx).mpr hidx) (Bool.not_eq_true _ ▸ hseen)
    (show _ < fuel by rw [List.sum_toFinset _ (C.graph.nodup_nodeIndices t.graph)]; exact hfuel)
  have hgroup := foldl_visiting (t := t) found.2.length visited (found.1, [])
  have hnonempty : visited.filterMap (C.graph.nodeWeight t.graph) ≠ [] := by
    obtain ⟨num, hnum⟩ := Option.isSome_iff_exists.mp hidx
    exact List.ne_nil_of_mem (List.mem_filterMap.mpr ⟨idx, hmem, hnum⟩)
  rw [if_neg hseen, hexplore, Option.map_some]
  rw [hgroup, List.nil_append, if_neg (by simpa using hnonempty)]
  refine ⟨_, groups ++ [visited], rfl, ⟨hcomponents, fun v => ?_, ?_, ?_⟩, ?_, ?_⟩
  · change (t.visiting found.2.length).seen _ v ↔ _
    rw [Marking.seen_foldl_mark, Bool.or_eq_true, decide_eq_true_eq, List.flatten_append,
      List.flatten_singleton, List.mem_append, or_comm]
    exact or_congr_left (hsearched.seen v)
  · rw [hsearched.named, List.map_append]
    rfl
  · simpa [hsearched.nonempty] using hnonempty.symm
  · simp [hmem]
  · simp

/-- **Loop**: afterwards every vertex of the index is in a component. -/
theorem Searched.foldlM (h : t.Coherent) (hgraph : C.graph.Adjacent) {fuel : Nat}
    (hfuel : t.searchBound ≤ fuel) {indices : List C.graph.NodeIx} {found : Found C}
    {groups : List (List C.graph.NodeIx)} (hsearched : t.Searched found groups)
    (hindices : ∀ idx ∈ indices, (C.graph.nodeWeight t.graph idx).isSome) :
    ∃ found' groups', indices.foldlM (t.searchFrom fuel) found = some found' ∧
      t.Searched found' groups' ∧
      (∀ idx ∈ indices, idx ∈ groups'.flatten) ∧ groups.flatten ⊆ groups'.flatten := by
  induction indices generalizing found groups with
  | nil => exact ⟨found, groups, rfl, hsearched, by simp, fun _ hv => hv⟩
  | cons idx rest ih =>
      obtain ⟨found₁, groups₁, hturn, hsearched₁, hidx, hgrow₁⟩ :=
        hsearched.searchFrom h hgraph hfuel (hindices idx List.mem_cons_self)
      obtain ⟨found₂, groups₂, hrest, hsearched₂, hall, hgrow₂⟩ :=
        ih hsearched₁ fun i hi => hindices i (List.mem_cons_of_mem idx hi)
      refine ⟨found₂, groups₂, ?_, hsearched₂, ?_, fun v hv => hgrow₂ (hgrow₁ hv)⟩
      · rw [List.foldlM_cons, hturn]
        exact hrest
      · exact List.forall_mem_cons.mpr ⟨hgrow₂ hidx, hall⟩

/-- The second loop finds nothing to do. -/
theorem Searched.foldl_addSingleton {found : Found C} {groups : List (List C.graph.NodeIx)}
    (hsearched : t.Searched found groups) {indices : List C.graph.NodeIx}
    (hindices : ∀ idx ∈ indices, idx ∈ groups.flatten) :
    indices.foldl t.addSingleton found = found := by
  induction indices with
  | nil => rfl
  | cons idx rest ih =>
      obtain ⟨compId, hcomp⟩ := Option.isSome_iff_exists.mp
        ((hsearched.seen idx).mpr (hindices idx List.mem_cons_self))
      have hturn : t.addSingleton found idx = found := by rw [addSingleton, hcomp]
      rw [List.foldl_cons, hturn, ih fun i hi => hindices i (List.mem_cons_of_mem idx hi)]

/-! ## Nodes -/

/-- A path of links, each in either direction. -/
def Joined (t : MeshTopology C) : UInt32 → UInt32 → Prop :=
  Relation.ReflTransGen fun a b => t.Linked a b ∨ t.Linked b a

theorem Joined.symm {a b : UInt32} (h : t.Joined a b) : t.Joined b a :=
  Relation.ReflTransGen.mono (fun _ _ => Or.symm) _ _ (Relation.ReflTransGen.swap _ _ h)

/-- **Search**: with enough fuel it finds components of vertices, with every vertex in one. -/
theorem Coherent.connectedComponents (h : t.Coherent) (hgraph : C.graph.Adjacent) (it : Iteration C)
    {fuel : Nat} (hfuel : t.searchBound ≤ fuel) :
    ∃ groups, t.connectedComponents it fuel =
        some (groups.map (List.filterMap (C.graph.nodeWeight t.graph))) ∧
      Components t.adjacent groups ∧
      (∀ idx, (C.graph.nodeWeight t.graph idx).isSome → idx ∈ groups.flatten) ∧
      [] ∉ groups.map (List.filterMap (C.graph.nodeWeight t.graph)) := by
  unfold MeshTopology.connectedComponents
  by_cases hempty : t.nodeIndex.size = 0
  · refine ⟨[], if_pos hempty, .nil, fun idx hidx => ?_, by simp⟩
    rw [← h.length_nodeIndices, List.length_eq_zero_iff] at hempty
    rw [← C.graph.mem_nodeIndices, hempty] at hidx
    cases hidx
  set indices := (t.nodeIndex.visit it).map Prod.snd with hindices
  have hmem : ∀ idx, idx ∈ indices ↔ (C.graph.nodeWeight t.graph idx).isSome := fun idx => by
    simp only [hindices, List.mem_map, Prod.exists, exists_eq_right, Table.mem_visit, h.indexed,
      Option.isSome_iff_exists]
  obtain ⟨found, groups, hloop, hsearched, hall, -⟩ :=
    searched_empty.foldlM h hgraph hfuel fun idx hidx => (hmem idx).mp hidx
  refine ⟨groups, ?_, hsearched.components, fun idx hidx => hall idx ((hmem idx).mpr hidx),
    hsearched.named ▸ hsearched.nonempty⟩
  simp only [if_neg hempty, hloop, Option.bind_eq_bind, Option.bind_some,
    hsearched.foldl_addSingleton hall, hsearched.named]

/-- A link in either direction is an edge between the vertices. -/
theorem linked_iff_adjacent (hgraph : C.graph.Adjacent) {a b : UInt32} {i : C.graph.NodeIx}
    (ha : t.nodeIndex.lookup a = some i) :
    t.Linked a b ∨ t.Linked b a ↔ ∃ j, t.nodeIndex.lookup b = some j ∧ j ∈ t.adjacent i := by
  simp only [Linked, mem_adjacent hgraph, ha, Option.some.injEq]
  constructor
  · rintro (⟨_, j, e, w, rfl, hb, he⟩ | ⟨j, _, e, w, hb, rfl, he⟩)
    · exact ⟨j, hb, e, w, .inl he⟩
    · exact ⟨j, hb, e, w, .inr he⟩
  · rintro ⟨j, hb, e, w, he | he⟩
    · exact .inl ⟨i, j, e, w, rfl, hb, he⟩
    · exact .inr ⟨j, i, e, w, hb, rfl, he⟩

/-- A path of links is a path of edges between the vertices. -/
theorem Coherent.joined_iff (h : t.Coherent) (hgraph : C.graph.Adjacent) {a b : UInt32}
    {i : C.graph.NodeIx} (ha : t.nodeIndex.lookup a = some i) :
    t.Joined a b ↔ ∃ j, t.nodeIndex.lookup b = some j ∧ Reaches t.adjacent i j := by
  constructor
  · intro hjoined
    induction hjoined with
    | refl => exact ⟨i, ha, .refl⟩
    | tail _ hstep ih =>
        obtain ⟨j, hj, hreach⟩ := ih
        obtain ⟨k, hk, hedge⟩ := (linked_iff_adjacent hgraph hj).mp hstep
        exact ⟨k, hk, hreach.tail hedge⟩
  · intro hpath
    obtain ⟨j, hj, hreach⟩ := hpath
    induction hreach generalizing b with
    | refl =>
        have hweight := (h.indexed b i).mp hj
        rw [(h.indexed a i).mp ha] at hweight
        obtain rfl := Option.some.inj hweight
        exact .refl
    | @tail v w _ hedge ih =>
        -- The vertex before has a node as well.
        obtain ⟨num, hnum⟩ := Option.isSome_iff_exists.mp
          (h.isSome_adjacent hgraph (adjacent_mutual hgraph v w hedge))
        have hlookup := (h.indexed num v).mpr hnum
        exact (ih hlookup).tail ((linked_iff_adjacent hgraph hlookup).mpr ⟨w, hj, hedge⟩)

/-- The nodes of a group are those of its vertices. -/
theorem Coherent.mem_group_iff (h : t.Coherent) {group : List C.graph.NodeIx} {num : UInt32} :
    num ∈ group.filterMap (C.graph.nodeWeight t.graph) ↔
      ∃ idx ∈ group, t.nodeIndex.lookup num = some idx := by
  simp only [List.mem_filterMap, h.indexed]

/-- **Groups**: the nodes are in them, each in one, together with the nodes a path leads to. -/
theorem Coherent.groups (h : t.Coherent) (hgraph : C.graph.Adjacent) (it : Iteration C) {fuel : Nat}
    (hfuel : t.searchBound ≤ fuel) :
    ∃ groups, t.connectedComponents it fuel = some groups ∧ groups.flatten.Nodup ∧ [] ∉ groups ∧
      (∀ num, num ∈ groups.flatten ↔ t.Tracked num) ∧
      ∀ a b, (∃ group ∈ groups, a ∈ group ∧ b ∈ group) ↔ t.Tracked a ∧ t.Joined a b := by
  obtain ⟨groups, hfound, hcomponents, hall, hnonempty⟩ := h.connectedComponents hgraph it hfuel
  have hflatten : groups.flatten.filterMap (C.graph.nodeWeight t.graph) = _ :=
    List.filterMap_flatten
  have htracked : ∀ num, num ∈ (groups.map (List.filterMap (C.graph.nodeWeight t.graph))).flatten ↔
      t.Tracked num := fun num => by
    rw [← hflatten, h.mem_group_iff, Tracked, Option.isSome_iff_exists]
    exact ⟨fun ⟨idx, _, hidx⟩ => ⟨idx, hidx⟩, fun ⟨idx, hidx⟩ =>
      ⟨idx, hall idx (by rw [(h.indexed num idx).mp hidx]; rfl), hidx⟩⟩
  refine ⟨_, hfound, ?_, hnonempty, htracked, fun a b => ?_⟩
  · rw [← hflatten]
    refine hcomponents.nodup.filterMap fun i j num hi hj => ?_
    have hi' := (h.indexed num i).mpr hi
    rw [(h.indexed num j).mpr hj] at hi'
    exact (Option.some.inj hi').symm
  · simp only [List.mem_map, exists_exists_and_eq_and, h.mem_group_iff]
    constructor
    · rintro ⟨group, hgroup, ⟨i, hi, ha⟩, j, hj, hb⟩
      have hreach :=
        ((hcomponents.together_iff (adjacent_mutual hgraph)).mp ⟨group, hgroup, hi, hj⟩).2
      exact ⟨Option.isSome_iff_exists.mpr ⟨i, ha⟩, (h.joined_iff hgraph ha).mpr ⟨j, hb, hreach⟩⟩
    · rintro ⟨ha, hjoined⟩
      obtain ⟨i, ha⟩ := Option.isSome_iff_exists.mp ha
      obtain ⟨j, hb, hreach⟩ := (h.joined_iff hgraph ha).mp hjoined
      have hi := hall i (by rw [(h.indexed a i).mp ha]; rfl)
      obtain ⟨group, hgroup, hi, hj⟩ :=
        (hcomponents.together_iff (adjacent_mutual hgraph)).mpr ⟨hi, hreach⟩
      exact ⟨group, hgroup, ⟨i, hi, ha⟩, j, hj, hb⟩

/-- Not partitioned: both are tracked and a path joins them. -/
theorem Coherent.isPartitioned_iff (h : t.Coherent) (hgraph : C.graph.Adjacent) (it : Iteration C)
    {fuel : Nat} (hfuel : t.searchBound ≤ fuel) (a b : UInt32) :
    ∃ parted, t.isPartitioned it fuel a b = some parted ∧
      (parted = false ↔ t.Tracked a ∧ t.Tracked b ∧ t.Joined a b) := by
  obtain ⟨groups, hgroups, -, -, -, htogether⟩ := h.groups hgraph it hfuel
  have hjoined := htogether a b
  unfold isPartitioned Tracked at *
  cases ha : t.nodeIndex.lookup a with
  | none => exact ⟨true, rfl, by simp⟩
  | some i =>
      cases hb : t.nodeIndex.lookup b with
      | none => exact ⟨true, rfl, by simp⟩
      | some j =>
          rw [hgroups]
          refine ⟨_, rfl, ?_⟩
          simpa [ha] using hjoined

/-- **Partitions**: in every topology and for every order in which the index is visited, a
search with enough fuel comes to its end.  The groups partition the nodes; two nodes are in one
group exactly if a path of links joins them; and a node is not partitioned from another exactly
if both are tracked and in one group, so that not being partitioned is symmetric and transitive. -/
theorem connectedComponents_partition (hgraph : C.graph.Adjacent) (h : t.Coherent)
    (it : Iteration C) {fuel : Nat} (hfuel : t.searchBound ≤ fuel) :
    ∃ groups, t.connectedComponents it fuel = some groups ∧
      (groups.flatten.Nodup ∧ [] ∉ groups ∧ ∀ num, num ∈ groups.flatten ↔ t.Tracked num) ∧
      (∀ a b, t.Tracked a → t.Tracked b →
        ((∃ group ∈ groups, a ∈ group ∧ b ∈ group) ↔ t.Joined a b)) ∧
      (∀ it' a b, ∃ parted, t.isPartitioned it' fuel a b = some parted ∧
        (parted = false ↔ t.Tracked a ∧ t.Tracked b ∧ ∃ group ∈ groups, a ∈ group ∧ b ∈ group)) ∧
      (∀ it₁ it₂ a b, t.isPartitioned it₁ fuel a b = some false →
        t.isPartitioned it₂ fuel b a = some false) ∧
      ∀ it₁ it₂ it₃ a b c, t.isPartitioned it₁ fuel a b = some false →
        t.isPartitioned it₂ fuel b c = some false → t.isPartitioned it₃ fuel a c = some false := by
  obtain ⟨groups, hfound, hnodup, hnonempty, htracked, htogether⟩ := h.groups hgraph it hfuel
  have hparted : ∀ it' a b, t.isPartitioned it' fuel a b = some false ↔
      t.Tracked a ∧ t.Tracked b ∧ t.Joined a b := fun it' a b => by
    obtain ⟨parted, heq, hiff⟩ := h.isPartitioned_iff hgraph it' hfuel a b
    rw [heq, Option.some.injEq, hiff]
  refine ⟨groups, hfound, ⟨hnodup, hnonempty, htracked⟩, fun a b ha hb => ?_, fun it' a b => ?_,
    fun it₁ it₂ a b hab => ?_, fun it₁ it₂ it₃ a b c hab hbc => ?_⟩
  · exact (htogether a b).trans (and_iff_right ha)
  · obtain ⟨parted, heq, hiff⟩ := h.isPartitioned_iff hgraph it' hfuel a b
    refine ⟨parted, heq, hiff.trans (and_congr_right fun ha => and_congr_right fun _ => ?_)⟩
    rw [htogether, and_iff_right ha]
  · obtain ⟨ha, hb, hjoined⟩ := (hparted it₁ a b).mp hab
    exact (hparted it₂ b a).mpr ⟨hb, ha, hjoined.symm⟩
  · obtain ⟨ha, -, hjoined⟩ := (hparted it₁ a b).mp hab
    obtain ⟨-, hc, hjoined'⟩ := (hparted it₂ b c).mp hbc
    exact (hparted it₃ a c).mpr ⟨ha, hc, hjoined.trans hjoined'⟩

/-- Graphs by tables, with a number for an SNR. -/
def tableCrates : TopologyCrates Nat :=
  ⟨tableGraph UInt32 (LinkQuality Nat), fun _ => true, fun _ => none⟩

/-- Nodes 1 and 3 are heard by node 2, and node 9 by nobody. -/
def fourNodes : List (TopologyCall tableCrates) :=
  [.updateLink 1 2 0, .updateLink 3 2 0, .addNode 9].map (⟨0, ⟨id, fun _ => .refl _⟩, ·⟩)

/-- Node 1 is joined to node 3 and partitioned from node 9. -/
theorem connectedComponents_partition_four :
    ∃ t groups, Machine.run step (new : MeshTopology tableCrates) fourNodes = some t ∧
      t.connectedComponents ⟨id, fun _ => .refl _⟩ t.searchBound = some groups ∧
      groups.flatten.Nodup ∧ t.Joined 1 3 ∧
      t.isPartitioned ⟨id, fun _ => .refl _⟩ t.searchBound 1 9 = some true := by
  obtain ⟨t, hrun, h, -⟩ := run_consistent (C := tableCrates) fourNodes
  obtain ⟨groups, hgroups, ⟨hnodup, -, htracked⟩, hjoined, -⟩ := connectedComponents_partition
    (tableGraph_adjacent _ _) h.toCoherent ⟨id, fun _ => .refl _⟩ le_rfl
  have hview : (Machine.run step (new : MeshTopology tableCrates) fourNodes).bind (fun t =>
      (t.connectedComponents ⟨id, fun _ => .refl _⟩ t.searchBound).bind fun groups =>
        (t.isPartitioned ⟨id, fun _ => .refl _⟩ t.searchBound 1 9).map fun parted =>
          (groups, parted)) =
      some ([[9], [3, 2, 1]], true) := by decide +kernel
  rw [hrun, Option.bind_some, hgroups, Option.bind_some] at hview
  obtain ⟨parted, hparted, heq⟩ := Option.map_eq_some_iff.mp hview
  obtain ⟨rfl, rfl⟩ := Prod.mk.inj heq
  refine ⟨t, _, hrun, hgroups, hnodup,
    (hjoined 1 3 ?_ ?_).mp ⟨[3, 2, 1], by simp, by simp, by simp⟩, hparted⟩
  · exact (htracked 1).mp (by simp)
  · exact (htracked 3).mp (by simp)

end Akroasis.Mesh.MeshTopology
