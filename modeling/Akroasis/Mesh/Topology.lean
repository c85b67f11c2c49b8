import Akroasis.Bytes
import Akroasis.Graph
import Akroasis.Machine
import Mathlib.Data.List.MinMax

/-!
# Akroasis.Mesh.Topology

The mesh topology (`topology.rs`): a directed graph of nodes and links with an index from
node numbers to vertices, both bounded by evicting what is coldest.

The graph is any implementation of `StableGraph`, and a hash map may be iterated in any
order (`Iteration`).  `Consistent` says that the index and the vertices correspond, that
the bounds hold, that there is one link at most for an ordered pair, and that both ends of
every link exist; every operation keeps it and none of them panics.
-/

namespace Akroasis.Mesh

/-! ## Types -/

/-- `MAX_LIVE_NODES`. -/
def maxLiveNodes : Nat := 4096

/-- `MAX_LIVE_LINKS`. -/
def maxLiveLinks : Nat := 16384

/-- The largest `u32`, at which packet counts saturate. -/
def maxPacketCount : Nat := 2 ^ 32 - 1

/-- Radio link quality between two nodes, with signal-to-noise ratios in `R`. -/
structure LinkQuality (R : Type) where
  snr : R
  lastObserved : Nat
  packetCount : Nat

/-- `is_stale`. -/
def LinkQuality.isStale {R : Type} (w : LinkQuality R) (cutoff : Nat) : Bool :=
  decide (w.lastObserved < cutoff)

/-- `LinkSnapshot`. -/
@[ext]
structure LinkSnapshot (R : Type) where
  src : UInt32
  dst : UInt32
  snr : R
  packetCount : Nat

/-- `TopologySnapshot`. -/
structure TopologySnapshot (R : Type) where
  nodes : List UInt32
  links : List (LinkSnapshot R)

/-- What the topology uses of its surroundings: the graph, `f32::is_finite`, and the JSON
reader of snapshots. -/
structure TopologyCrates (R : Type) where
  graph : StableGraph UInt32 (LinkQuality R)
  isFinite : R → Bool
  fromSlice : Bytes → Option (TopologySnapshot R)

variable {R : Type} (C : TopologyCrates R)

/-- An order in which the entries of the index are visited. -/
abbrev Iteration := Table.Iteration UInt32 C.graph.NodeIx

/-- Directed weighted graph tracking mesh node connectivity. -/
structure MeshTopology where
  graph : C.graph.Graph
  nodeIndex : Table UInt32 C.graph.NodeIx

variable {C}

namespace MeshTopology

/-! ## Operations -/

/-- `new`. -/
def new : MeshTopology C := ⟨C.graph.empty, ∅⟩

/-- `freshness`: the most recent observation of a vertex's edges; none is coldest. -/
def freshness (t : MeshTopology C) (idx : C.graph.NodeIx) : WithBot Nat :=
  ((C.graph.incoming t.graph idx ++ C.graph.outgoing t.graph idx).filterMap fun e =>
    (C.graph.edge t.graph e).map fun x => x.2.2.lastObserved).maximum

/-- Take a node and its vertex out. -/
def removeNode (t : MeshTopology C) (num : UInt32) (idx : C.graph.NodeIx) : MeshTopology C :=
  ⟨C.graph.removeNode t.graph idx, t.nodeIndex.erase num⟩

/-- `evict_coldest_node`. -/
def evictColdestNode (t : MeshTopology C) (it : Iteration C) (protect : List UInt32) :
    MeshTopology C :=
  let candidates := (t.nodeIndex.visit it).filter fun p => !protect.contains p.1
  match candidates.argmin fun p => t.freshness p.2 with
  | some (num, idx) => t.removeNode num idx
  | none => t

/-- `add_node_protecting`; `none` is a panic. -/
def addNodeProtecting (t : MeshTopology C) (it : Iteration C) (node : UInt32)
    (protect : List UInt32) :
    Option (C.graph.NodeIx × MeshTopology C) :=
  match t.nodeIndex.lookup node with
  | some idx => some (idx, t)
  | none =>
      let t := if maxLiveNodes ≤ t.nodeIndex.size then t.evictColdestNode it protect else t
      (C.graph.addNode t.graph node).map fun (idx, graph) =>
        (idx, ⟨graph, t.nodeIndex.insert node idx⟩)

/-- `add_node`. -/
def addNode (t : MeshTopology C) (it : Iteration C) (node : UInt32) : Option (MeshTopology C) :=
  (t.addNodeProtecting it node []).map Prod.snd

/-- `evict_coldest_edge`. -/
def evictColdestEdge (t : MeshTopology C) : MeshTopology C :=
  let observed := (C.graph.edgeIndices t.graph).filterMap fun e =>
    (C.graph.edge t.graph e).map fun x => (e, x.2.2.lastObserved)
  match observed.argmin Prod.snd with
  | some (e, _) => { t with graph := C.graph.removeEdge t.graph e }
  | none => t

/-- Both ways of storing a link: the ends are added, each protecting the other, a link that
is there is changed by `refresh`, and otherwise `fresh` is added, with room made for it if
`evicts`. -/
def putLink (t : MeshTopology C) (it : Iteration C) (src dst : UInt32)
    (refresh : LinkQuality R → LinkQuality R) (fresh : LinkQuality R) (evicts : Bool) :
    Option (MeshTopology C) := do
  let (srcIdx, t) ← t.addNodeProtecting it src [dst]
  let (dstIdx, t) ← t.addNodeProtecting it dst [src]
  match (C.graph.edgesConnecting t.graph srcIdx dstIdx).head? with
  | some e =>
      match C.graph.edge t.graph e with
      | some (_, _, weight) =>
          some { t with graph := C.graph.setWeight t.graph e (refresh weight) }
      | none => some t
  | none =>
      let t :=
        if evicts && decide (maxLiveLinks ≤ C.graph.edgeCount t.graph) then t.evictColdestEdge
        else t
      (C.graph.addEdge t.graph srcIdx dstIdx fresh).map fun (_, graph) => { t with graph := graph }

/-- `update_link`: an SNR that is not finite is rejected before anything is touched. -/
def updateLink (t : MeshTopology C) (it : Iteration C) (src dst : UInt32) (snr : R) (now : Nat) :
    Option (MeshTopology C) :=
  if !C.isFinite snr then some t
  else t.putLink it src dst
    (fun w => ⟨snr, now, min (w.packetCount + 1) maxPacketCount⟩) ⟨snr, now, 1⟩ true

/-- `remove_stale_nodes`. -/
def removeStaleNodes (t : MeshTopology C) (it : Iteration C) (timeout now : Nat) : MeshTopology C :=
  if now < timeout then t
  else
    let cutoff := now - timeout
    let stale := (t.nodeIndex.visit it).filter fun p =>
      !(C.graph.incoming t.graph p.2 ++ C.graph.outgoing t.graph p.2).any fun e =>
        (C.graph.edge t.graph e).any fun x => !x.2.2.isStale cutoff
    (stale.map Prod.fst).foldl (fun t num =>
      match t.nodeIndex.lookup num with
      | some idx => t.removeNode num idx
      | none => t) t

/-- `remove_stale_links`. -/
def removeStaleLinks (t : MeshTopology C) (timeout now : Nat) : MeshTopology C :=
  if now < timeout then t
  else
    let stale := (C.graph.edgeIndices t.graph).filter fun e =>
      (C.graph.edge t.graph e).any fun x => x.2.2.isStale (now - timeout)
    { t with graph := stale.foldl C.graph.removeEdge t.graph }

/-- The restore of one link: the last observation wins, and the counts add. -/
def restoreLink (it : Iteration C) (now : Nat) (t : MeshTopology C) (link : LinkSnapshot R) :
    Option (MeshTopology C) :=
  t.putLink it link.src link.dst
    (fun w => { w with
      snr := link.snr, packetCount := min (w.packetCount + link.packetCount) maxPacketCount })
    ⟨link.snr, now, link.packetCount⟩ false

/-- `load_from_bytes`: no topology if the text does not parse. -/
def loadFromBytes (it : Iteration C) (data : Bytes) (now : Nat) :
    Option (Option (MeshTopology C)) :=
  match C.fromSlice data with
  | none => some none
  | some snapshot => do
      let t ← (snapshot.nodes.take maxLiveNodes).foldlM (fun t node => t.addNode it node) new
      let t ← (snapshot.links.take maxLiveLinks).foldlM (restoreLink it now) t
      some (some t)

/-! ## Consistency -/

/-- The index and the vertices correspond one to one, there are not too many of them, an
ordered pair has one link at most, and both ends of every link exist. -/
structure Coherent (t : MeshTopology C) : Prop where
  indexed : ∀ num idx, t.nodeIndex.lookup num = some idx ↔ C.graph.nodeWeight t.graph idx = some num
  nodes_le : t.nodeIndex.size ≤ maxLiveNodes
  unique : ∀ e e' a b w w', C.graph.edge t.graph e = some (a, b, w) →
    C.graph.edge t.graph e' = some (a, b, w') → e = e'
  ends : ∀ e a b w, C.graph.edge t.graph e = some (a, b, w) →
    (C.graph.nodeWeight t.graph a).isSome ∧ (C.graph.nodeWeight t.graph b).isSome

/-- A coherent topology with not too many links. -/
structure Consistent (t : MeshTopology C) : Prop extends Coherent t where
  links_le : C.graph.edgeCount t.graph ≤ maxLiveLinks

variable {t t' : MeshTopology C} {graph : C.graph.Graph} {protect : List UInt32}
  {a b : C.graph.NodeIx}

theorem edgeCount_new : C.graph.edgeCount (new : MeshTopology C).graph = 0 := by
  have hempty : C.graph.edgeIndices C.graph.empty = [] := by
    refine List.eq_nil_iff_forall_not_mem.mpr fun e he => ?_
    simp [C.graph.mem_edgeIndices, C.graph.edge_empty] at he
  simp [new, StableGraph.edgeCount, hempty]

theorem consistent_new : (new : MeshTopology C).Consistent where
  indexed num idx := by simp [new, C.graph.nodeWeight_empty]
  nodes_le := Nat.zero_le _
  unique e e' a b w w' h := by simp [new, C.graph.edge_empty] at h
  ends e a b w h := by simp [new, C.graph.edge_empty] at h
  links_le := edgeCount_new ▸ Nat.zero_le _

/-- There are as many vertices as entries of the index. -/
theorem Coherent.length_nodeIndices (h : t.Coherent) :
    (C.graph.nodeIndices t.graph).length = t.nodeIndex.size := by
  have hmem : ∀ idx, idx ∈ t.nodeIndex.pairs.map Prod.snd ↔ idx ∈ C.graph.nodeIndices t.graph := by
    intro idx
    rw [List.mem_map, C.graph.mem_nodeIndices, Option.isSome_iff_exists]
    constructor
    · intro hpair
      obtain ⟨⟨num, i⟩, hmem, rfl⟩ := hpair
      exact ⟨num, (h.indexed num i).mp (Table.mem_pairs.mp hmem)⟩
    · intro hweight
      obtain ⟨num, hnum⟩ := hweight
      exact ⟨(num, idx), Table.mem_pairs.mpr ((h.indexed num idx).mpr hnum), rfl⟩
  have hnodup : (t.nodeIndex.pairs.map Prod.snd).Nodup := by
    refine List.Nodup.map_on (fun p hp q hq heq => ?_) t.nodeIndex.nodup_pairs
    have hweight := (h.indexed p.1 p.2).mp (Table.mem_pairs.mp hp)
    rw [heq, (h.indexed q.1 q.2).mp (Table.mem_pairs.mp hq)] at hweight
    exact Prod.ext (Option.some.inj hweight).symm heq
  have hperm := (List.perm_ext_iff_of_nodup hnodup (C.graph.nodup_nodeIndices t.graph)).mpr hmem
  rw [← hperm.length_eq]
  simp [Table.pairs, Table.size]

/-- Fewer links, the same vertices. -/
theorem Coherent.fewerLinks (h : t.Coherent)
    (hnodes : ∀ i, C.graph.nodeWeight graph i = C.graph.nodeWeight t.graph i)
    (hedges : ∀ e x, C.graph.edge graph e = some x → C.graph.edge t.graph e = some x) :
    Coherent { t with graph := graph } where
  indexed num idx := by rw [h.indexed, ← hnodes]
  nodes_le := h.nodes_le
  unique e e' a b w w' he he' := h.unique e e' a b w w' (hedges e _ he) (hedges e' _ he')
  ends e a b w he := by
    rw [hnodes, hnodes]
    exact h.ends e a b w (hedges e _ he)

/-- Every link of `t'` is one of `t`. -/
def SubLinks (t' t : MeshTopology C) : Prop :=
  ∀ e x, C.graph.edge t'.graph e = some x → C.graph.edge t.graph e = some x

theorem SubLinks.edgeCount_le (h : t'.SubLinks t) :
    C.graph.edgeCount t'.graph ≤ C.graph.edgeCount t.graph :=
  StableGraph.edgeCount_le fun e he => by
    obtain ⟨x, hx⟩ := Option.isSome_iff_exists.mp he
    exact Option.isSome_iff_exists.mpr ⟨x, h e x hx⟩

/-! ## Removing -/

/-- Taking out a node with its vertex. -/
theorem Coherent.removeNode (h : t.Coherent) {num : UInt32} {idx : C.graph.NodeIx}
    (hnum : t.nodeIndex.lookup num = some idx) : (t.removeNode num idx).Coherent where
  indexed n i := by
    rw [MeshTopology.removeNode, Table.lookup_erase_ite, C.graph.nodeWeight_removeNode]
    constructor
    · intro hlookup
      split at hlookup
      · cases hlookup
      · next hn =>
        have hweight := (h.indexed n i).mp hlookup
        rw [if_neg, hweight]
        rintro rfl
        rw [(h.indexed num i).mp hnum] at hweight
        exact hn (Option.some.inj hweight).symm
    · intro hweight
      split at hweight
      · cases hweight
      · next hi =>
        have hlookup := (h.indexed n i).mpr hweight
        rw [if_neg, hlookup]
        rintro rfl
        rw [hnum] at hlookup
        exact hi (Option.some.inj hlookup).symm
  nodes_le := (Table.size_erase_le _ _).trans h.nodes_le
  unique e e' a b w w' he he' := by
    simp only [MeshTopology.removeNode, C.graph.edge_removeNode,
      Option.filter_eq_some_iff] at he he'
    exact h.unique e e' a b w w' he.1 he'.1
  ends e a b w he := by
    simp only [MeshTopology.removeNode, C.graph.edge_removeNode, Option.filter_eq_some_iff,
      decide_eq_true_eq] at he
    obtain ⟨ha, hb⟩ := h.ends e a b w he.1
    simp only [MeshTopology.removeNode, C.graph.nodeWeight_removeNode, if_neg he.2.1, if_neg he.2.2]
    exact ⟨ha, hb⟩

theorem subLinks_removeNode (t : MeshTopology C) (num : UInt32) (idx : C.graph.NodeIx) :
    (t.removeNode num idx).SubLinks t := by
  intro e x hx
  rw [MeshTopology.removeNode, C.graph.edge_removeNode] at hx
  exact (Option.filter_eq_some_iff.mp hx).1

theorem subLinks_removeEdge (t : MeshTopology C) (e : C.graph.EdgeIx) :
    SubLinks { t with graph := C.graph.removeEdge t.graph e } t := by
  intro e' x hx
  rw [C.graph.edge_removeEdge] at hx
  split at hx
  · cases hx
  · exact hx

/-- If a node is not protected, one that is not protected is evicted. -/
theorem evictColdestNode_eq (it : Iteration C) {n : UInt32} (hn : n ∉ protect)
    (hsome : (t.nodeIndex.lookup n).isSome) :
    ∃ num idx, num ∉ protect ∧ t.nodeIndex.lookup num = some idx ∧
      t.evictColdestNode it protect = t.removeNode num idx := by
  obtain ⟨i, hi⟩ := Option.isSome_iff_exists.mp hsome
  set candidates := (t.nodeIndex.visit it).filter fun p => !protect.contains p.1 with hc
  have hne : candidates ≠ [] := by
    refine List.ne_nil_of_mem (a := (n, i)) (List.mem_filter.mpr ⟨?_, by simpa using hn⟩)
    exact Table.mem_visit.mpr hi
  obtain ⟨p, hp⟩ := Option.ne_none_iff_exists'.mp
    (mt (List.argmin_eq_none (f := fun p => t.freshness p.2)).mp hne)
  obtain ⟨hmem, hfree⟩ := List.mem_filter.mp (List.argmin_mem hp)
  refine ⟨p.1, p.2, by simpa using hfree, Table.mem_visit.mp hmem, ?_⟩
  rw [evictColdestNode, ← hc, hp]

/-- A full index has a node that is not protected. -/
theorem exists_unprotected (hprotect : protect.length ≤ 1)
    (hfull : maxLiveNodes ≤ t.nodeIndex.size) :
    ∃ n, n ∉ protect ∧ (t.nodeIndex.lookup n).isSome := by
  by_contra hall
  simp only [not_exists, not_and] at hall
  have hsub : t.nodeIndex.keys ⊆ protect := by
    intro n hn
    by_contra hnot
    rw [Table.mem_keys_iff, ← Option.isSome_iff_exists] at hn
    exact hall n hnot hn
  have hle := (t.nodeIndex.keys_nodup.subperm hsub).length_le
  rw [Table.length_keys] at hle
  simp only [maxLiveNodes] at hfull
  omega

/-- Room is made by taking out a node that is not protected. -/
theorem Coherent.room (h : t.Coherent) (it : Iteration C)
    (hprotect : protect.length ≤ 1) :
    ∃ t' : MeshTopology C,
      (if maxLiveNodes ≤ t.nodeIndex.size then t.evictColdestNode it protect else t) = t' ∧
      t'.Coherent ∧ t'.nodeIndex.size < maxLiveNodes ∧ t'.SubLinks t ∧
      (∀ n, t.nodeIndex.lookup n = none → t'.nodeIndex.lookup n = none) ∧
      ∀ p ∈ protect, t'.nodeIndex.lookup p = t.nodeIndex.lookup p := by
  by_cases hfull : maxLiveNodes ≤ t.nodeIndex.size
  · obtain ⟨n, hn, hsome⟩ := exists_unprotected hprotect hfull
    obtain ⟨num, idx, hnum, hidx, heq⟩ := evictColdestNode_eq it hn hsome
    refine ⟨_, (if_pos hfull).trans heq, h.removeNode hidx, ?_,
      subLinks_removeNode t num idx, ?_, ?_⟩
    · have hsize := Table.size_erase_add hidx
      have hle := h.nodes_le
      change Table.size (t.nodeIndex.erase num) < maxLiveNodes
      omega
    · intro m hm
      rw [MeshTopology.removeNode, Table.lookup_erase_ite, hm, ite_self]
    · intro p hp
      rw [MeshTopology.removeNode, Table.lookup_erase_ite,
        if_neg fun (heq : p = num) => hnum (heq ▸ hp)]
  · exact ⟨t, if_neg hfull, h, Nat.lt_of_not_le hfull, fun _ _ hx => hx, fun _ hm => hm,
      fun _ _ => rfl⟩

/-! ## Adding -/

/-- A node that is not there gets a vertex of its own. -/
theorem Coherent.insert (h : t.Coherent) {node : UInt32} {idx : C.graph.NodeIx}
    (hroom : t.nodeIndex.size < maxLiveNodes) (hnode : t.nodeIndex.lookup node = none)
    (hfresh : C.graph.nodeWeight t.graph idx = none)
    (hweight : ∀ j, C.graph.nodeWeight graph j =
      if j = idx then some node else C.graph.nodeWeight t.graph j)
    (hedge : ∀ e, C.graph.edge graph e = C.graph.edge t.graph e) :
    Coherent (⟨graph, t.nodeIndex.insert node idx⟩ : MeshTopology C) where
  indexed n i := by
    rw [Table.lookup_insert_ite, hweight]
    by_cases hn : n = node
    · by_cases hi : i = idx
      · simp [hn, hi]
      · have hne : C.graph.nodeWeight t.graph i ≠ some node := fun hw => by
          rw [(h.indexed node i).mpr hw] at hnode
          cases hnode
        simp [hn, hi, hne, Ne.symm hi]
    · by_cases hi : i = idx
      · have hne : t.nodeIndex.lookup n ≠ some idx := fun hl => by
          rw [(h.indexed n idx).mp hl] at hfresh
          cases hfresh
        simp [hn, hi, hne, Ne.symm hn]
      · simp [hn, hi, h.indexed n i]
  nodes_le := by
    have hle := Table.size_insert_le t.nodeIndex node idx
    change Table.size (t.nodeIndex.insert node idx) ≤ maxLiveNodes
    omega
  unique e e' a b w w' he he' := by
    rw [hedge] at he he'
    exact h.unique e e' a b w w' he he'
  ends e a b w he := by
    rw [hedge] at he
    obtain ⟨ha, hb⟩ := h.ends e a b w he
    rw [hweight, hweight]
    constructor
    · split
      · rfl
      · exact ha
    · split
      · rfl
      · exact hb

/-- **Add**: a node is added without a panic, and a protected one stays where it is. -/
theorem Coherent.addNodeProtecting (h : t.Coherent) (it : Iteration C) (node : UInt32)
    (hprotect : protect.length ≤ 1) :
    ∃ idx t', t.addNodeProtecting it node protect = some (idx, t') ∧ t'.Coherent ∧
      t'.nodeIndex.lookup node = some idx ∧ t'.SubLinks t ∧
      ∀ p ∈ protect, ∀ i, t.nodeIndex.lookup p = some i → t'.nodeIndex.lookup p = some i := by
  unfold MeshTopology.addNodeProtecting
  cases hnode : t.nodeIndex.lookup node with
  | some idx => exact ⟨idx, t, rfl, h, hnode, fun _ _ hx => hx, fun _ _ _ hi => hi⟩
  | none =>
      obtain ⟨t₁, heq, h₁, hroom, hedges, hnone, hkept⟩ := h.room it hprotect
      have hspace : (C.graph.nodeIndices t₁.graph).length < maxIndex := by
        rw [h₁.length_nodeIndices]
        exact hroom.trans (by decide)
      obtain ⟨idx, graph, hadd, hfresh, hweight, hedge⟩ := C.graph.addNode_spec t₁.graph node hspace
      simp only [heq, hadd, Option.map_some]
      refine ⟨idx, _, rfl, h₁.insert hroom (hnone node hnode) hfresh hweight hedge, ?_, ?_, ?_⟩
      · rw [Table.lookup_insert_ite, if_pos rfl]
      · exact fun e x hx => hedges e x (hedge e ▸ hx)
      · intro p hp i hi
        rw [Table.lookup_insert_ite, hkept p hp, if_neg, hi]
        rintro rfl
        rw [hnode] at hi
        cases hi

/-- The coldest link, if there is any, is taken out. -/
theorem evictColdestEdge_eq (hfull : 0 < C.graph.edgeCount t.graph) :
    ∃ e, (C.graph.edge t.graph e).isSome ∧
      t.evictColdestEdge = { t with graph := C.graph.removeEdge t.graph e } := by
  set observed := (C.graph.edgeIndices t.graph).filterMap fun e =>
    (C.graph.edge t.graph e).map fun x => (e, x.2.2.lastObserved) with hobserved
  have hedge : ∀ p, p ∈ observed → (C.graph.edge t.graph p.1).isSome := by
    intro p hp
    obtain ⟨e, -, hp⟩ := List.mem_filterMap.mp hp
    obtain ⟨x, hx, rfl⟩ := Option.map_eq_some_iff.mp hp
    exact Option.isSome_iff_exists.mpr ⟨x, hx⟩
  have hne : observed ≠ [] := by
    obtain ⟨e, he⟩ := List.exists_mem_of_length_pos hfull
    obtain ⟨x, hx⟩ := Option.isSome_iff_exists.mp ((C.graph.mem_edgeIndices _ _).mp he)
    exact List.ne_nil_of_mem (List.mem_filterMap.mpr ⟨e, he, by rw [hx, Option.map_some]⟩)
  obtain ⟨p, hp⟩ := Option.ne_none_iff_exists'.mp (mt (List.argmin_eq_none (f := Prod.snd)).mp hne)
  refine ⟨p.1, hedge p (List.argmin_mem hp), ?_⟩
  rw [evictColdestEdge, ← hobserved, hp]

/-- Room for a link: fewer links, the same vertices. -/
theorem Coherent.linkRoom (h : t.Coherent) (evicts : Bool) :
    ∃ t' : MeshTopology C, (if evicts && decide (maxLiveLinks ≤ C.graph.edgeCount t.graph) then
        t.evictColdestEdge else t) = t' ∧
      t'.Coherent ∧ t'.nodeIndex = t.nodeIndex ∧
      (∀ i, C.graph.nodeWeight t'.graph i = C.graph.nodeWeight t.graph i) ∧
      t'.SubLinks t ∧
      (evicts = true → C.graph.edgeCount t.graph ≤ maxLiveLinks →
        C.graph.edgeCount t'.graph < maxLiveLinks) := by
  by_cases hfull : (evicts && decide (maxLiveLinks ≤ C.graph.edgeCount t.graph)) = true
  · have hpos : 0 < C.graph.edgeCount t.graph := by
      simp only [Bool.and_eq_true, decide_eq_true_eq] at hfull
      exact Nat.lt_of_lt_of_le (by decide) hfull.2
    obtain ⟨e, he, heq⟩ := evictColdestEdge_eq hpos
    have hcount := StableGraph.edgeCount_removeEdge he
    have hsub := subLinks_removeEdge t e
    exact ⟨_, (if_pos hfull).trans heq, h.fewerLinks (C.graph.nodeWeight_removeEdge _ _) hsub, rfl,
      C.graph.nodeWeight_removeEdge _ _, hsub, fun _ _ => by dsimp only; omega⟩
  · refine ⟨t, if_neg hfull, h, rfl, fun _ => rfl, fun _ _ hx => hx, fun hev hle => ?_⟩
    simp only [hev, Bool.true_and, decide_eq_true_eq] at hfull
    omega

/-- A link between two vertices that have none. -/
theorem Coherent.addEdge (h : t.Coherent) {w : LinkQuality R}
    {e : C.graph.EdgeIx}
    (ha : (C.graph.nodeWeight t.graph a).isSome) (hb : (C.graph.nodeWeight t.graph b).isSome)
    (hnone : ∀ e w, C.graph.edge t.graph e ≠ some (a, b, w))
    (hedge : ∀ e', C.graph.edge graph e' =
      if e' = e then some (a, b, w) else C.graph.edge t.graph e')
    (hnodes : ∀ i, C.graph.nodeWeight graph i = C.graph.nodeWeight t.graph i) :
    Coherent { t with graph := graph } where
  indexed num idx := by rw [h.indexed, ← hnodes]
  nodes_le := h.nodes_le
  unique e₁ e₂ a' b' w₁ w₂ h₁ h₂ := by
    rw [hedge] at h₁ h₂
    split at h₁ <;> split at h₂
    · next heq₁ heq₂ => rw [heq₁, heq₂]
    · obtain ⟨rfl, rfl, -⟩ := (by simpa using h₁ : a = a' ∧ b = b' ∧ w = w₁)
      exact absurd h₂ (hnone e₂ w₂)
    · obtain ⟨rfl, rfl, -⟩ := (by simpa using h₂ : a = a' ∧ b = b' ∧ w = w₂)
      exact absurd h₁ (hnone e₁ w₁)
    · exact h.unique e₁ e₂ a' b' w₁ w₂ h₁ h₂
  ends e' a' b' w' he := by
    rw [hedge] at he
    rw [hnodes, hnodes]
    split at he
    · obtain ⟨rfl, rfl, -⟩ := (by simpa using he : a = a' ∧ b = b' ∧ w = w')
      exact ⟨ha, hb⟩
    · exact h.ends e' a' b' w' he

/-- The weight of a link is replaced. -/
theorem Coherent.setWeight (h : t.Coherent) (e : C.graph.EdgeIx) (w : LinkQuality R) :
    Coherent { t with graph := C.graph.setWeight t.graph e w } := by
  have hends : ∀ e' a b w', C.graph.edge (C.graph.setWeight t.graph e w) e' = some (a, b, w') →
      ∃ w'', C.graph.edge t.graph e' = some (a, b, w'') := by
    intro e' a b w' he
    rw [C.graph.edge_setWeight] at he
    split at he
    · next heq =>
      obtain ⟨⟨a', b', w''⟩, hx, hparts⟩ := Option.map_eq_some_iff.mp he
      obtain ⟨rfl, rfl, -⟩ := (by simpa using hparts : a' = a ∧ b' = b ∧ w = w')
      exact ⟨w'', heq ▸ hx⟩
    · exact ⟨w', he⟩
  refine ⟨fun num idx => ?_, h.nodes_le, fun e₁ e₂ a b w₁ w₂ h₁ h₂ => ?_, fun e' a b w' he => ?_⟩
  · rw [h.indexed, ← C.graph.nodeWeight_setWeight t.graph e w]
  · obtain ⟨x₁, hx₁⟩ := hends e₁ a b w₁ h₁
    obtain ⟨x₂, hx₂⟩ := hends e₂ a b w₂ h₂
    exact h.unique e₁ e₂ a b x₁ x₂ hx₁ hx₂
  · obtain ⟨x, hx⟩ := hends e' a b w' he
    rw [C.graph.nodeWeight_setWeight, C.graph.nodeWeight_setWeight]
    exact h.ends e' a b x hx

/-- `contains_node`. -/
def Tracked (t : MeshTopology C) (node : UInt32) : Prop := (t.nodeIndex.lookup node).isSome

/-- Both nodes are there, and a link from the first to the second. -/
def Linked (t : MeshTopology C) (src dst : UInt32) : Prop :=
  ∃ a b e w, t.nodeIndex.lookup src = some a ∧ t.nodeIndex.lookup dst = some b ∧
    C.graph.edge t.graph e = some (a, b, w)

/-- Every link of `t'` is one of `t` or has the weight. -/
def LinksOr (t' t : MeshTopology C) (w : LinkQuality R) : Prop :=
  ∀ e a b w', C.graph.edge t'.graph e = some (a, b, w') →
    C.graph.edge t.graph e = some (a, b, w') ∨ w' = w

theorem LinksOr.trans {w : LinkQuality R} {t₂ : MeshTopology C} (h : t'.LinksOr t₂ w)
    (hsub : t₂.SubLinks t) : t'.LinksOr t w :=
  fun e a b w' he => (h e a b w' he).imp_left (hsub e _)

/-- A link that is there gets another weight. -/
theorem Coherent.refreshLink (h : t.Coherent) {src dst : UInt32}
    {e : C.graph.EdgeIx} {w : LinkQuality R} (hsrc : t.nodeIndex.lookup src = some a)
    (hdst : t.nodeIndex.lookup dst = some b) (hw : C.graph.edge t.graph e = some (a, b, w))
    (w' : LinkQuality R) (ht' : t' = { t with graph := C.graph.setWeight t.graph e w' }) :
    t'.Coherent ∧ t'.Linked src dst ∧ C.graph.edgeCount t'.graph = C.graph.edgeCount t.graph ∧
      t'.LinksOr t w' := by
  subst ht'
  refine ⟨h.setWeight e w', ⟨a, b, e, w', hsrc, hdst, ?_⟩, StableGraph.edgeCount_eq fun e' => ?_,
    fun e' a' b' w'' he' => ?_⟩
  · rw [C.graph.edge_setWeight, if_pos rfl, hw, Option.map_some]
  · rw [C.graph.edge_setWeight]
    split
    · next heq => rw [Option.isSome_map, heq]
    · rfl
  · rw [C.graph.edge_setWeight, hw, Option.map_some] at he'
    split at he'
    · exact .inr (by simpa using he' : a = a' ∧ b = b' ∧ w' = w'').2.2.symm
    · exact .inl he'

/-- A link between two vertices that have none, with room made for it. -/
theorem Coherent.addLink (h : t.Coherent) (hlinks : C.graph.edgeCount t.graph ≤ maxLiveLinks)
    {src dst : UInt32} (hsrc : t.nodeIndex.lookup src = some a)
    (hdst : t.nodeIndex.lookup dst = some b)
    (hnone : ∀ e w, C.graph.edge t.graph e ≠ some (a, b, w)) (fresh : LinkQuality R)
    (evicts : Bool) :
    ∃ t', (let t := if evicts && decide (maxLiveLinks ≤ C.graph.edgeCount t.graph) then
          t.evictColdestEdge else t
        (C.graph.addEdge t.graph a b fresh).map fun (_, graph) => { t with graph := graph }) =
          some t' ∧
      t'.Coherent ∧ t'.Linked src dst ∧
      C.graph.edgeCount t'.graph ≤ C.graph.edgeCount t.graph + 1 ∧
      (evicts = true → C.graph.edgeCount t'.graph ≤ maxLiveLinks) ∧ t'.LinksOr t fresh := by
  obtain ⟨t₃, heq, h₃, hindex, hnodes, hsub, hroom⟩ := h.linkRoom evicts
  have hcount₃ := hsub.edgeCount_le
  have ha : (C.graph.nodeWeight t₃.graph a).isSome := by
    rw [hnodes, (h.indexed src a).mp hsrc]; rfl
  have hb : (C.graph.nodeWeight t₃.graph b).isSome := by
    rw [hnodes, (h.indexed dst b).mp hdst]; rfl
  have hspace : (C.graph.edgeIndices t₃.graph).length < maxIndex :=
    Nat.lt_of_le_of_lt (hcount₃.trans hlinks) (by decide)
  obtain ⟨e, graph, hadd, hnew, hedge, hweight⟩ :=
    C.graph.addEdge_spec t₃.graph a b fresh ha hb hspace
  have hcount : C.graph.edgeCount graph = C.graph.edgeCount t₃.graph + 1 := by
    refine StableGraph.edgeCount_add_one hnew fun e' => ?_
    rw [hedge]
    split
    · next heq => simp [heq]
    · next hne => simp [hne]
  refine ⟨{ t₃ with graph := graph }, by simp only [heq, hadd, Option.map_some],
    h₃.addEdge ha hb (fun e w hw => hnone e w (hsub e _ hw)) hedge hweight,
    ⟨a, b, e, fresh, hindex ▸ hsrc, hindex ▸ hdst, ?_⟩, ?_, fun hev => ?_, ?_⟩
  · rw [hedge, if_pos rfl]
  · dsimp only; omega
  · have hlt := hroom hev hlinks
    dsimp only
    omega
  · intro e' a' b' w' he'
    rw [hedge] at he'
    split at he'
    · exact .inr (by simpa using he' : a = a' ∧ b = b' ∧ fresh = w').2.2.symm
    · exact .inl (hsub _ _ he')

/-- **Link**: storing a link does not panic and leaves both ends with the link between them. -/
theorem Coherent.putLink (h : t.Coherent) (hlinks : C.graph.edgeCount t.graph ≤ maxLiveLinks)
    (it : Iteration C) (src dst : UInt32) (refresh : LinkQuality R → LinkQuality R)
    (fresh : LinkQuality R) (evicts : Bool) :
    ∃ t', t.putLink it src dst refresh fresh evicts = some t' ∧ t'.Coherent ∧ t'.Linked src dst ∧
      C.graph.edgeCount t'.graph ≤ C.graph.edgeCount t.graph + 1 ∧
      (evicts = true → C.graph.edgeCount t'.graph ≤ maxLiveLinks) ∧
      ∃ w, (w = fresh ∨ ∃ w₀, w = refresh w₀) ∧ t'.LinksOr t w := by
  obtain ⟨a, t₁, hadd₁, h₁, hsrc₁, hsub₁, -⟩ :=
    h.addNodeProtecting it src (show [dst].length ≤ 1 by simp)
  obtain ⟨b, t₂, hadd₂, h₂, hdst, hsub₂, hkept⟩ :=
    h₁.addNodeProtecting it dst (show [src].length ≤ 1 by simp)
  have hsub : t₂.SubLinks t := fun e x hx => hsub₁ e x (hsub₂ e x hx)
  have hcount₂ := hsub.edgeCount_le
  have hsrc : t₂.nodeIndex.lookup src = some a := hkept src (by simp) a hsrc₁
  simp only [MeshTopology.putLink, hadd₁, hadd₂, Option.bind_eq_bind, Option.bind_some]
  cases hhead : (C.graph.edgesConnecting t₂.graph a b).head? with
  | some e =>
      obtain ⟨w, hw⟩ := (C.graph.mem_edgesConnecting _ _ _ _).mp (List.mem_of_mem_head? hhead)
      obtain ⟨h', hlinked, hcount, hor⟩ := h₂.refreshLink hsrc hdst hw (refresh w) rfl
      exact ⟨_, by simp only [hw], h', hlinked, by omega, fun _ => by omega, _, .inr ⟨w, rfl⟩,
        hor.trans hsub⟩
  | none =>
      have hnone : ∀ e w, C.graph.edge t₂.graph e ≠ some (a, b, w) := by
        intro e w hw
        have hmem := (C.graph.mem_edgesConnecting _ _ _ _).mpr ⟨w, hw⟩
        rw [List.head?_eq_none_iff.mp hhead] at hmem
        cases hmem
      obtain ⟨t', hadd, h', hlinked, hcount, hbound, hor⟩ :=
        h₂.addLink (hcount₂.trans hlinks) hsrc hdst hnone fresh evicts
      exact ⟨t', hadd, h', hlinked, by omega, hbound, _, .inl rfl, hor.trans hsub⟩

/-- **Stale nodes**: taking out any nodes keeps the consistency. -/
theorem Consistent.removeStaleNodes (h : t.Consistent) (it : Iteration C) (timeout now : Nat) :
    (t.removeStaleNodes it timeout now).Consistent := by
  unfold MeshTopology.removeStaleNodes
  split
  · exact h
  · refine List.foldlRecOn _ _ h fun t h num _ => ?_
    cases hnum : t.nodeIndex.lookup num with
    | none => exact h
    | some idx =>
        exact ⟨h.toCoherent.removeNode hnum,
          (subLinks_removeNode t num idx).edgeCount_le.trans h.links_le⟩

/-- **Stale links**: taking out any links keeps the consistency. -/
theorem Consistent.removeStaleLinks (h : t.Consistent) (timeout now : Nat) :
    (t.removeStaleLinks timeout now).Consistent := by
  unfold MeshTopology.removeStaleLinks
  split
  · exact h
  · refine List.foldlRecOn (motive := fun graph => Consistent { t with graph := graph }) _ _ h
      fun graph h e _ => ?_
    have hsub := subLinks_removeEdge { t with graph := graph } e
    exact ⟨h.toCoherent.fewerLinks (C.graph.nodeWeight_removeEdge graph e) hsub,
      hsub.edgeCount_le.trans h.links_le⟩

/-- **Node**: a node is added without a panic. -/
theorem Coherent.addNode (h : t.Coherent) (it : Iteration C) (node : UInt32) :
    ∃ t', t.addNode it node = some t' ∧ t'.Coherent ∧ t'.SubLinks t := by
  obtain ⟨idx, t', hadd, h', -, hsub, -⟩ := h.addNodeProtecting it node (show [].length ≤ 1 by simp)
  exact ⟨t', by rw [MeshTopology.addNode, hadd, Option.map_some], h', hsub⟩

/-- **Load**: a parsable snapshot is restored without a panic. -/
theorem exists_loadFromBytes (it : Iteration C) (data : Bytes) (now : Nat) :
    ∃ r, loadFromBytes it data now = some r ∧ ∀ t ∈ r, t.Consistent := by
  unfold loadFromBytes
  cases C.fromSlice data with
  | none => exact ⟨none, rfl, by simp⟩
  | some snapshot =>
      let nodes := snapshot.nodes.take maxLiveNodes
      let links := snapshot.links.take maxLiveLinks
      have hlen : 0 + links.length ≤ maxLiveLinks := by simp [links, List.length_take]
      -- No link comes with a node, and a link each with the links: the links need no eviction.
      obtain ⟨t₁, hnodes, h₁, hcount₁⟩ :
          ∃ t', Machine.run (fun t node => t.addNode it node) new nodes = some t' ∧ t'.Coherent ∧
            C.graph.edgeCount t'.graph ≤ 0 := by
        refine Machine.exists_run_of_invariant (fun t node ht => ?_)
          ⟨consistent_new.toCoherent, edgeCount_new.le⟩ nodes
        obtain ⟨t', hadd, h', hsub⟩ := ht.1.addNode it node
        exact ⟨t', hadd, h', hsub.edgeCount_le.trans ht.2⟩
      obtain ⟨t₂, hlinks, h₂, hcount₂⟩ :
          ∃ t', Machine.run (restoreLink it now) t₁ links = some t' ∧ t'.Coherent ∧
            C.graph.edgeCount t'.graph ≤ 0 + links.length := by
        refine Machine.exists_run
          (I := fun n (t : MeshTopology C) => t.Coherent ∧ C.graph.edgeCount t.graph ≤ n)
          (fun n hn t link ht => ?_) hlen ⟨h₁, hcount₁⟩
        obtain ⟨t', hput, h', -, hcount, -⟩ :=
          ht.1.putLink (ht.2.trans hn.le) it link.src link.dst _ _ false
        exact ⟨t', hput, h', by omega⟩
      refine ⟨some t₂, ?_, fun t ht => ?_⟩
      · rw [Machine.run] at hnodes hlinks
        simp only [nodes, links] at hnodes hlinks
        simp only [hnodes, hlinks, Option.bind_eq_bind, Option.bind_some]
      · obtain rfl := Option.some.inj ht
        exact ⟨h₂, hcount₂.trans hlen⟩

/-! ## Which nodes -/

/-- Every node satisfies `P`. -/
def Named (t : MeshTopology C) (P : UInt32 → Prop) : Prop :=
  ∀ num idx, t.nodeIndex.lookup num = some idx → P num

section Named

variable {P : UInt32 → Prop} {it : Iteration C}

theorem named_new : (new : MeshTopology C).Named P := by simp [Named, new]

/-- Every vertex is a node of the index. -/
theorem Named.vertex (h : t.Named P) (hcoherent : t.Coherent) {idx : C.graph.NodeIx} {num : UInt32}
    (hweight : C.graph.nodeWeight t.graph idx = some num) : P num :=
  h num idx ((hcoherent.indexed num idx).mpr hweight)

theorem Named.removeNode (h : t.Named P) (num : UInt32) (idx : C.graph.NodeIx) :
    (t.removeNode num idx).Named P := by
  intro n i hlookup
  rw [MeshTopology.removeNode, Table.lookup_erase_ite] at hlookup
  split at hlookup
  · cases hlookup
  · exact h n i hlookup

theorem Named.evictColdestNode (h : t.Named P) (protect : List UInt32) :
    (t.evictColdestNode it protect).Named P := by
  unfold MeshTopology.evictColdestNode
  dsimp only
  split
  · exact h.removeNode _ _
  · exact h

theorem Named.addNodeProtecting (h : t.Named P) {node : UInt32} (hnode : P node)
    {protect : List UInt32} {idx : C.graph.NodeIx}
    (hadd : t.addNodeProtecting it node protect = some (idx, t')) : t'.Named P := by
  unfold MeshTopology.addNodeProtecting at hadd
  split at hadd
  · obtain ⟨rfl, rfl⟩ := Prod.mk.inj (Option.some.inj hadd)
    exact h
  · obtain ⟨⟨i, graph⟩, -, heq⟩ := Option.map_eq_some_iff.mp hadd
    obtain ⟨rfl, rfl⟩ := Prod.mk.inj heq
    intro n j hlookup
    rw [Table.lookup_insert_ite] at hlookup
    split at hlookup
    · next hn => exact hn ▸ hnode
    · split at hlookup
      · exact h.evictColdestNode protect n j hlookup
      · exact h n j hlookup

theorem Named.addNode (h : t.Named P) {node : UInt32} (hnode : P node)
    (hadd : t.addNode it node = some t') : t'.Named P := by
  obtain ⟨⟨idx, t₁⟩, hprotecting, rfl⟩ := Option.map_eq_some_iff.mp hadd
  exact h.addNodeProtecting hnode hprotecting

/-- Making room for a link leaves the index alone. -/
theorem nodeIndex_evictColdestEdge (t : MeshTopology C) :
    t.evictColdestEdge.nodeIndex = t.nodeIndex := by
  unfold MeshTopology.evictColdestEdge
  dsimp only
  split <;> rfl

theorem Named.putLink (h : t.Named P) {src dst : UInt32} (hsrc : P src) (hdst : P dst)
    {refresh : LinkQuality R → LinkQuality R} {fresh : LinkQuality R} {evicts : Bool}
    (hput : t.putLink it src dst refresh fresh evicts = some t') : t'.Named P := by
  obtain ⟨⟨a, t₁⟩, hadd₁, hput⟩ := Option.bind_eq_some_iff.mp hput
  obtain ⟨⟨b, t₂⟩, hadd₂, hput⟩ := Option.bind_eq_some_iff.mp hput
  have h₂ : t₂.Named P := (h.addNodeProtecting hsrc hadd₁).addNodeProtecting hdst hadd₂
  suffices hindex : t'.nodeIndex = t₂.nodeIndex by rw [Named, hindex]; exact h₂
  dsimp only at hput
  split at hput
  · split at hput
    · obtain rfl := Option.some.inj hput
      rfl
    · obtain rfl := Option.some.inj hput
      rfl
  · obtain ⟨⟨e, graph⟩, -, rfl⟩ := Option.map_eq_some_iff.mp hput
    dsimp only
    split
    · exact nodeIndex_evictColdestEdge t₂
    · rfl

/-- A link that is rejected names nothing. -/
theorem Named.updateLink (h : t.Named P) {src dst : UInt32} {snr : R} {now : Nat}
    (hends : C.isFinite snr → P src ∧ P dst) (hupdate : t.updateLink it src dst snr now = some t') :
    t'.Named P := by
  unfold MeshTopology.updateLink at hupdate
  split at hupdate
  · obtain rfl := Option.some.inj hupdate
    exact h
  · next hfinite =>
    obtain ⟨hsrc, hdst⟩ := hends (by simpa using hfinite)
    exact h.putLink hsrc hdst hupdate

theorem Named.removeStaleNodes (h : t.Named P) (timeout now : Nat) :
    (t.removeStaleNodes it timeout now).Named P := by
  unfold MeshTopology.removeStaleNodes
  split
  · exact h
  · refine List.foldlRecOn (motive := fun t : MeshTopology C => t.Named P) _ _ h fun t h num _ => ?_
    split
    · exact h.removeNode num _
    · exact h

theorem Named.removeStaleLinks (h : t.Named P) (timeout now : Nat) :
    (t.removeStaleLinks timeout now).Named P := by
  unfold MeshTopology.removeStaleLinks
  split <;> exact h

end Named

/-! ## Runs -/

/-- An operation; `load` replaces the topology if the snapshot parses. -/
inductive TopologyOp (R : Type)
  | addNode (node : UInt32)
  | updateLink (src dst : UInt32) (snr : R)
  | removeStaleNodes (timeout : Nat)
  | removeStaleLinks (timeout : Nat)
  | load (data : Bytes)

variable (C) in
/-- A call, with its clock reading and the order in which it finds the index. -/
structure TopologyCall where
  now : Nat
  it : Iteration C
  op : TopologyOp R

/-- One call; `none` is a panic. -/
def step (t : MeshTopology C) (call : TopologyCall C) : Option (MeshTopology C) :=
  match call.op with
  | .addNode node => t.addNode call.it node
  | .updateLink src dst snr => t.updateLink call.it src dst snr call.now
  | .removeStaleNodes timeout => some (t.removeStaleNodes call.it timeout call.now)
  | .removeStaleLinks timeout => some (t.removeStaleLinks timeout call.now)
  | .load data => (loadFromBytes call.it data call.now).map (·.getD t)

/-- **Step**: no call panics, every call keeps the consistency, and an observed link is there
afterwards. -/
theorem Consistent.step (h : t.Consistent) (call : TopologyCall C) :
    ∃ t', t.step call = some t' ∧ t'.Consistent ∧
      ∀ src dst snr, call.op = .updateLink src dst snr → C.isFinite snr → t'.Linked src dst := by
  obtain ⟨now, it, op⟩ := call
  cases op with
  | addNode node =>
      obtain ⟨t', hadd, h', hsub⟩ := h.toCoherent.addNode it node
      exact ⟨t', hadd, ⟨h', hsub.edgeCount_le.trans h.links_le⟩, by simp⟩
  | updateLink src dst snr =>
      by_cases hfinite : C.isFinite snr
      · obtain ⟨t', hput, h', hlinked, -, hcount, -⟩ :=
          h.toCoherent.putLink h.links_le it src dst
            (fun w => ⟨snr, now, min (w.packetCount + 1) maxPacketCount⟩) ⟨snr, now, 1⟩ true
        refine ⟨t', ?_, ⟨h', hcount rfl⟩, ?_⟩
        · simp only [MeshTopology.step, updateLink, hfinite, Bool.not_true,
            Bool.false_eq_true, if_false]
          exact hput
        · intro src' dst' snr' hop _
          obtain ⟨rfl, rfl, rfl⟩ := TopologyOp.updateLink.inj hop
          exact hlinked
      · refine ⟨t, by simp [MeshTopology.step, updateLink, hfinite], h, ?_⟩
        intro src' dst' snr' hop hfinite'
        obtain ⟨rfl, rfl, rfl⟩ := TopologyOp.updateLink.inj hop
        exact absurd hfinite' hfinite
  | removeStaleNodes timeout => exact ⟨_, rfl, h.removeStaleNodes it timeout now, by simp⟩
  | removeStaleLinks timeout => exact ⟨_, rfl, h.removeStaleLinks timeout now, by simp⟩
  | load data =>
      obtain ⟨r, hload, hr⟩ := exists_loadFromBytes it data now
      refine ⟨r.getD t, by simp only [MeshTopology.step, hload, Option.map_some], ?_, by simp⟩
      cases r with
      | none => exact h
      | some t' => exact hr t' rfl

/-- **Topology**: no sequence of calls panics; the index and the vertices correspond one to
one and are bounded, links are bounded and unique for an ordered pair, no link hangs from a
missing vertex, and right after a link was observed with a finite SNR it is there with both
its ends. -/
theorem run_consistent (calls : List (TopologyCall C)) :
    ∃ t, Machine.run step (new : MeshTopology C) calls = some t ∧ t.Consistent ∧
      (C.graph.nodeIndices t.graph).length ≤ maxLiveNodes ∧
      ∀ call, ∃ t', t.step call = some t' ∧
        ∀ src dst snr, call.op = .updateLink src dst snr → C.isFinite snr → t'.Linked src dst := by
  have hstep : ∀ (t : MeshTopology C) call, t.Consistent → ∃ t', t.step call = some t' ∧
      t'.Consistent :=
    fun t call h => (h.step call).imp fun _ h' => ⟨h'.1, h'.2.1⟩
  obtain ⟨t, hrun, h⟩ := Machine.exists_run_of_invariant hstep consistent_new calls
  refine ⟨t, hrun, h, by rw [h.toCoherent.length_nodeIndices]; exact h.nodes_le, fun call => ?_⟩
  obtain ⟨t', hstep, -, hlinked⟩ := h.step call
  exact ⟨t', hstep, hlinked⟩

end MeshTopology

end Akroasis.Mesh
