import Akroasis.Mesh.Topology
import Mathlib.Logic.Equiv.List

/-!
# Akroasis.Mesh.Restore

Saving and restoring the topology (`save_to_bytes` and `load_from_bytes` of `topology.rs`).

A snapshot lists every node and every link once, and a consistent topology is within the
limits of a restore: its nodes find room one after the other, and then its links, each between
two nodes that are there and have no link yet (`Consistent.loadFromBytes_snapshot`).  What decides
whether it can be read at all are the numbers in it: the JSON writer has no text for one that
is not finite (`TopologyJson`).  `update_link` keeps such numbers out; `load_from_bytes` takes
what the reader gives it (`roundTrips_iff`).
-/

namespace Akroasis.Mesh

variable {R : Type}

/-- `serde_json` on snapshots: finite numbers are read back as they were written, and any other
one is written as `null`, where the reader expects a number. -/
structure TopologyJson (C : TopologyCrates R) where
  toVec : TopologySnapshot R → Bytes
  finite : ∀ s, (∀ link ∈ s.links, C.isFinite link.snr) → C.fromSlice (toVec s) = some s
  null : ∀ s, (∃ link ∈ s.links, C.isFinite link.snr = false) → C.fromSlice (toVec s) = none

variable {C : TopologyCrates R}

namespace MeshTopology

/-- A link with the numbers of its ends. -/
def linkSnapshot (t : MeshTopology C) (e : C.graph.EdgeIx) : Option (LinkSnapshot R) := do
  let (src, dst, weight) ← C.graph.edge t.graph e
  let srcNum ← C.graph.nodeWeight t.graph src
  let dstNum ← C.graph.nodeWeight t.graph dst
  some ⟨srcNum, dstNum, weight.snr, weight.packetCount⟩

def snapshot (t : MeshTopology C) (it : Iteration C) : TopologySnapshot R where
  nodes := (t.nodeIndex.visit it).map Prod.fst
  links := (C.graph.edgeIndices t.graph).filterMap t.linkSnapshot

/-- `save_to_bytes`. -/
def saveToBytes (t : MeshTopology C) (J : TopologyJson C) (it : Iteration C) : Bytes :=
  J.toVec (t.snapshot it)

variable {t t' : MeshTopology C} {link : LinkSnapshot R}

/-! ## Snapshots -/

/-- There is a link with these ends, SNR and packet count. -/
def HasLink (t : MeshTopology C) (link : LinkSnapshot R) : Prop :=
  ∃ e a b w, C.graph.edge t.graph e = some (a, b, w) ∧ t.nodeIndex.lookup link.src = some a ∧
    t.nodeIndex.lookup link.dst = some b ∧ w.snr = link.snr ∧ w.packetCount = link.packetCount

theorem Coherent.linkSnapshot_eq_some (h : t.Coherent) {e : C.graph.EdgeIx} :
    t.linkSnapshot e = some link ↔
      ∃ a b w, C.graph.edge t.graph e = some (a, b, w) ∧ t.nodeIndex.lookup link.src = some a ∧
        t.nodeIndex.lookup link.dst = some b ∧ w.snr = link.snr ∧
        w.packetCount = link.packetCount := by
  obtain ⟨src, dst, snr, packetCount⟩ := link
  simp only [linkSnapshot, Option.bind_eq_bind, Option.bind_eq_some_iff, Option.some.injEq,
    h.indexed, LinkSnapshot.mk.injEq]
  constructor
  · rintro ⟨⟨a, b, w⟩, hedge, _, hsrc, _, hdst, rfl, rfl, hsnr, hcount⟩
    exact ⟨a, b, w, hedge, hsrc, hdst, hsnr, hcount⟩
  · rintro ⟨a, b, w, hedge, hsrc, hdst, hsnr, hcount⟩
    exact ⟨(a, b, w), hedge, src, hsrc, dst, hdst, rfl, rfl, hsnr, hcount⟩

theorem Coherent.mem_links_snapshot (h : t.Coherent) (it : Iteration C) :
    link ∈ (t.snapshot it).links ↔ t.HasLink link := by
  simp only [snapshot, List.mem_filterMap, C.graph.mem_edgeIndices, h.linkSnapshot_eq_some, HasLink]
  refine ⟨fun ⟨e, _, hlink⟩ => ⟨e, hlink⟩,
    fun ⟨e, a, b, w, hedge, hlink⟩ => ⟨e, ?_, a, b, w, hedge, hlink⟩⟩
  rw [hedge]
  rfl

/-- A snapshot lists an ordered pair once. -/
theorem Coherent.nodup_links_snapshot (h : t.Coherent) (it : Iteration C) :
    ((t.snapshot it).links.map fun link => (link.src, link.dst)).Nodup := by
  rw [snapshot, List.map_filterMap]
  refine (C.graph.nodup_edgeIndices t.graph).filterMap fun e e' pair he he' => ?_
  obtain ⟨link, hlink, rfl⟩ := Option.map_eq_some_iff.mp he
  obtain ⟨link', hlink', hpair⟩ := Option.map_eq_some_iff.mp he'
  obtain ⟨hsrc, hdst⟩ := Prod.mk.inj hpair
  obtain ⟨a, b, w, hedge, ha, hb, -⟩ := h.linkSnapshot_eq_some.mp hlink
  obtain ⟨a', b', w', hedge', ha', hb', -⟩ := h.linkSnapshot_eq_some.mp hlink'
  rw [hsrc, ha] at ha'
  rw [hdst, hb] at hb'
  obtain rfl := Option.some.inj ha'
  obtain rfl := Option.some.inj hb'
  exact h.unique e e' a b w w' hedge hedge'

theorem mem_nodes_snapshot (it : Iteration C) {num : UInt32} :
    num ∈ (t.snapshot it).nodes ↔ t.Tracked num := by
  simp only [snapshot, List.mem_map, Prod.exists, exists_and_right, exists_eq_right,
    Table.mem_visit, Tracked, Option.isSome_iff_exists]

/-- A snapshot of a consistent topology is within the limits of a restore. -/
theorem Consistent.length_snapshot_le (h : t.Consistent) (it : Iteration C) :
    (t.snapshot it).nodes.length ≤ maxLiveNodes ∧ (t.snapshot it).links.length ≤ maxLiveLinks := by
  constructor
  · rw [snapshot, List.length_map, Table.visit, (it.perm _).length_eq, Table.pairs, List.length_map]
    exact h.nodes_le
  · exact (List.length_filterMap_le _ _).trans h.links_le

/-! ## Restoring -/

/-- A vertex has one node. -/
theorem Coherent.lookup_inj (h : t.Coherent) {m n : UInt32} {idx : C.graph.NodeIx}
    (hm : t.nodeIndex.lookup m = some idx) (hn : t.nodeIndex.lookup n = some idx) : m = n := by
  rw [h.indexed] at hm hn
  exact Option.some.inj (hm.symm.trans hn)

/-- A node for which there is room. -/
theorem Coherent.addNode_of_room (h : t.Coherent) (it : Iteration C) (node : UInt32)
    (hroom : t.nodeIndex.size < maxLiveNodes) :
    ∃ t', t.addNode it node = some t' ∧ t'.Coherent ∧
      (∀ e, C.graph.edge t'.graph e = C.graph.edge t.graph e) ∧
      (∀ num, t'.Tracked num ↔ num = node ∨ t.Tracked num) ∧
      t'.nodeIndex.size ≤ t.nodeIndex.size + 1 := by
  unfold MeshTopology.addNode MeshTopology.addNodeProtecting Tracked
  cases hnode : t.nodeIndex.lookup node with
  | some idx =>
      refine ⟨t, rfl, h, fun _ => rfl, fun num => ?_, Nat.le_succ _⟩
      refine (or_iff_right_of_imp ?_).symm
      rintro rfl
      rw [hnode]
      rfl
  | none =>
      have hspace : (C.graph.nodeIndices t.graph).length < maxIndex := by
        rw [h.length_nodeIndices]
        exact hroom.trans (by decide)
      obtain ⟨idx, graph, hadd, hfresh, hweight, hedge⟩ := C.graph.addNode_spec t.graph node hspace
      simp only [if_neg (Nat.not_le.mpr hroom), hadd, Option.map_some]
      refine ⟨_, rfl, h.insert hroom hnode hfresh hweight hedge, hedge, fun num => ?_, ?_⟩
      · rw [Table.lookup_insert_ite]
        by_cases hnum : num = node <;> simp [hnum]
      · exact Table.size_insert_le _ _ _

/-- Nodes for which there is room. -/
theorem Coherent.addNodes (it : Iteration C) {nodes : List UInt32} (h : t.Coherent)
    (hroom : t.nodeIndex.size + nodes.length ≤ maxLiveNodes) :
    ∃ t', nodes.foldlM (fun t node => t.addNode it node) t = some t' ∧ t'.Coherent ∧
      (∀ e, C.graph.edge t'.graph e = C.graph.edge t.graph e) ∧
      ∀ num, t'.Tracked num ↔ num ∈ nodes ∨ t.Tracked num := by
  induction nodes generalizing t with
  | nil => exact ⟨t, rfl, h, fun _ => rfl, by simp⟩
  | cons node rest ih =>
      rw [List.length_cons] at hroom
      obtain ⟨t₁, hadd, h₁, hedge₁, htracked₁, hsize₁⟩ := h.addNode_of_room it node (by omega)
      obtain ⟨t₂, hrest, h₂, hedge₂, htracked₂⟩ := ih h₁ (by omega)
      refine ⟨t₂, ?_, h₂, fun e => (hedge₂ e).trans (hedge₁ e), fun num => ?_⟩
      · rw [List.foldlM_cons, hadd]
        exact hrest
      · rw [htracked₂, htracked₁, List.mem_cons]
        tauto

/-- A link between two nodes that are there and have none. -/
theorem Coherent.restoreLink_new (h : t.Coherent) (it : Iteration C) (now : Nat)
    {a b : C.graph.NodeIx} (ha : t.nodeIndex.lookup link.src = some a)
    (hb : t.nodeIndex.lookup link.dst = some b)
    (hnone : ∀ e w, C.graph.edge t.graph e ≠ some (a, b, w))
    (hspace : C.graph.edgeCount t.graph < maxIndex) :
    ∃ t', restoreLink it now t link = some t' ∧ t'.Coherent ∧ t'.nodeIndex = t.nodeIndex ∧
      C.graph.edgeCount t'.graph = C.graph.edgeCount t.graph + 1 ∧
      ∀ link', t'.HasLink link' ↔ link' = link ∨ t.HasLink link' := by
  have hweight : (C.graph.nodeWeight t.graph a).isSome ∧ (C.graph.nodeWeight t.graph b).isSome := by
    simp [(h.indexed _ _).mp ha, (h.indexed _ _).mp hb]
  obtain ⟨e, graph, hadd, hnew, hedge, hnodes⟩ :=
    C.graph.addEdge_spec t.graph a b ⟨link.snr, now, link.packetCount⟩ hweight.1 hweight.2 hspace
  have hhead : (C.graph.edgesConnecting t.graph a b).head? = none := by
    rw [List.head?_eq_none_iff, List.eq_nil_iff_forall_not_mem]
    intro e he
    obtain ⟨w, hw⟩ := (C.graph.mem_edgesConnecting _ _ _ _).mp he
    exact hnone e w hw
  refine ⟨{ t with graph := graph }, ?_, h.addEdge hweight.1 hweight.2 hnone hedge hnodes,
    rfl, ?_, ?_⟩
  · simp [restoreLink, MeshTopology.putLink, MeshTopology.addNodeProtecting, ha, hb, hhead, hadd]
  · refine StableGraph.edgeCount_add_one hnew fun e' => ?_
    rw [hedge]
    by_cases he : e' = e <;> simp [he]
  · intro link'
    constructor
    · rintro ⟨e', a', b', w, hw, ha', hb', hsnr, hcount⟩
      rw [hedge] at hw
      split at hw
      · obtain ⟨rfl, rfl, rfl⟩ :=
          (by simpa using hw : a = a' ∧ b = b' ∧ LinkQuality.mk link.snr now link.packetCount = w)
        exact .inl
          (LinkSnapshot.ext (h.lookup_inj ha' ha) (h.lookup_inj hb' hb) hsnr.symm hcount.symm)
      · exact .inr ⟨e', a', b', w, hw, ha', hb', hsnr, hcount⟩
    · rintro (rfl | ⟨e', a', b', w, hw, hends⟩)
      · exact ⟨e, a, b, _, by rw [hedge, if_pos rfl], ha, hb, rfl, rfl⟩
      · refine ⟨e', a', b', w, ?_, hends⟩
        rw [hedge, if_neg, hw]
        rintro rfl
        rw [hnew] at hw
        cases hw

/-- Links between nodes that are there, each pair listed once and without a link before. -/
theorem Coherent.restoreLinks (it : Iteration C) (now : Nat) {links : List (LinkSnapshot R)}
    (h : t.Coherent) (hends : ∀ link ∈ links, t.Tracked link.src ∧ t.Tracked link.dst)
    (hnodup : (links.map fun link => (link.src, link.dst)).Nodup)
    (hnew : ∀ link ∈ links, ∀ link', t.HasLink link' →
      (link'.src, link'.dst) ≠ (link.src, link.dst))
    (hroom : C.graph.edgeCount t.graph + links.length ≤ maxLiveLinks) :
    ∃ t', links.foldlM (restoreLink it now) t = some t' ∧ t'.nodeIndex = t.nodeIndex ∧
      ∀ link, t'.HasLink link ↔ link ∈ links ∨ t.HasLink link := by
  induction links generalizing t with
  | nil => exact ⟨t, rfl, rfl, by simp⟩
  | cons link rest ih =>
      rw [List.length_cons] at hroom
      rw [List.map_cons, List.nodup_cons] at hnodup
      obtain ⟨hsrc, hdst⟩ := hends link List.mem_cons_self
      obtain ⟨a, ha⟩ := Option.isSome_iff_exists.mp hsrc
      obtain ⟨b, hb⟩ := Option.isSome_iff_exists.mp hdst
      have hnone : ∀ e w, C.graph.edge t.graph e ≠ some (a, b, w) := fun e w hw =>
        hnew link List.mem_cons_self ⟨link.src, link.dst, w.snr, w.packetCount⟩
          ⟨e, a, b, w, hw, ha, hb, rfl, rfl⟩ rfl
      have hspace : C.graph.edgeCount t.graph < maxIndex :=
        Nat.lt_of_le_of_lt (show _ ≤ maxLiveLinks by omega) (by decide)
      obtain ⟨t₁, hput, h₁, hindex₁, hcount₁, hlinks₁⟩ :=
        h.restoreLink_new it now ha hb hnone hspace
      obtain ⟨t₂, hrest, hindex₂, hlinks₂⟩ := ih h₁
        (fun l hl => by
          simp only [Tracked, hindex₁]
          exact hends l (List.mem_cons_of_mem link hl))
        hnodup.2
        (fun l hl l' hl' => by
          obtain rfl | hl' := (hlinks₁ l').mp hl'
          · exact fun heq => hnodup.1 (heq ▸ List.mem_map_of_mem hl)
          · exact hnew l (List.mem_cons_of_mem link hl) l' hl')
        (by omega)
      refine ⟨t₂, ?_, hindex₂.trans hindex₁, fun l => ?_⟩
      · rw [List.foldlM_cons, hput]
        exact hrest
      · rw [hlinks₂, hlinks₁, List.mem_cons]
        tauto

/-- The same nodes, and the same links with equal SNR and packet count. -/
def Same (t t' : MeshTopology C) : Prop :=
  (∀ num, t.Tracked num ↔ t'.Tracked num) ∧ ∀ link, t.HasLink link ↔ t'.HasLink link

/-- **Round trip**: what was saved is what is restored, if the text can be read. -/
theorem Consistent.loadFromBytes_snapshot (h : t.Consistent) (it it' : Iteration C) (now : Nat)
    {data : Bytes} (hdata : C.fromSlice data = some (t.snapshot it)) :
    ∃ t', loadFromBytes it' data now = some (some t') ∧ t'.Same t := by
  obtain ⟨hnodesLe, hlinksLe⟩ := h.length_snapshot_le it
  obtain ⟨t₁, hnodes, h₁, hedge₁, htracked₁⟩ :=
    consistent_new.toCoherent.addNodes it' (show _ + (t.snapshot it).nodes.length ≤ _ by
      simpa [new, Table.size] using hnodesLe)
  have htracked : ∀ num, t₁.Tracked num ↔ t.Tracked num := fun num => by
    rw [htracked₁, mem_nodes_snapshot]
    simp [Tracked, new]
  have hedges : ∀ e, C.graph.edge t₁.graph e = none :=
    fun e => (hedge₁ e).trans (C.graph.edge_empty e)
  have hbare : ∀ link, ¬t₁.HasLink link := fun link hlink => by
    obtain ⟨e, a, b, w, hw, -⟩ := hlink
    rw [hedges] at hw
    cases hw
  have hcount : C.graph.edgeCount t₁.graph = 0 :=
    (StableGraph.edgeCount_eq fun e => by rw [hedge₁]).trans edgeCount_new
  have hends : ∀ link ∈ (t.snapshot it).links, t₁.Tracked link.src ∧ t₁.Tracked link.dst := by
    intro link hlink
    obtain ⟨e, a, b, w, -, hsrc, hdst, -⟩ := (h.toCoherent.mem_links_snapshot it).mp hlink
    rw [htracked, htracked]
    simp [Tracked, hsrc, hdst]
  obtain ⟨t₂, hlinks, hindex₂, hlinks₂⟩ := h₁.restoreLinks it' now hends
    (h.toCoherent.nodup_links_snapshot it) (fun _ _ l hl => absurd hl (hbare l)) (by omega)
  refine ⟨t₂, ?_, fun num => ?_, fun link => ?_⟩
  · simp only [loadFromBytes, hdata, List.take_of_length_le hnodesLe,
      List.take_of_length_le hlinksLe, hnodes, hlinks, Option.bind_eq_bind, Option.bind_some]
  · rw [← htracked, Tracked, Tracked, hindex₂]
  · rw [hlinks₂, h.toCoherent.mem_links_snapshot, or_iff_left (hbare link)]

/-! ## Numbers -/

/-- Every link has a finite SNR. -/
def FiniteLinks (t : MeshTopology C) : Prop :=
  ∀ e a b w, C.graph.edge t.graph e = some (a, b, w) → C.isFinite w.snr

theorem Coherent.finiteLinks_iff (h : t.Coherent) (it : Iteration C) :
    t.FiniteLinks ↔ ∀ link ∈ (t.snapshot it).links, C.isFinite link.snr := by
  constructor
  · intro hfinite link hlink
    obtain ⟨e, a, b, w, hw, -, -, hsnr, -⟩ := (h.mem_links_snapshot it).mp hlink
    exact hsnr ▸ hfinite e a b w hw
  · intro hfinite e a b w hw
    obtain ⟨ha, hb⟩ := h.ends e a b w hw
    obtain ⟨src, hsrc⟩ := Option.isSome_iff_exists.mp ha
    obtain ⟨dst, hdst⟩ := Option.isSome_iff_exists.mp hb
    exact hfinite ⟨src, dst, w.snr, w.packetCount⟩ ((h.mem_links_snapshot it).mpr
      ⟨e, a, b, w, hw, (h.indexed src a).mpr hsrc, (h.indexed dst b).mpr hdst, rfl, rfl⟩)

/-- **Read back**: a consistent topology survives a save and a load exactly if its numbers do. -/
theorem Consistent.roundTrip_iff (h : t.Consistent) (J : TopologyJson C) (it it' : Iteration C)
    (now : Nat) :
    (∃ t', loadFromBytes it' (t.saveToBytes J it) now = some (some t') ∧ t'.Same t) ↔
      t.FiniteLinks := by
  rw [h.toCoherent.finiteLinks_iff it]
  constructor
  · intro hloads
    by_contra hfinite
    simp only [not_forall, Bool.not_eq_true] at hfinite
    obtain ⟨link, hlink, hsnr⟩ := hfinite
    obtain ⟨t', hload, -⟩ := hloads
    simp [loadFromBytes, saveToBytes, J.null _ ⟨link, hlink, hsnr⟩] at hload
  · intro hfinite
    exact h.loadFromBytes_snapshot it it' now (J.finite _ hfinite)

theorem finiteLinks_new : (new : MeshTopology C).FiniteLinks := fun e a b w hw => by
  simp [new, C.graph.edge_empty] at hw

theorem FiniteLinks.of_subLinks (h : t.FiniteLinks) (hsub : t'.SubLinks t) : t'.FiniteLinks :=
  fun e a b w hw => h e a b w (hsub e _ hw)

theorem FiniteLinks.putLink (h : t.FiniteLinks) (hcoherent : t.Coherent)
    (hlinks : C.graph.edgeCount t.graph ≤ maxLiveLinks) {it : Iteration C} {src dst : UInt32}
    {refresh : LinkQuality R → LinkQuality R} {fresh : LinkQuality R} {evicts : Bool}
    (hrefresh : ∀ w, C.isFinite (refresh w).snr) (hfresh : C.isFinite fresh.snr)
    (hput : t.putLink it src dst refresh fresh evicts = some t') : t'.FiniteLinks := by
  obtain ⟨t₁, hput₁, -, -, -, -, w, hw, hedges⟩ :=
    hcoherent.putLink hlinks it src dst refresh fresh evicts
  obtain rfl := Option.some.inj (hput₁.symm.trans hput)
  have hfinite : C.isFinite w.snr := by
    obtain rfl | ⟨w₀, rfl⟩ := hw
    · exact hfresh
    · exact hrefresh w₀
  intro e a b w' he
  obtain hold | rfl := hedges e a b w' he
  · exact h e a b w' hold
  · exact hfinite

theorem subLinks_removeStaleNodes (t : MeshTopology C) (it : Iteration C) (timeout now : Nat) :
    (t.removeStaleNodes it timeout now).SubLinks t := by
  unfold removeStaleNodes
  split
  · exact fun _ _ hx => hx
  · refine List.foldlRecOn (motive := fun t' : MeshTopology C => t'.SubLinks t) _ _
      (fun _ _ hx => hx)
      fun t' h num _ => ?_
    split
    · exact fun e x hx => h e x (subLinks_removeNode t' num _ e x hx)
    · exact h

theorem subLinks_removeStaleLinks (t : MeshTopology C) (timeout now : Nat) :
    (t.removeStaleLinks timeout now).SubLinks t := by
  unfold removeStaleLinks
  split
  · exact fun _ _ hx => hx
  · refine List.foldlRecOn (motive := fun graph => SubLinks { t with graph := graph } t) _ _
      (fun _ _ hx => hx) fun graph h e _ => ?_
    exact fun e' x hx => h e' x (subLinks_removeEdge { t with graph := graph } e e' x hx)

/-- The links that are restored have finite SNRs. -/
theorem FiniteLinks.restoreLinks {it : Iteration C} {now : Nat} {links : List (LinkSnapshot R)}
    (h : t.FiniteLinks) (hcoherent : t.Coherent)
    (hroom : C.graph.edgeCount t.graph + links.length ≤ maxLiveLinks)
    (hfinite : ∀ link ∈ links, C.isFinite link.snr)
    (hrun : links.foldlM (restoreLink it now) t = some t') : t'.FiniteLinks := by
  induction links generalizing t with
  | nil =>
      obtain rfl := Option.some.inj hrun
      exact h
  | cons link rest ih =>
      rw [List.length_cons] at hroom
      rw [List.foldlM_cons] at hrun
      obtain ⟨t₁, hput, hrest⟩ := Option.bind_eq_some_iff.mp hrun
      obtain ⟨t₂, hput₂, h₂, -, hcount₂, -⟩ :=
        hcoherent.putLink (by omega) it link.src link.dst _ _ false
      obtain rfl := Option.some.inj (hput₂.symm.trans hput)
      have hlink := hfinite link List.mem_cons_self
      exact ih (h.putLink hcoherent (by omega) (fun _ => hlink) hlink hput) h₂ (by omega)
        (fun l hl => hfinite l (List.mem_cons_of_mem link hl)) hrest

/-- The links that a load restores have finite SNRs. -/
def TopologyCall.LoadsFinite (call : TopologyCall C) : Prop :=
  ∀ data s, call.op = .load data → C.fromSlice data = some s →
    ∀ link ∈ s.links.take maxLiveLinks, C.isFinite link.snr

theorem finiteLinks_loadFromBytes {it : Iteration C} {data : Bytes} {now : Nat}
    (hload : loadFromBytes it data now = some (some t))
    (hfinite : ∀ s, C.fromSlice data = some s →
      ∀ link ∈ s.links.take maxLiveLinks, C.isFinite link.snr) :
    t.FiniteLinks := by
  unfold loadFromBytes at hload
  cases hs : C.fromSlice data with
  | none => simp [hs] at hload
  | some s =>
      simp only [hs] at hload
      obtain ⟨t₁, hnodes, hload⟩ := Option.bind_eq_some_iff.mp hload
      obtain ⟨t₂, hlinks, heq⟩ := Option.bind_eq_some_iff.mp hload
      obtain rfl := Option.some.inj (Option.some.inj heq)
      -- Nodes bring no links.
      have h₁ : t₁.Coherent ∧ t₁.SubLinks new := by
        refine Machine.run_preserves (I := fun t => t.Coherent ∧ t.SubLinks new)
          (fun t node t' ht hadd => ?_)
          ⟨consistent_new.toCoherent, fun _ _ hx => hx⟩ hnodes
        obtain ⟨t'', hadd', h'', hsub⟩ := ht.1.addNode it node
        obtain rfl := Option.some.inj (hadd'.symm.trans hadd)
        exact ⟨h'', fun e x hx => ht.2 e x (hsub e x hx)⟩
      have hcount := h₁.2.edgeCount_le
      rw [edgeCount_new] at hcount
      refine (finiteLinks_new.of_subLinks h₁.2).restoreLinks h₁.1 ?_ (hfinite s hs) hlinks
      have hlen := List.length_take_le maxLiveLinks s.links
      omega

/-- A load of a text that is read. -/
theorem step_load {data : Bytes} {s : TopologySnapshot R} (hdata : C.fromSlice data = some s)
    (t : MeshTopology C) (it : Iteration C) (now : Nat) :
    t.step ⟨now, it, .load data⟩ =
      ((s.nodes.take maxLiveNodes).foldlM (fun (t : MeshTopology C) node => t.addNode it node)
        new).bind
        fun t => (s.links.take maxLiveLinks).foldlM (restoreLink it now) t := by
  simp only [step, loadFromBytes, hdata, Option.bind_eq_bind, Option.map_bind]
  simp

/-- **Step**: no call but a load can bring a number that is not finite. -/
theorem FiniteLinks.step (h : t.FiniteLinks) (hconsistent : t.Consistent) {call : TopologyCall C}
    (hcall : call.LoadsFinite) (hstep : t.step call = some t') : t'.FiniteLinks := by
  obtain ⟨now, it, op⟩ := call
  cases op with
  | addNode node =>
      obtain ⟨t₁, hadd, -, hsub⟩ := hconsistent.toCoherent.addNode it node
      obtain rfl := Option.some.inj (hadd.symm.trans hstep)
      exact h.of_subLinks hsub
  | updateLink src dst snr =>
      simp only [MeshTopology.step, updateLink] at hstep
      split at hstep
      · obtain rfl := Option.some.inj hstep
        exact h
      · next hfinite =>
        have hfinite : C.isFinite snr = true := by simpa using hfinite
        exact h.putLink hconsistent.toCoherent hconsistent.links_le (fun _ => hfinite) hfinite hstep
  | removeStaleNodes timeout =>
      obtain rfl := Option.some.inj hstep
      exact h.of_subLinks (subLinks_removeStaleNodes t it timeout now)
  | removeStaleLinks timeout =>
      obtain rfl := Option.some.inj hstep
      exact h.of_subLinks (subLinks_removeStaleLinks t timeout now)
  | load data =>
      obtain ⟨r, hload, rfl⟩ := Option.map_eq_some_iff.mp hstep
      cases r with
      | none => exact h
      | some t₁ => exact finiteLinks_loadFromBytes hload fun s hs => hcall data s rfl hs

/-- **Round trips.**  A topology reached by any calls survives a save and a load, with the same
nodes and the same links, exactly if all its SNRs are finite; and they are if every snapshot
loaded on the way has finite SNRs only. -/
theorem roundTrips_iff (J : TopologyJson C) (calls : List (TopologyCall C)) (t : MeshTopology C)
    (hrun : Machine.run step new calls = some t) :
    (∀ it it' now, (∃ t', loadFromBytes it' (t.saveToBytes J it) now = some (some t') ∧ t'.Same t) ↔
      t.FiniteLinks) ∧
    (Machine.Meets step (fun _ call => call.LoadsFinite) new calls → t.FiniteLinks) := by
  have hsteps : ∀ (t : MeshTopology C) call t', t.Consistent → t.step call = some t' →
      t'.Consistent := by
    intro t call t' h hstep
    obtain ⟨t₁, hstep₁, h₁, -⟩ := h.step call
    obtain rfl := Option.some.inj (hstep₁.symm.trans hstep)
    exact h₁
  have hconsistent : t.Consistent := Machine.run_preserves hsteps consistent_new hrun
  refine ⟨fun it it' now => hconsistent.roundTrip_iff J it it' now, fun hmeets => ?_⟩
  exact (Machine.run_invariant (I := fun t : MeshTopology C => t.Consistent ∧ t.FiniteLinks)
    (fun t call t' h hcall hstep => ⟨hsteps t call t' h.1 hstep, h.2.step h.1 hcall hstep⟩)
    ⟨consistent_new, finiteLinks_new⟩ hmeets hrun).2

/-! ## A number beyond the range -/

/-- Snapshots, with SNRs that are numbers or infinite, can be numbered. -/
instance snapshotCode : Encodable (TopologySnapshot (Option Nat)) :=
  Encodable.ofLeftInjection
    (fun s => (s.nodes.map UInt32.toNat,
      s.links.map fun link => (link.src.toNat, link.dst.toNat, link.snr, link.packetCount)))
    (fun x => some ⟨x.1.map UInt32.ofNat,
      x.2.map fun y => ⟨UInt32.ofNat y.1, UInt32.ofNat y.2.1, y.2.2.1, y.2.2.2⟩⟩)
    fun s => by simp [Function.comp_def]

/-- A text from which a snapshot is read. -/
def textOf (s : TopologySnapshot (Option Nat)) : Bytes := 0 :: List.replicate (Encodable.encode s) 0

/-- A reader of these texts. -/
def textCrates : TopologyCrates (Option Nat) where
  graph := tableGraph UInt32 (LinkQuality (Option Nat))
  isFinite := Option.isSome
  fromSlice
    | 0 :: rest => Encodable.decode rest.length
    | _ => none

theorem fromSlice_textOf (s : TopologySnapshot (Option Nat)) :
    textCrates.fromSlice (textOf s) = some s := by
  simp [textCrates, textOf]

/-- A writer that has `null` for an infinite SNR. -/
def textJson : TopologyJson textCrates where
  toVec s := if s.links.all fun link => textCrates.isFinite link.snr then textOf s else [1]
  finite s h := by rw [if_pos (List.all_eq_true.mpr h), fromSlice_textOf]
  null s h := by
    obtain ⟨link, hlink, hsnr⟩ := h
    rw [if_neg fun hall => Bool.false_ne_true
      (hsnr.symm.trans (List.all_eq_true.mp hall link hlink))]
    rfl

/-- One link was observed. -/
def observed : List (TopologyCall textCrates) :=
  [⟨0, ⟨id, fun _ => .refl _⟩, .updateLink 1 2 (some 5)⟩]

theorem roundTrips_iff_observed :
    ∃ t t', Machine.run step (new : MeshTopology textCrates) observed = some t ∧
      loadFromBytes ⟨id, fun _ => .refl _⟩ (t.saveToBytes textJson ⟨id, fun _ => .refl _⟩) 1 =
        some (some t') ∧
      t'.Same t := by
  obtain ⟨t, hrun, -⟩ := run_consistent (C := textCrates) observed
  obtain ⟨hiff, hfinite⟩ := roundTrips_iff textJson observed t hrun
  have hmeets : Machine.Meets step (fun _ call => call.LoadsFinite) new observed :=
    ⟨fun data s hop => (by cases hop), fun _ _ => trivial⟩
  obtain ⟨t', hload, hsame⟩ :=
    (hiff ⟨id, fun _ => .refl _⟩ ⟨id, fun _ => .refl _⟩ 1).mpr (hfinite hmeets)
  exact ⟨t, t', hrun, hload, hsame⟩

/-- A snapshot with a number beyond the range. -/
def beyondRange : TopologySnapshot (Option Nat) := ⟨[1, 2], [⟨1, 2, none, 1⟩]⟩

/-- It is loaded, and what is saved then is not. -/
theorem beyondRange_not_read_back :
    ∃ t, Machine.run step (new : MeshTopology textCrates)
        [⟨0, ⟨id, fun _ => .refl _⟩, .load (textOf beyondRange)⟩] = some t ∧
      ∀ (it it' : Iteration textCrates) now, loadFromBytes it' (t.saveToBytes textJson it) now =
        some none := by
  have hview : (Machine.run step (new : MeshTopology textCrates)
      [⟨0, ⟨id, fun _ => .refl _⟩, .load (textOf beyondRange)⟩]).map (fun t =>
        (t.snapshot ⟨id, fun _ => .refl _⟩).links.map LinkSnapshot.snr) = some [none] := by
    rw [Machine.run_cons, step_load (fromSlice_textOf beyondRange)]
    decide +kernel
  obtain ⟨t, hrun, hlinks⟩ := Option.map_eq_some_iff.mp hview
  refine ⟨t, hrun, fun it it' now => ?_⟩
  have hmem : none ∈ (t.snapshot it).links.map LinkSnapshot.snr :=
    hlinks ▸ List.mem_singleton_self none
  obtain ⟨link, hlink, hsnr⟩ := List.mem_map.mp hmem
  rw [loadFromBytes, saveToBytes, textJson.null _ ⟨link, hlink, by rw [hsnr]; rfl⟩]

end MeshTopology

end Akroasis.Mesh
