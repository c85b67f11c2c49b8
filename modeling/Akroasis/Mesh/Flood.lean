import Akroasis.Mesh.Merge

/-!
# Akroasis.Mesh.Flood

How the node database stands a flood of new numbers (`insert` and `evict_stalest` of
`node_db.rs`).

A full table evicts the node heard least recently, the own one apart.  Times are compared in
whole milliseconds (`MeshNode.heard`), so the argument needs that they differ in them: then
everything in the table that is not older than a node was inserted after it (`Since`), and the
node is evicted only once that is all there is, which takes almost a table full of other
numbers (`flood_resistance`).  Among nodes heard in one millisecond the order of the hash map
decides, and it can be the last of them that goes (`flood_evicts_recent`).
-/

namespace Akroasis.Mesh

variable {J : Timestamps}

/-- When a node was heard, as an eviction compares it: `i64::MIN` if it never was. -/
def MeshNode.heard (node : MeshNode J) : ℤ := (node.lastHeard.map J.asMillisecond).getD (-2 ^ 63)

namespace NodeDb

variable {db : NodeDb J} {it : Table.Iteration UInt32 (MeshNode J)} {node : MeshNode J}
  {later : Finset UInt32} {its : Nat → Table.Iteration UInt32 (MeshNode J)}
  {nodes : List (MeshNode J)}

/-! ## Evictions -/

/-- `min_by_key` over the nodes that are not the own one. -/
theorem evictStalest_eq (db : NodeDb J) (it : Table.Iteration UInt32 (MeshNode J)) :
    db.evictStalest it =
      (((db.nodes.visit it).filter fun p => decide (some p.1 ≠ db.myNode)).foldl
        (List.argAux fun p q => p.2.heard < q.2.heard) none).elim db
        fun p => { db with nodes := db.nodes.erase p.1 } := by
  unfold evictStalest
  dsimp only
  split
  · next num node hfound =>
    have hfold :
      List.foldl (List.argAux fun p q : UInt32 × MeshNode J => p.2.heard < q.2.heard) none _ =
      some (num, node) := hfound
    rw [hfold, Option.elim_some]
  · next hfound =>
    have hfold :
      List.foldl (List.argAux fun p q : UInt32 × MeshNode J => p.2.heard < q.2.heard) none _ =
      none := hfound
    rw [hfold, Option.elim_none]

/-- A stalest node that is not the own one goes, unless there is none but the own one. -/
theorem evictStalest_cases (db : NodeDb J) (it : Table.Iteration UInt32 (MeshNode J)) :
    (∃ victim old, db.get victim = some old ∧ some victim ≠ db.myNode ∧
      (∀ num other, db.get num = some other → some num ≠ db.myNode → old.heard ≤ other.heard) ∧
      db.evictStalest it = { db with nodes := db.nodes.erase victim }) ∨
    (∀ num other, db.get num = some other → some num = db.myNode) ∧ db.evictStalest it = db := by
  have hevict := db.evictStalest_eq it
  set candidates := (db.nodes.visit it).filter fun p =>
    decide (some p.1 ≠ db.myNode) with hcandidates
  have hmem : ∀ num other, (num, other) ∈ candidates ↔ db.get num = some other ∧
      some num ≠ db.myNode :=
    fun num other => by rw [hcandidates, List.mem_filter, Table.mem_visit, decide_eq_true_eq]; rfl
  rw [show candidates.foldl _ none = candidates.argmin fun p => p.2.heard from rfl] at hevict
  cases hvictim : candidates.argmin fun p => p.2.heard with
  | none =>
      rw [hvictim, Option.elim_none] at hevict
      refine .inr ⟨fun num other hget => ?_, hevict⟩
      by_contra hnum
      have hin := (hmem num other).mpr ⟨hget, hnum⟩
      rw [List.argmin_eq_none.mp hvictim] at hin
      cases hin
  | some p =>
      rw [hvictim, Option.elim_some] at hevict
      obtain ⟨hget, hnum⟩ := (hmem p.1 p.2).mp (List.argmin_mem hvictim)
      refine .inl ⟨p.1, p.2, hget, hnum, fun num other hother hown => ?_, hevict⟩
      exact List.le_of_mem_argmin (f := fun p : UInt32 × MeshNode J => p.2.heard)
        ((hmem num other).mpr ⟨hother, hown⟩) hvictim

/-- A full table has a node that is not the own one. -/
theorem exists_other (hfull : maxLiveNodes ≤ db.nodes.size) :
    ∃ num other, db.get num = some other ∧ some num ≠ db.myNode := by
  by_contra hall
  simp only [not_exists, not_and, not_not] at hall
  have hsub : db.nodes.keys ⊆ db.myNode.toList := fun num hnum => by
    obtain ⟨other, hother⟩ := (Table.mem_keys_iff _ _).mp hnum
    exact Option.mem_toList.mpr (hall num other hother).symm
  have hle := (db.nodes.keys_nodup.subperm hsub).length_le
  rw [Table.length_keys] at hle
  have hone : db.myNode.toList.length ≤ 1 := by cases db.myNode <;> simp
  exact absurd (hfull.trans (hle.trans hone)) (by decide)

/-- **Insert**: a record takes its place, or room that is there, or the room of a stalest node. -/
theorem insert_cases (db : NodeDb J) (it : Table.Iteration UInt32 (MeshNode J))
    (node : MeshNode J) :
    (((db.get node.num).isSome ∨ db.nodes.size < maxLiveNodes) ∧
      db.insert it node = { db with nodes := db.nodes.insert node.num node }) ∨
    ∃ victim old, db.get node.num = none ∧ maxLiveNodes ≤ db.nodes.size ∧ db.get victim = some old ∧
      some victim ≠ db.myNode ∧
      (∀ num other, db.get num = some other → some num ≠ db.myNode → old.heard ≤ other.heard) ∧
      db.insert it node = { db with nodes := (db.nodes.erase victim).insert node.num node } := by
  by_cases hroom : (db.get node.num).isSome ∨ db.nodes.size < maxLiveNodes
  · exact .inl ⟨hroom, insert_of_room hroom⟩
  obtain ⟨hnew, hfull⟩ := not_or.mp hroom
  have hnone : db.get node.num = none := by simpa using hnew
  obtain ⟨victim, old, hget, hown, hstalest, hevict⟩ | ⟨hall, -⟩ := db.evictStalest_cases it
  · refine .inr ⟨victim, old, hnone, Nat.le_of_not_lt hfull, hget, hown, hstalest, ?_⟩
    have hevicts : ((db.get node.num).isNone && decide (maxLiveNodes ≤ db.nodes.size)) = true := by
      simpa [hnone] using hfull
    rw [insert, if_pos hevicts, hevict]
  · obtain ⟨num, other, hget, hnum⟩ := exists_other (Nat.le_of_not_lt hfull)
    exact absurd (hall num other hget) hnum

/-- The table stays within its bound. -/
theorem size_insert_le (h : db.nodes.size ≤ maxLiveNodes) :
    (db.insert it node).nodes.size ≤ maxLiveNodes := by
  obtain ⟨hroom, heq⟩ | ⟨victim, old, -, -, hget, -, -, heq⟩ := db.insert_cases it node
  · rw [heq]
    have hgrow := Table.size_insert_le db.nodes node.num node
    obtain hsome | hroom := hroom
    · obtain ⟨stored, hstored⟩ := Option.isSome_iff_exists.mp hsome
      have herase := Table.size_erase_add hstored
      change Table.size (db.nodes.insert node.num node) ≤ _
      rw [Table.size_insert]
      omega
    · exact hgrow.trans hroom
  · rw [heq]
    have herase := Table.size_erase_add hget
    exact (Table.size_insert_le _ _ _).trans (by omega)

/-- The own node stays. -/
theorem isSome_get_insert_own {own : UInt32} (hown : db.myNode = some own)
    (hsome : (db.get own).isSome) :
    ((db.insert it node).get own).isSome := by
  obtain ⟨-, heq⟩ | ⟨victim, old, -, -, -, hvictim, -, heq⟩ := db.insert_cases it node
  · rw [heq, get, Table.lookup_insert_ite]
    split
    · rfl
    · exact hsome
  · rw [heq, get, Table.lookup_insert_ite, Table.lookup_erase_ite,
      if_neg fun (h : own = victim) => hvictim (h ▸ hown.symm)]
    split
    · rfl
    · exact hsome

/-! ## What was inserted since -/

/-- A node that is stored, in a table where everything not older was inserted `later`. -/
structure Since (db : NodeDb J) (node : MeshNode J) (later : Finset UInt32) : Prop where
  size : db.nodes.size ≤ maxLiveNodes
  stored : db.get node.num = some node
  older : ∀ num other, db.get num = some other → num ≠ node.num →
    other.heard < node.heard ∨ num ∈ later

/-- A node heard after all others. -/
theorem since_insert (hsize : db.nodes.size ≤ maxLiveNodes)
    (holder : ∀ num other, db.get num = some other → other.heard < node.heard) :
    (db.insert it node).Since node ∅ where
  size := size_insert_le hsize
  stored := get_insert_self db it node
  older num other hother hnum := by
    obtain ⟨heq, -⟩ | ⟨-, hold⟩ := get_insert_some hother
    · exact absurd heq hnum
    · exact .inl (holder num other hold)

/-- If a node is the stalest, all but the own one were inserted later. -/
theorem Since.size_le (h : db.Since node later) {new : UInt32}
    (hnew : db.get new = none)
    (hstalest : ∀ num other, db.get num = some other → some num ≠ db.myNode →
      node.heard ≤ other.heard) :
    db.nodes.size ≤ (Insert.insert new later).card + 1 := by
  have hsub :
      db.nodes.keys.toFinset ⊆ Insert.insert node.num (db.myNode.toFinset ∪ later.erase new) := by
    intro num hnum
    obtain ⟨other, hother⟩ := (Table.mem_keys_iff _ _).mp (List.mem_toFinset.mp hnum)
    rw [Finset.mem_insert, Finset.mem_union, Finset.mem_erase, Option.mem_toFinset]
    by_cases hself : num = node.num
    · exact .inl hself
    by_cases hown : db.myNode = some num
    · exact .inr (.inl hown)
    have hle := hstalest num other hother (Ne.symm hown)
    refine .inr (.inr ⟨?_, (h.older num other hother hself).resolve_left (not_lt.mpr hle)⟩)
    rintro rfl
    exact Option.some_ne_none other (hother.symm.trans hnew)
  have hcard := Finset.card_le_card hsub
  rw [List.toFinset_card_of_nodup db.nodes.keys_nodup, Table.length_keys] at hcard
  have hself := Finset.card_insert_le node.num (db.myNode.toFinset ∪ later.erase new)
  have hunion := Finset.card_union_le db.myNode.toFinset (later.erase new)
  have hone : db.myNode.toFinset.card ≤ 1 := by cases db.myNode <;> simp
  have hlater : (Insert.insert new later).card = (later.erase new).card + 1 := by
    rw [← Finset.erase_insert_eq_erase,
      Finset.card_erase_add_one (Finset.mem_insert_self new later)]
  omega

/-- **Step**: another number leaves a node in place while few were inserted later. -/
theorem Since.insert (h : db.Since node later) (it : Table.Iteration UInt32 (MeshNode J))
    {new : MeshNode J} (hother : new.num ≠ node.num)
    (hfew : (Insert.insert new.num later).card + 1 < maxLiveNodes) :
    (db.insert it new).Since node (Insert.insert new.num later) where
  size := size_insert_le h.size
  stored := by
    obtain ⟨-, heq⟩ | ⟨victim, old, hnew, hfull, hget, -, hstalest, heq⟩ := db.insert_cases it new
    · rw [heq, get, Table.lookup_insert_ite, if_neg hother.symm]
      exact h.stored
    · have hvictim : node.num ≠ victim := by
        rintro rfl
        obtain rfl := Option.some.inj (h.stored.symm.trans hget)
        exact absurd (hfull.trans (h.size_le hnew hstalest)) (not_le.mpr hfew)
      rw [heq, get, Table.lookup_insert_ite, if_neg hother.symm, Table.lookup_erase_ite,
        if_neg hvictim]
      exact h.stored
  older num other hget hnum := by
    obtain ⟨rfl, -⟩ | ⟨-, hold⟩ := get_insert_some hget
    · exact .inr (Finset.mem_insert_self _ _)
    · exact (h.older num other hold hnum).imp_right (Finset.mem_insert_of_mem)

/-- **Run**: a node stays while few other numbers follow it. -/
theorem Since.get_insertAll
    (h : db.Since node later) (hother : ∀ n ∈ nodes, n.num ≠ node.num)
    (hfew : (later ∪ (nodes.map MeshNode.num).toFinset).card + 1 < maxLiveNodes) :
    (db.insertAll its nodes).get node.num = some node := by
  induction nodes generalizing db its later with
  | nil => exact h.stored
  | cons new rest ih =>
      rw [List.map_cons, List.toFinset_cons, Finset.union_insert, ← Finset.insert_union] at hfew
      have hsub : Insert.insert new.num later ⊆ Insert.insert new.num later ∪
          (rest.map MeshNode.num).toFinset :=
        Finset.subset_union_left
      have hle := Finset.card_le_card hsub
      exact ih (h.insert (its 0) (hother new List.mem_cons_self) (by omega))
        (fun n hn => hother n (List.mem_cons_of_mem new hn)) hfew

theorem size_insertAll_le
    (h : db.nodes.size ≤ maxLiveNodes) : (db.insertAll its nodes).nodes.size ≤ maxLiveNodes := by
  induction nodes generalizing db its with
  | nil => exact h
  | cons node rest ih => exact ih (size_insert_le h)

theorem isSome_get_insertAll_own
    {own : UInt32} (hown : db.myNode = some own) (hsome : (db.get own).isSome) :
    ((db.insertAll its nodes).get own).isSome := by
  induction nodes generalizing db its with
  | nil => exact hsome
  | cons node rest ih =>
      exact ih ((myNode_insert db (its 0) node).trans hown) (isSome_get_insert_own hown hsome)

/-- A record that is found was there before or has been inserted. -/
theorem get_insertAll_some
    {num : UInt32} {other : MeshNode J} (h : (db.insertAll its nodes).get num = some other) :
    other ∈ nodes ∧ other.num = num ∨ db.get num = some other := by
  induction nodes generalizing db its with
  | nil => exact .inr h
  | cons node rest ih =>
      obtain ⟨hrest, hnum⟩ | hget := ih h
      · exact .inl ⟨List.mem_cons_of_mem node hrest, hnum⟩
      · obtain ⟨rfl, rfl⟩ | ⟨-, hold⟩ := get_insert_some hget
        · exact .inl ⟨List.mem_cons_self, rfl⟩
        · exact .inr hold

/-- **Flood.**  A table within its bound stays within it, and its own node, once inserted, is never
evicted.  If the times of the records increase strictly in whole milliseconds, and the table holds
older records only, then a node is there, with its last record, as long as fewer than
`MAX_LIVE_NODES - 2` other numbers were inserted after it. -/
theorem flood_resistance (db : NodeDb J) (its : Nat → Table.Iteration UInt32 (MeshNode J))
    (nodes : List (MeshNode J)) (hsize : db.nodes.size ≤ maxLiveNodes) :
    (db.insertAll its nodes).nodes.size ≤ maxLiveNodes ∧
    (∀ own pre node post, db.myNode = some own → nodes = pre ++ node :: post → node.num = own →
      ((db.insertAll its nodes).get own).isSome) ∧
    ((∀ num other, db.get num = some other → ∀ node ∈ nodes, other.heard < node.heard) →
      (nodes.map MeshNode.heard).Pairwise (· < ·) →
      ∀ pre node post, nodes = pre ++ node :: post → (∀ n ∈ post, n.num ≠ node.num) →
        (post.map MeshNode.num).toFinset.card < maxLiveNodes - 2 →
        (db.insertAll its nodes).get node.num = some node) := by
  refine ⟨size_insertAll_le hsize, ?_, ?_⟩
  · rintro own pre node post hown rfl rfl
    rw [insertAll_append, insertAll]
    refine isSome_get_insertAll_own (by rw [myNode_insert, myNode_insertAll, hown]) ?_
    rw [get_insert_self]
    rfl
  · rintro holder hincreasing pre node post rfl hlast hfew
    rw [List.map_append, List.map_cons, List.pairwise_append] at hincreasing
    have hbefore : ∀ num other, (db.insertAll its pre).get num = some other →
        other.heard < node.heard := by
      intro num other hget
      obtain ⟨hpre, -⟩ | hstart := get_insertAll_some hget
      · exact hincreasing.2.2 _ (List.mem_map_of_mem hpre) _ List.mem_cons_self
      · exact holder num other hstart node (by simp)
    rw [insertAll_append, insertAll]
    refine (since_insert (size_insertAll_le hsize) hbefore).get_insertAll hlast ?_
    rw [Finset.empty_union]
    omega

/-- Time stamps in nanoseconds. -/
def nanoseconds : Timestamps :=
  ⟨ℤ, fun second => some (second * 1000000000), fun t => Int.tdiv t 1000000⟩

/-- The `i`-th packet arrives, the first four within one millisecond and one in each thereafter. -/
def arrival (i : Nat) : ℤ := if i < 4 then i else i * 1000000

/-- The `i`-th of as many senders. -/
def sender (i : Nat) : MeshNode nanoseconds :=
  { MeshNode.bare (UInt32.ofNat (i + 1)) with lastHeard := some (arrival i) }

/-! ## A full table -/

theorem arrival_lt {i j : Nat} (h : i < j) : arrival i < arrival j := by
  unfold arrival
  split <;> split <;> omega

theorem heard_sender (i : Nat) : (sender i).heard = arrival i / 1000000 := by
  refine Int.tdiv_eq_ediv_of_nonneg (?_ : 0 ≤ arrival i)
  unfold arrival
  split <;> omega

theorem heard_sender_nonneg (i : Nat) : 0 ≤ (sender i).heard := by
  rw [heard_sender]
  unfold arrival
  split <;> omega

/-- From the fifth packet on, each is heard in a millisecond of its own. -/
theorem heard_sender_lt {i j : Nat} (hj : 4 ≤ j) (h : i < j) :
    (sender i).heard < (sender j).heard := by
  rw [heard_sender, heard_sender]
  unfold arrival
  split <;> split <;> omega

theorem num_sender_inj {i j : Nat} (hi : i ≤ maxLiveNodes) (hj : j ≤ maxLiveNodes)
    (h : (sender i).num = (sender j).num) : i = j := by
  have hnat : (UInt32.ofNat (i + 1)).toNat = (UInt32.ofNat (j + 1)).toNat := congrArg UInt32.toNat h
  rw [maxLiveNodes] at hi hj
  simp only [UInt32.toNat_ofNat'] at hnat
  omega

theorem nodup_num_senders {n : Nat} (h : n ≤ maxLiveNodes + 1) :
    (((List.range n).map sender).map MeshNode.num).Nodup := by
  rw [List.map_map]
  refine List.Nodup.map_on (fun i hi j hj heq => ?_) List.nodup_range
  rw [List.mem_range] at hi hj
  exact num_sender_inj (by omega) (by omega) heq

/-- An order in which one number comes first. -/
def firstOf (num : UInt32) : Table.Iteration UInt32 (MeshNode J) where
  order l := l.filter (fun p => decide (p.1 = num)) ++ l.filter fun p => !decide (p.1 = num)
  perm l := List.filter_append_perm _ l

theorem exists_visit_firstOf (h : db.get node.num = some node) :
    ∃ rest, db.nodes.visit (firstOf node.num) = (node.num, node) :: rest := by
  have hmem : ∀ p, p ∈ db.nodes.pairs.filter (fun p => decide (p.1 = node.num)) ↔
      p = (node.num, node) := by
    rintro ⟨num, other⟩
    rw [List.mem_filter, Table.mem_pairs, decide_eq_true_eq, Prod.mk.injEq]
    constructor
    · rintro ⟨hother, rfl⟩
      exact ⟨rfl, (Option.some.inj (h.symm.trans hother)).symm⟩
    · rintro ⟨rfl, rfl⟩
      exact ⟨h, rfl⟩
  cases hfirst : db.nodes.pairs.filter (fun p => decide (p.1 = node.num)) with
  | nil =>
      have hin := (hmem _).mpr rfl
      rw [hfirst] at hin
      cases hin
  | cons p rest =>
      have hp := (hmem p).mp (hfirst ▸ List.mem_cons_self)
      refine ⟨rest ++ db.nodes.pairs.filter fun p => !decide (p.1 = node.num), ?_⟩
      simp only [Table.visit, firstOf, hfirst, hp, List.cons_append]

/-- Of the stalest nodes the first one visited goes. -/
theorem evictStalest_first {rest : List (UInt32 × MeshNode J)}
    (hvisit : db.nodes.visit it = (node.num, node) :: rest) (hown : db.myNode = none)
    (hstalest : ∀ num other, db.get num = some other → node.heard ≤ other.heard) :
    db.evictStalest it = { db with nodes := db.nodes.erase node.num } := by
  have hcandidates : (db.nodes.visit it).filter (fun p => decide (some p.1 ≠ db.myNode)) =
      (node.num, node) :: rest := by
    rw [List.filter_eq_self.mpr (by simp [hown]), hvisit]
  have hfirst : ((node.num, node) :: rest).argmin (fun p => p.2.heard) = some (node.num, node) := by
    rw [List.argmin_cons]
    cases hrest : rest.argmin fun p => p.2.heard with
    | none => rfl
    | some p =>
        have hmem : (p.1, p.2) ∈ db.nodes.visit it :=
          hvisit ▸ List.mem_cons_of_mem _ (List.argmin_mem hrest)
        exact if_neg (not_lt.mpr (hstalest p.1 p.2 (Table.mem_visit.mp hmem)))
  rw [evictStalest_eq, hcandidates,
    show ((node.num, node) :: rest).foldl _ none = some (node.num, node) from hfirst,
    Option.elim_some]

/-- Records under numbers of their own fill the table one by one. -/
theorem size_insertAll_of_nodup
    (hroom : db.nodes.size + nodes.length ≤ maxLiveNodes)
    (hnodup : (nodes.map MeshNode.num).Nodup) (hnew : ∀ n ∈ nodes, db.get n.num = none) :
    (db.insertAll its nodes).nodes.size = db.nodes.size + nodes.length := by
  induction nodes generalizing db its with
  | nil => rfl
  | cons node rest ih =>
      rw [List.length_cons] at hroom
      rw [List.map_cons, List.nodup_cons] at hnodup
      have hspace : (db.get node.num).isSome ∨ db.nodes.size < maxLiveNodes := .inr (by omega)
      have hsize : (db.insert (its 0) node).nodes.size = db.nodes.size + 1 := by
        rw [insert_of_room hspace]
        exact (Table.size_insert _ _ _).trans
          (by rw [Table.erase_of_none (hnew node List.mem_cons_self)])
      rw [insertAll, ih (by omega) hnodup.2, hsize, List.length_cons]
      · omega
      · intro n hn
        rw [get_insert_of_room hspace, if_neg]
        · exact hnew n (List.mem_cons_of_mem node hn)
        · exact fun heq => hnodup.1 (heq ▸ List.mem_map_of_mem hn)

theorem get_insertAll_of_mem
    (hroom : db.nodes.size + nodes.length ≤ maxLiveNodes)
    (hnodup : (nodes.map MeshNode.num).Nodup) (hmem : node ∈ nodes) :
    (db.insertAll its nodes).get node.num = some node := by
  rw [get_insertAll hroom, lastRecord]
  cases hfind : nodes.reverse.find? fun n => n.num = node.num with
  | none =>
      have hnone := List.find?_eq_none.mp hfind node (List.mem_reverse.mpr hmem)
      simp at hnone
  | some other =>
      have hnum : other.num = node.num := by simpa using List.find?_some hfind
      have hother := List.mem_reverse.mp (List.mem_of_find?_eq_some hfind)
      rw [List.inj_on_of_nodup_map hnodup hother hmem hnum]
      rfl

/-- A table filled by a packet from each sender. -/
def crowded : NodeDb nanoseconds :=
  NodeDb.new.insertAll (fun _ => firstOf (sender 3).num) ((List.range maxLiveNodes).map sender)

theorem size_crowded : crowded.nodes.size = maxLiveNodes := by
  have hroom :
      (NodeDb.new : NodeDb nanoseconds).nodes.size + ((List.range maxLiveNodes).map sender).length ≤
      maxLiveNodes := by simp [NodeDb.new, Table.size]
  rw [crowded, size_insertAll_of_nodup hroom (nodup_num_senders (Nat.le_succ _)) (fun _ _ => rfl)]
  simp [NodeDb.new, Table.size]

theorem get_crowded_three : crowded.get (sender 3).num = some (sender 3) := by
  refine get_insertAll_of_mem (by simp [NodeDb.new, Table.size])
    (nodup_num_senders (Nat.le_succ _)) ?_
  exact List.mem_map_of_mem (List.mem_range.mpr (by decide))

theorem get_crowded_some {num : UInt32} {other : MeshNode nanoseconds}
    (h : crowded.get num = some other) :
    ∃ i < maxLiveNodes, sender i = other ∧ other.num = num := by
  obtain ⟨hmem, hnum⟩ | hnew := get_insertAll_some h
  · obtain ⟨i, hi, hsender⟩ := List.mem_map.mp hmem
    exact ⟨i, List.mem_range.mp hi, hsender, hnum⟩
  · cases hnew

/-- Two more senders, in milliseconds of their own, find a full table: the first of them is
there. -/
theorem flood_resistance_crowded :
    crowded.nodes.size = maxLiveNodes ∧
      let db := crowded.insertAll (fun _ => firstOf (sender 3).num)
        [sender maxLiveNodes, sender (maxLiveNodes + 1)]
      db.nodes.size ≤ maxLiveNodes ∧
        db.get (sender maxLiveNodes).num = some (sender maxLiveNodes) := by
  obtain ⟨hsize, -, hpresent⟩ := flood_resistance crowded (fun _ => firstOf (sender 3).num)
    [sender maxLiveNodes, sender (maxLiveNodes + 1)] size_crowded.le
  refine ⟨size_crowded, hsize, hpresent ?_ (by decide) [] _ _ rfl (by decide) (by decide)⟩
  intro num other hget node hnode
  obtain ⟨i, hi, rfl, -⟩ := get_crowded_some hget
  obtain rfl | rfl : node = sender maxLiveNodes ∨ node = sender (maxLiveNodes + 1) := by
    simpa using hnode
  · exact heard_sender_lt (by decide) hi
  · exact heard_sender_lt (by decide) (hi.trans (Nat.lt_succ_self _))

/-! ## One millisecond -/

/-- One more sender, and the fourth one goes: no one was heard in an earlier millisecond. -/
theorem get_insert_crowded :
    (crowded.insert (firstOf (sender 3).num) (sender maxLiveNodes)).get (sender 3).num = none := by
  have hnew : crowded.get (sender maxLiveNodes).num = none := by
    refine Option.eq_none_iff_forall_ne_some.mpr fun other hother => ?_
    obtain ⟨i, hi, rfl, hnum⟩ := get_crowded_some hother
    exact absurd (num_sender_inj hi.le le_rfl hnum) hi.ne
  have hevicts : ((crowded.get (sender maxLiveNodes).num).isNone &&
      decide (maxLiveNodes ≤ crowded.nodes.size)) = true := by
    rw [hnew, size_crowded]
    simp
  obtain ⟨rest, hvisit⟩ := exists_visit_firstOf get_crowded_three
  have hstalest : ∀ num other, crowded.get num = some other → (sender 3).heard ≤ other.heard := by
    intro num other hother
    obtain ⟨i, -, rfl, -⟩ := get_crowded_some hother
    exact heard_sender_nonneg i
  have hevict := evictStalest_first hvisit (myNode_insertAll _ _ _) hstalest
  have hother : (sender 3).num ≠ (sender maxLiveNodes).num := fun heq =>
    absurd (num_sender_inj (by decide) le_rfl heq) (by decide)
  rw [insert, if_pos hevicts, hevict, get, Table.lookup_insert_ite, if_neg hother,
    Table.lookup_erase_ite, if_pos rfl]

/-- One packet from each sender, and one from another: the times increase, fewer than
`MAX_LIVE_NODES - 2` other numbers follow the fourth sender, and it is evicted. -/
theorem flood_evicts_recent :
    ∃ (times : List ℤ) (pre post : List (MeshNode nanoseconds))
        (its : Nat → Table.Iteration UInt32 _),
      times.Pairwise (· < ·) ∧
      (pre ++ sender 3 :: post).map MeshNode.lastHeard = times.map some ∧
      (∀ n ∈ post, n.num ≠ (sender 3).num) ∧
      (post.map MeshNode.num).toFinset.card < maxLiveNodes - 2 ∧
      (NodeDb.new.insertAll its (pre ++ sender 3 :: post)).get (sender 3).num = none := by
  have hsplit : (List.range (maxLiveNodes + 1)).map sender =
      (List.range 3).map sender ++ sender 3 :: (List.range (maxLiveNodes - 3)).map fun i =>
        sender (4 + i) := by
    rw [show maxLiveNodes + 1 = 3 + 1 + (maxLiveNodes - 3) from rfl, List.range_add,
      List.range_succ]
    simp [Function.comp_def]
  refine ⟨(List.range (maxLiveNodes + 1)).map arrival, _, _, fun _ => firstOf (sender 3).num, ?_,
    (congrArg _ hsplit).symm.trans ?_, ?_, ?_, ?_⟩
  · exact List.pairwise_map.mpr (List.pairwise_lt_range.imp arrival_lt)
  · rw [List.map_map, List.map_map]
    exact List.map_congr_left fun i _ => rfl
  · have hnodup := nodup_num_senders (n := maxLiveNodes + 1) le_rfl
    rw [hsplit, List.map_append, List.map_cons, List.nodup_append, List.nodup_cons] at hnodup
    intro n hn heq
    exact hnodup.2.1.1 (heq ▸ List.mem_map_of_mem hn)
  · refine (List.toFinset_card_le _).trans_lt ?_
    rw [List.length_map, List.length_map, List.length_range]
    decide
  · rw [← hsplit, List.range_succ, List.map_append, insertAll_append]
    exact get_insert_crowded

end NodeDb

end Akroasis.Mesh
