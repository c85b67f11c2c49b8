import Akroasis.Mesh.Collector

/-!
# Akroasis.Mesh.Merge

The handshake fills a scratch database and, beside it, the list of nodes that its caller
merges into the database of the collector (`handshake_with_config`, `connect_and_handshake`).
The list has a ceiling of `MAX_LIVE_NODES` frames; the database has one of as many nodes.

While the list is not full it holds everything the database was given, and the database has
room, so both give the last record of every node (`lastRecord`).  Once it is full, a frame
is written to the database only.  So a merge gives what the handshake wrote, after every
frame, exactly if the frames beyond the ceiling repeat what is stored (`mergeable_iff`).
-/

namespace Akroasis.Mesh

variable {J : Timestamps}

/-- The last record of a node in a list. -/
def lastRecord (nodes : List (MeshNode J)) (num : UInt32) : Option (MeshNode J) :=
  nodes.reverse.find? fun node => node.num = num

theorem lastRecord_append_singleton (nodes : List (MeshNode J)) (node : MeshNode J) (num : UInt32) :
    lastRecord (nodes ++ [node]) num = if num = node.num then some node
      else lastRecord nodes num := by
  simp only [lastRecord, List.reverse_append, List.reverse_singleton, List.singleton_append,
    List.find?_cons]
  by_cases h : num = node.num
  · simp [h]
  · simp [h, Ne.symm h]

namespace NodeDb

variable {db : NodeDb J}

/-- Records for which there is room: the last one of each node is kept. -/
theorem get_insertAll {its : Nat → Table.Iteration UInt32 (MeshNode J)} {nodes : List (MeshNode J)}
    (h : db.nodes.size + nodes.length ≤ maxLiveNodes) (num : UInt32) :
    (db.insertAll its nodes).get num = (lastRecord nodes num).or (db.get num) := by
  induction nodes generalizing db its with
  | nil => rfl
  | cons node rest ih =>
      rw [List.length_cons] at h
      have hroom : (db.get node.num).isSome ∨ db.nodes.size < maxLiveNodes := .inr (by omega)
      have hsize : (db.insert (its 0) node).nodes.size + rest.length ≤ maxLiveNodes := by
        have hgrow := Table.size_insert_le db.nodes node.num node
        rw [insert_of_room hroom]
        simp only
        omega
      rw [insertAll, ih hsize, get_insert_of_room hroom]
      simp only [lastRecord, List.reverse_cons, List.find?_append, Option.or_assoc]
      congr 1
      by_cases hnum : num = node.num
      · simp [hnum]
      · simp [hnum, Ne.symm hnum]

end NodeDb

/-- What `connect_and_handshake` does with a result. -/
def HandshakeResult.merge (result : HandshakeResult J)
    (its : Nat → Table.Iteration UInt32 (MeshNode J)) (db : NodeDb J) : NodeDb J :=
  (db.setMyNode result.myNodeNum).insertAll its result.knownNodes

namespace Handshake

/-- A frame, and the order in which the database is visited should it be full. -/
abbrev Frame (J : Timestamps) := Table.Iteration UInt32 (MeshNode J) × FromRadio

/-- A frame that does not end the handshake. -/
def step (h : Handshake J) (frame : Frame J) : Option (Handshake J) :=
  match h.recv frame.1 frame.2 with
  | .awaiting h => some h
  | .complete _ | .failed _ => none

/-- Merging the nodes found so far into an empty database would give the records written so
far, whatever the own number. -/
def Mergeable (h : Handshake J) : Prop :=
  h.nodeDb.myNode = h.myNodeNum ∧
    ∀ result : HandshakeResult J, result.knownNodes = h.knownNodes →
      ∀ its num, (result.merge its .new).get num = h.nodeDb.get num

/-- A node that the handshake can still list, or whose record is the one stored. -/
def Listed (h : Handshake J) : Frame J → Prop
  | (_, some (.nodeInfo ni)) =>
      h.knownNodes.length < maxLiveNodes ∨ h.nodeDb.get ni.num = some (nodeInfoToMeshNode ni)
  | _ => True

variable {h h' : Handshake J} {frame : Frame J}

/-- The records of the database are the last ones listed. -/
def Agrees (h : Handshake J) : Prop := ∀ num, lastRecord h.knownNodes num = h.nodeDb.get num

/-- What holds in every handshake: while the list is not full, the database has no more nodes
than it. -/
structure Sound (h : Handshake J) : Prop where
  myNode : h.nodeDb.myNode = h.myNodeNum
  length : h.knownNodes.length ≤ maxLiveNodes
  size : h.knownNodes.length < maxLiveNodes → h.nodeDb.nodes.size ≤ h.knownNodes.length

theorem sound_start (wantConfigId : UInt32) : (start wantConfigId : Handshake J).Sound :=
  ⟨rfl, Nat.zero_le _, fun _ => le_rfl⟩

theorem agrees_start (wantConfigId : UInt32) : (start wantConfigId : Handshake J).Agrees :=
  fun _ => rfl

/-- A merge gives the last records listed: there is room for all of them. -/
theorem Sound.get_merge (hsound : h.Sound) {result : HandshakeResult J}
    (hknown : result.knownNodes = h.knownNodes) (its : Nat → Table.Iteration UInt32 (MeshNode J))
    (num : UInt32) : (result.merge its .new).get num = lastRecord h.knownNodes num := by
  have hroom : ((NodeDb.new : NodeDb J).setMyNode result.myNodeNum).nodes.size +
      result.knownNodes.length ≤ maxLiveNodes := by
    simpa [NodeDb.setMyNode, NodeDb.new, Table.size, hknown] using hsound.length
  rw [HandshakeResult.merge, NodeDb.get_insertAll hroom, hknown]
  exact Option.or_none

theorem Sound.mergeable_iff_agrees (hsound : h.Sound) : h.Mergeable ↔ h.Agrees := by
  constructor
  · intro hmergeable num
    have hrecords := hmergeable.2 ⟨0, [], h.knownNodes⟩ rfl (fun _ => ⟨id, fun _ => .refl _⟩) num
    rwa [hsound.get_merge rfl] at hrecords
  · intro hagrees
    exact ⟨hsound.myNode, fun result hknown its num => (hsound.get_merge hknown its num).trans
      (hagrees num)⟩

/-- The handshake after a `NodeInfo`. -/
def withNode (h : Handshake J) (it : Table.Iteration UInt32 (MeshNode J)) (node : MeshNode J) :
    Handshake J :=
  { h with
    knownNodes := if h.knownNodes.length < maxLiveNodes then h.knownNodes ++ [node]
      else h.knownNodes
    nodeDb := h.nodeDb.insert it node }

/-- Every other frame leaves the list and the records as they are. -/
theorem step_cases (hstep : h.step frame = some h') :
    (∃ it ni, frame = (it, some (.nodeInfo ni)) ∧ h' = h.withNode it (nodeInfoToMeshNode ni)) ∨
      ((∀ ni, frame.2 ≠ some (.nodeInfo ni)) ∧ h'.knownNodes = h.knownNodes ∧
        h'.nodeDb.nodes = h.nodeDb.nodes ∧
        (h.nodeDb.myNode = h.myNodeNum → h'.nodeDb.myNode = h'.myNodeNum)) := by
  obtain ⟨it, _ | payload⟩ := frame
  · obtain rfl := Option.some.inj hstep
    exact .inr ⟨fun _ => by simp, rfl, rfl, id⟩
  · cases payload with
    | nodeInfo ni => exact .inl ⟨it, ni, rfl, (Option.some.inj hstep).symm⟩
    | myInfo num =>
        obtain rfl := Option.some.inj hstep
        exact .inr ⟨fun _ => by simp, rfl, rfl, fun _ => rfl⟩
    | packet packet =>
        obtain rfl := Option.some.inj hstep
        exact .inr ⟨fun _ => by simp, rfl, rfl, id⟩
    | channel index =>
        obtain rfl := Option.some.inj hstep
        exact .inr ⟨fun _ => by simp, rfl, rfl, id⟩
    | rebooted flag => cases hstep
    | configCompleteId complete =>
        simp only [step, recv] at hstep
        split at hstep
        · next hrecv =>
          split at hrecv
          · split at hrecv <;> cases hrecv
          · cases hrecv
            obtain rfl := Option.some.inj hstep
            exact .inr ⟨fun _ => by simp, rfl, rfl, id⟩
        · cases hstep
        · cases hstep

theorem Sound.step (hsound : h.Sound) (hstep : h.step frame = some h') : h'.Sound := by
  obtain ⟨it, ni, rfl, rfl⟩ | ⟨-, hknown, hnodes, hmyNode⟩ := step_cases hstep
  · refine ⟨(NodeDb.myNode_insert _ _ _).trans hsound.myNode, ?_, fun hlength => ?_⟩
    · have hle := hsound.length
      simp only [withNode]
      split
      · rw [List.length_append, List.length_singleton]
        omega
      · exact hle
    · simp only [withNode] at hlength ⊢
      split at hlength
      · next hroom =>
        have hsize := hsound.size hroom
        have hgrow := Table.size_insert_le h.nodeDb.nodes ni.num (nodeInfoToMeshNode ni)
        rw [if_pos hroom, NodeDb.insert_of_room (.inr (by omega)), List.length_append,
          List.length_singleton]
        exact hgrow.trans (Nat.add_le_add_right hsize 1)
      · next hfull => exact absurd hlength hfull
  · exact ⟨hmyNode hsound.myNode, hknown ▸ hsound.length, hknown ▸ hnodes ▸ hsound.size⟩

theorem sound_run {wantConfigId : UInt32} {frames : List (Frame J)}
    (hrun : Machine.run Handshake.step (start wantConfigId) frames = some h) : h.Sound :=
  Machine.run_preserves (fun _ _ _ hs hstep => hs.step hstep) (sound_start wantConfigId) hrun

/-- **One frame**: list and records stay in agreement exactly if it is `Listed`. -/
theorem Sound.listed_iff (hsound : h.Sound) (hagrees : h.Agrees) (hstep : h.step frame = some h') :
    h.Listed frame ↔ h'.Agrees := by
  obtain ⟨it, ni, rfl, rfl⟩ | ⟨hother, hknown, hnodes, -⟩ := step_cases hstep
  · set node : MeshNode J := nodeInfoToMeshNode ni with hnode
    by_cases hroom : h.knownNodes.length < maxLiveNodes
    · refine iff_of_true (.inl hroom) fun num => ?_
      have hsize := hsound.size hroom
      rw [withNode, if_pos hroom, lastRecord_append_singleton, hagrees num,
        NodeDb.get_insert_of_room (.inr (by omega))]
    · have hlist : (h.withNode it node).knownNodes = h.knownNodes := if_neg hroom
      constructor
      · intro hlisted num
        have hsame : h.nodeDb.get node.num = some node := hlisted.resolve_left hroom
        rw [hlist, hagrees num, withNode, NodeDb.get_insert_of_room (.inl (by rw [hsame]; rfl))]
        split
        · next hnum => rw [hnum, hsame]
        · rfl
      · intro hafter
        have hstored := hafter node.num
        rw [hlist, hagrees, withNode, NodeDb.get_insert_self] at hstored
        exact .inr hstored
  · have hlisted : h.Listed frame := by
      obtain ⟨it, payload⟩ := frame
      unfold Listed
      split
      · next ni heq => exact absurd (Prod.mk.inj heq).2 (hother ni)
      · trivial
    have hafter : h'.Agrees := fun num => by
      rw [hknown, hagrees num, NodeDb.get, NodeDb.get, hnodes]
    exact iff_of_true hlisted hafter

/-- The result of a handshake is its list and the last own number. -/
theorem recv_complete {it : Table.Iteration UInt32 (MeshNode J)} {fromRadio : FromRadio}
    {result : HandshakeResult J} (hrecv : h.recv it fromRadio = .complete result) :
    h.myNodeNum = some result.myNodeNum ∧ result.knownNodes = h.knownNodes := by
  obtain _ | payload := fromRadio
  · cases hrecv
  · cases payload with
    | configCompleteId complete =>
        simp only [recv] at hrecv
        split at hrecv
        · split at hrecv
          · next num hnum =>
            cases hrecv
            exact ⟨hnum, rfl⟩
          · cases hrecv
        · cases hrecv
    | nodeInfo | myInfo | packet | channel | rebooted => cases hrecv

/-- **The merge of a handshake.**  After every part of a handshake a merge of the nodes listed
would give the records written, exactly if every `NodeInfo` arrives while the list is not full
or repeats the record that is stored; and if so, merging the result of the handshake into an
empty database gives the own node and the records of the database it filled. -/
theorem mergeable_iff (wantConfigId : UInt32) (frames : List (Frame J)) (h : Handshake J)
    (hrun : Machine.run step (start wantConfigId) frames = some h) :
    (Machine.Meets step Listed (start wantConfigId) frames ↔
      ∀ n h', Machine.run step (start wantConfigId) (frames.take n) = some h' → h'.Mergeable) ∧
    (Machine.Meets step Listed (start wantConfigId) frames →
      ∀ it fromRadio result, h.recv it fromRadio = .complete result → ∀ its,
        (result.merge its .new).myNode = h.nodeDb.myNode ∧
        ∀ num, (result.merge its .new).get num = h.nodeDb.get num) := by
  have hiff := Machine.meets_iff_take (I := fun h : Handshake J => h.Sound ∧ h.Agrees) (P := Listed)
    (fun s frame s' hs hstep => (hs.1.listed_iff hs.2 hstep).trans
      (iff_and_self.mpr fun _ => hs.1.step hstep))
    ⟨sound_start wantConfigId, agrees_start wantConfigId⟩ hrun
  have hsound : ∀ n h', Machine.run step (start wantConfigId) (frames.take n) =
      some h' → h'.Sound :=
    fun n h' hrun' => sound_run hrun'
  refine ⟨hiff.trans ⟨?_, ?_⟩, fun hmeets it fromRadio result hrecv its => ?_⟩
  · intro hall n h' hrun'
    exact (hsound n h' hrun').mergeable_iff_agrees.mpr (hall n h' hrun').2
  · intro hall n h' hrun'
    have hs := hsound n h' hrun'
    exact ⟨hs, hs.mergeable_iff_agrees.mp (hall n h' hrun')⟩
  · obtain ⟨hs, hagrees⟩ := hiff.mp hmeets frames.length h (by rwa [List.take_length])
    obtain ⟨hown, hknown⟩ := recv_complete hrecv
    refine ⟨?_, (hs.mergeable_iff_agrees.mpr hagrees).2 result hknown its⟩
    rw [HandshakeResult.merge, NodeDb.myNode_insertAll, hs.myNode, hown]
    rfl

open Collector (sampleCrates sampleMoment)

/-- A `NodeInfo` with no more than a number. -/
def infoOf (num : UInt32) : NodeInfo := ⟨num, none, none, 0, 0, 0⟩

def infoFrame (num : UInt32) : Frame sampleCrates.time :=
  (sampleMoment.nodes, some (.nodeInfo (infoOf num)))

def ownFrame : Frame sampleCrates.time := (sampleMoment.nodes, some (.myInfo 16))

/-- A dump of two nodes. -/
def twoNodes : List (Frame sampleCrates.time) := [ownFrame, infoFrame 7, infoFrame 8]

/-- Both are merged. -/
theorem mergeable_iff_twoNodes :
    ∃ h result, Machine.run step (start 1) twoNodes = some h ∧
      h.recv sampleMoment.nodes (some (.configCompleteId 1)) = .complete result ∧
      ∀ its, (result.merge its .new).myNode = some 16 ∧
        ∀ num, (result.merge its .new).get num = h.nodeDb.get num := by
  obtain ⟨h, hrun⟩ : ∃ h, Machine.run step (start 1) twoNodes = some h := ⟨_, rfl⟩
  have hlisted : Machine.Meets step Listed (start 1) twoNodes := by
    refine ⟨trivial, fun h₁ hstep₁ => ?_⟩
    obtain rfl := Option.some.inj hstep₁
    refine ⟨.inl (by decide), fun h₂ hstep₂ => ?_⟩
    obtain rfl := Option.some.inj hstep₂
    exact ⟨.inl (by decide), fun _ _ => trivial⟩
  have hmerge := (mergeable_iff 1 twoNodes h hrun).2 hlisted
  obtain rfl := Option.some.inj hrun
  exact ⟨_, _, rfl, rfl, hmerge sampleMoment.nodes (some (.configCompleteId 1)) _ rfl⟩

/-- The list has an entry for every frame about node 7. -/
theorem run_repeated {k : Nat} (hk : k ≤ maxLiveNodes) :
    ∃ h, Machine.run step (start 1) (ownFrame :: List.replicate k (infoFrame 7)) = some h ∧
      h.wantConfigId = 1 ∧ h.myNodeNum = some 16 ∧
      h.knownNodes = List.replicate k (nodeInfoToMeshNode (infoOf 7)) := by
  induction k with
  | zero => exact ⟨_, rfl, rfl, rfl, rfl⟩
  | succ k ih =>
      obtain ⟨h, hrun, hid, hown, hknown⟩ := ih (by omega)
      refine ⟨h.withNode sampleMoment.nodes (nodeInfoToMeshNode (infoOf 7)), ?_, hid, hown, ?_⟩
      · rw [List.replicate_succ', ← List.cons_append, Machine.run_append, hrun]
        rfl
      · rw [withNode, hknown, List.length_replicate, if_pos (by omega), ← List.replicate_succ']

/-- A radio that reports node 7 as often as the list has places, and then node 8. -/
def repetitive : List (Frame sampleCrates.time) :=
  ownFrame :: List.replicate maxLiveNodes (infoFrame 7) ++ [infoFrame 8]

/-- Node 8 is in the database of the handshake and not in the merge. -/
theorem merge_misses_node :
    ∃ h result, Machine.run step (start 1) repetitive = some h ∧
      h.recv sampleMoment.nodes (some (.configCompleteId 1)) = .complete result ∧
      (h.nodeDb.get 8).isSome ∧ ∀ its, (result.merge its .new).get 8 = none := by
  obtain ⟨h, hrun, hid, hown, hknown⟩ := run_repeated le_rfl
  set h' := h.withNode sampleMoment.nodes (nodeInfoToMeshNode (infoOf 8))
  have hrun' : Machine.run step (start 1) repetitive = some h' := by
    rw [repetitive, Machine.run_append, hrun]
    rfl
  have hlist : h'.knownNodes = List.replicate maxLiveNodes (nodeInfoToMeshNode (infoOf 7)) := by
    rw [← hknown]
    exact if_neg (by rw [hknown, List.length_replicate]; exact lt_irrefl _)
  have hcomplete : h'.recv sampleMoment.nodes (some (.configCompleteId 1)) =
      .complete ⟨16, h'.channels, h'.knownNodes⟩ := by
    have hid' : h'.wantConfigId = 1 := hid
    have hown' : h'.myNodeNum = some 16 := hown
    simp only [recv, hid', hown', if_true]
  refine ⟨h', _, hrun', hcomplete, ?_, fun its => ?_⟩
  · exact Option.isSome_iff_exists.mpr
      ⟨_, NodeDb.get_insert_self h.nodeDb _ (nodeInfoToMeshNode (infoOf 8))⟩
  · rw [(sound_run hrun').get_merge rfl, hlist, lastRecord, List.reverse_replicate,
      List.find?_eq_none]
    intro node hnode
    rw [List.eq_of_mem_replicate hnode]
    decide

end Handshake

end Akroasis.Mesh
