import Akroasis.Mesh.Processor

/-!
# Akroasis.Mesh.Collector

What the collector stores of the frames of its radios (`handshake.rs`, `collector.rs`): the
handshake of every connection writes a scratch database, the nodes it found are merged into
the collector's database, the packet processor starts with a copy of that, and every later
frame is written to both.

`Collector.step` is the whole of it as a state machine.  A `NodeInfo` frame is stored by the
handshake, the collector and the processor without a check, so the databases stay `Clean` in
runs whose frames are `Admissible` and not in all runs.
-/

namespace Akroasis.Mesh

/-! ## Frames -/

/-- `MAX_CHANNELS`. -/
def maxChannels : Nat := 8

/-- `from_radio::PayloadVariant`; a channel is its index. -/
inductive RadioPayload where
  | packet (packet : MeshPacket)
  | myInfo (myNodeNum : UInt32)
  | nodeInfo (nodeInfo : NodeInfo)
  | configCompleteId (id : UInt32)
  | rebooted (flag : Bool)
  | channel (index : ℤ)

/-- `FromRadio`, without its id. -/
abbrev FromRadio := Option RadioPayload

/-! ## Handshake -/

/-- The state of a handshake. -/
structure Handshake (J : Timestamps) where
  wantConfigId : UInt32
  nodeDb : NodeDb J
  myNodeNum : Option UInt32
  channels : List ℤ
  knownNodes : List (MeshNode J)

/-- `HandshakeResult`. -/
structure HandshakeResult (J : Timestamps) where
  myNodeNum : UInt32
  channels : List ℤ
  knownNodes : List (MeshNode J)

/-- Where a frame leaves a handshake. -/
inductive HandshakeProgress (J : Timestamps) where
  | awaiting (h : Handshake J)
  | complete (result : HandshakeResult J)
  | failed (detail : String)

namespace Handshake

variable {J : Timestamps}

/-- The state after `want_config_id` was sent. -/
def start (wantConfigId : UInt32) : Handshake J := ⟨wantConfigId, .new, none, [], []⟩

/-- One round of the loop of `handshake_with_config`. -/
def recv (h : Handshake J) (it : Table.Iteration UInt32 (MeshNode J)) :
    FromRadio → HandshakeProgress J
  | some (.myInfo num) =>
    .awaiting { h with nodeDb := h.nodeDb.setMyNode num, myNodeNum := some num }
  | some (.nodeInfo ni) =>
      let node := nodeInfoToMeshNode ni
      .awaiting { h with
        knownNodes := if h.knownNodes.length < maxLiveNodes then h.knownNodes ++ [node]
          else h.knownNodes
        nodeDb := h.nodeDb.insert it node }
  | some (.channel index) =>
      .awaiting { h with
        channels := if h.channels.length < maxChannels then h.channels ++ [index] else h.channels }
  | some (.configCompleteId id) =>
      if id = h.wantConfigId then
        match h.myNodeNum with
        | some num => .complete ⟨num, h.channels, h.knownNodes⟩
        | none => .failed "radio did not send MyNodeInfo"
      else .awaiting h
  | some (.packet _) => .awaiting h
  | some (.rebooted _) => .failed "radio rebooted during handshake"
  | none => .awaiting h

end Handshake

/-! ## Collector -/

variable {C : ProcessorCrates}

/-- What the collector is doing: between connections, in a handshake, merging the nodes that
one found, or receiving. -/
inductive CollectorPhase (C : ProcessorCrates) where
  | connecting
  | handshaking (h : Handshake C.time)
  | merging (nodes : List (MeshNode C.time))
  | receiving (processor : PacketProcessor C)

/-- The node database of `MeshCollector` and what it is doing. -/
structure Collector (C : ProcessorCrates) where
  nodeDb : NodeDb C.time
  phase : CollectorPhase C

/-- What can happen.  `fail` is a timeout or a transport error in a handshake, and
`removeStale` is the pruning of the topology by `run_stale_detection`. -/
inductive CollectorEvent (C : ProcessorCrates) where
  | connect (wantConfigId : UInt32)
  | frame (m : Moment C) (fromRadio : FromRadio)
  | fail
  | merge (m : Moment C)
  | start
  | removeStale (m : Moment C) (timeout : Nat)

namespace Collector

/-- `new`. -/
def new : Collector C := ⟨.new, .connecting⟩

/-- `handle_mesh_packet`. -/
def handleMeshPacket (db : NodeDb C.time) (m : Moment C) (packet : MeshPacket) : NodeDb C.time :=
  match (ClaimedNodeNum.fromWire packet.fromNode).map ClaimedNodeNum.acceptUnauthenticated with
  | none => db
  | some num =>
      let snr := unlessZero f32IsZero packet.rxSnr
      let hopCount := hopCountFromWire packet.hopStart packet.hopLimit
      match db.get num with
      | some node => db.insert m.nodes { node with
          snr := snr.or node.snr
          hopCount := hopCount.or node.hopCount
          lastHeard := some m.timestamp }
      | none => db.insert m.nodes { MeshNode.bare num with
          lastHeard := some m.timestamp, snr := snr, hopCount := hopCount }

/-- `process_packet`. -/
def processPacket (db : NodeDb C.time) (m : Moment C) : FromRadio → NodeDb C.time
  | some (.packet packet) => handleMeshPacket db m packet
  | some (.nodeInfo ni) => db.insert m.nodes (nodeInfoToMeshNode ni)
  | _ => db

/-- `dispatch_to_processor`; acknowledgements go to the router and are left out. -/
def dispatchToProcessor (p : PacketProcessor C) (m : Moment C) :
    FromRadio → Option (PacketProcessor C)
  | some (.packet packet) => (p.processMeshPacket m packet).map Prod.fst
  | some (.nodeInfo ni) => some { p with nodeDb := p.nodeDb.insert m.nodes (nodeInfoToMeshNode ni) }
  | _ => some p

/-- A frame, in a handshake or while receiving. -/
def recv (c : Collector C) (m : Moment C) (fromRadio : FromRadio) : Option (Collector C) :=
  match c.phase with
  | .handshaking h =>
      match h.recv m.nodes fromRadio with
      | .awaiting h => some { c with phase := .handshaking h }
      | .complete result => some ⟨c.nodeDb.setMyNode result.myNodeNum, .merging result.knownNodes⟩
      | .failed _ => some { c with phase := .connecting }
  | .receiving p =>
      (dispatchToProcessor p m fromRadio).map fun p =>
        ⟨processPacket c.nodeDb m fromRadio, .receiving p⟩
  | _ => some c

/-- One event.  An event that does not fit the phase changes nothing; `none` is a panic. -/
def step (c : Collector C) : CollectorEvent C → Option (Collector C)
  | .frame m fromRadio => c.recv m fromRadio
  | .connect wantConfigId =>
      match c.phase with
      | .connecting => some { c with phase := .handshaking (.start wantConfigId) }
      | _ => some c
  | .fail =>
      match c.phase with
      | .handshaking _ => some { c with phase := .connecting }
      | _ => some c
  | .merge m =>
      match c.phase with
      | .merging (node :: rest) => some ⟨c.nodeDb.insert m.nodes node, .merging rest⟩
      | .merging [] => some { c with phase := .connecting }
      | _ => some c
  -- `make_processor`: seeded with what the handshakes found
  | .start =>
      match c.phase with
      | .connecting => some { c with phase := .receiving ⟨c.nodeDb, .new⟩ }
      | _ => some c
  | .removeStale m timeout =>
      match c.phase with
      | .receiving p =>
          let t := (p.topology.removeStaleLinks timeout m.instant).removeStaleNodes m.links
            timeout m.instant
          some { c with phase := .receiving { p with topology := t } }
      | _ => some c

/-! ## Clean databases -/

/-- Every record of every database is valid and keyed by its own number, and no vertex of the
topology is a sentinel. -/
def Clean (c : Collector C) : Prop :=
  c.nodeDb.Clean ∧ match c.phase with
    | .handshaking h => h.nodeDb.Clean
    | .receiving p => p.nodeDb.Clean ∧ ∀ idx num,
        C.topology.graph.nodeWeight p.topology.graph idx = some num → ¬IsSentinel num
    | _ => True

/-- A `NodeInfo` frame is in range, and a packet names no sentinel that becomes a vertex. -/
def Admissible (c : Collector C) : CollectorEvent C → Prop
  | .frame _ (some (.nodeInfo ni)) => ni.InRange
  | .frame _ (some (.packet packet)) => ∀ p, c.phase = .receiving p → p.Admissible packet
  | _ => True

/-- Besides clean databases: the nodes still to be merged are valid, and the topology is
consistent. -/
structure Sound (c : Collector C) : Prop where
  clean : c.nodeDb.Clean
  phase : match c.phase with
    | .connecting => True
    | .handshaking h => h.nodeDb.Clean ∧ ∀ node ∈ h.knownNodes, node.Valid
    | .merging nodes => ∀ node ∈ nodes, node.Valid
    | .receiving p => p.Sound

theorem sound_new : (new : Collector C).Sound := ⟨NodeDb.clean_new, trivial⟩

variable {c : Collector C} {fromRadio : FromRadio}

theorem Sound.toClean (h : c.Sound) : c.Clean := by
  obtain ⟨hclean, hphase⟩ := h
  refine ⟨hclean, ?_⟩
  split
  · next hp => rw [hp] at hphase; exact hphase.1
  · next p hp =>
    rw [hp] at hphase
    exact ⟨hphase.clean,
      fun idx num => hphase.placed.named.vertex hphase.placed.consistent.toCoherent⟩
  · trivial

/-- **Packets**: the collector's own copy checks the sender and the hop count. -/
theorem clean_handleMeshPacket {db : NodeDb C.time} (h : db.Clean) (m : Moment C)
    (packet : MeshPacket) :
    (handleMeshPacket db m packet).Clean := by
  unfold handleMeshPacket
  rw [ClaimedNodeNum.map_fromWire]
  split
  · exact h
  · next num hnum =>
    have hsender : ¬IsSentinel num := by
      intro hsentinel
      split at hnum
      · cases hnum
      · next hreal => exact hreal (Option.some.inj hnum ▸ hsentinel)
    dsimp only
    split
    · next node hget =>
      exact h.insert ((h num node hget).2.heard rfl rfl rfl)
    · exact h.insert ((MeshNode.valid_bare hsender).heard rfl (Option.or_none).symm rfl)

theorem clean_processPacket {db : NodeDb C.time} (h : db.Clean) (m : Moment C)
    (hinfo : ∀ ni, fromRadio = some (.nodeInfo ni) → ni.InRange) :
    (processPacket db m fromRadio).Clean := by
  unfold processPacket
  split
  · exact clean_handleMeshPacket h m _
  · exact h.insert (hinfo _ rfl).valid
  · exact h

theorem exists_dispatchToProcessor {p : PacketProcessor C} (h : p.Sound) (m : Moment C)
    (hinfo : ∀ ni, fromRadio = some (.nodeInfo ni) → ni.InRange)
    (hpacket : ∀ packet, fromRadio = some (.packet packet) → p.Admissible packet) :
    ∃ p', dispatchToProcessor p m fromRadio = some p' ∧ p'.Sound := by
  unfold dispatchToProcessor
  split
  · next packet =>
    obtain ⟨p', events, hprocess, h'⟩ := h.processMeshPacket m (hpacket packet rfl)
    exact ⟨p', by rw [hprocess, Option.map_some], h'⟩
  · exact ⟨_, rfl, h.clean.insert (hinfo _ rfl).valid, h.placed⟩
  · exact ⟨p, rfl, h⟩

/-- **Handshake**: what a round keeps of every record, and what it leaves to be merged. -/
theorem every_handshakeRecv {P : MeshNode C.time → Prop} {h : Handshake C.time}
    (hdb : h.nodeDb.Every P) (hknown : ∀ node ∈ h.knownNodes, P node)
    (it : Table.Iteration UInt32 (MeshNode C.time))
    (hinfo : ∀ ni, fromRadio = some (.nodeInfo ni) → P (nodeInfoToMeshNode ni)) :
    match h.recv it fromRadio with
    | .awaiting h' => h'.nodeDb.Every P ∧ ∀ node ∈ h'.knownNodes, P node
    | .complete result => ∀ node ∈ result.knownNodes, P node
    | .failed _ => True := by
  cases fromRadio with
  | none => exact ⟨hdb, hknown⟩
  | some payload =>
      cases payload with
      | packet packet => exact ⟨hdb, hknown⟩
      | myInfo num => exact ⟨hdb, hknown⟩
      | channel index => exact ⟨hdb, hknown⟩
      | rebooted flag => trivial
      | configCompleteId id =>
          unfold Handshake.recv
          by_cases hid : id = h.wantConfigId
          · cases hnum : h.myNodeNum with
            | none => simp only [if_pos hid]
            | some num => simpa only [if_pos hid] using hknown
          · simpa only [if_neg hid] using ⟨hdb, hknown⟩
      | nodeInfo ni =>
          refine ⟨hdb.insert (hinfo ni rfl), fun node hnode => ?_⟩
          dsimp only at hnode
          split at hnode
          · obtain hmem | hmem := List.mem_append.mp hnode
            · exact hknown node hmem
            · obtain rfl := List.mem_singleton.mp hmem
              exact hinfo ni rfl
          · exact hknown node hnode

/-- **Frame**: an admissible frame is handled without a panic and does no harm. -/
theorem Sound.recv (h : c.Sound) (m : Moment C)
    (hadm : c.Admissible (.frame m fromRadio)) : ∃ c', c.recv m fromRadio = some c' ∧ c'.Sound := by
  have hinfo : ∀ ni, fromRadio = some (.nodeInfo ni) → ni.InRange := by
    rintro ni rfl
    exact hadm
  obtain ⟨hclean, hphase⟩ := h
  unfold Collector.recv
  split
  · next hs hp =>
    rw [hp] at hphase
    have hrecv := every_handshakeRecv (P := MeshNode.Valid) hphase.1 hphase.2 m.nodes
      fun ni hni => (hinfo ni hni).valid
    split
    · next heq => rw [heq] at hrecv; exact ⟨_, rfl, hclean, hrecv⟩
    · next heq => rw [heq] at hrecv; exact ⟨_, rfl, hclean, hrecv⟩
    · exact ⟨_, rfl, hclean, trivial⟩
  · next p hp =>
    rw [hp] at hphase
    have hpacket : ∀ packet, fromRadio = some (.packet packet) → p.Admissible packet := by
      rintro packet rfl
      exact hadm p hp
    obtain ⟨p', hdispatch, h'⟩ := exists_dispatchToProcessor hphase m hinfo hpacket
    rw [hdispatch]
    exact ⟨_, rfl, clean_processPacket hclean m hinfo, h'⟩
  · exact ⟨c, rfl, hclean, hphase⟩

/-- **Step**: an admissible event is handled without a panic and does no harm. -/
theorem Sound.step (h : c.Sound) {event : CollectorEvent C} (hadm : c.Admissible event) :
    ∃ c', c.step event = some c' ∧ c'.Sound := by
  cases event with
  | frame m fromRadio => exact h.recv m hadm
  | connect wantConfigId =>
      simp only [Collector.step]
      split
      · exact ⟨_, rfl, h.clean, NodeDb.clean_new, by simp [Handshake.start]⟩
      · exact ⟨c, rfl, h⟩
  | fail =>
      simp only [Collector.step]
      split
      · exact ⟨_, rfl, h.clean, trivial⟩
      · exact ⟨c, rfl, h⟩
  | merge m =>
      have hphase := h.phase
      simp only [Collector.step]
      split
      · next node rest hp =>
        rw [hp] at hphase
        obtain ⟨hnode, hrest⟩ := List.forall_mem_cons.mp hphase
        exact ⟨_, rfl, h.clean.insert hnode, hrest⟩
      · exact ⟨_, rfl, h.clean, trivial⟩
      · exact ⟨c, rfl, h⟩
  | start =>
      simp only [Collector.step]
      split
      · exact ⟨_, rfl, h.clean, h.clean, MeshTopology.placed_new⟩
      · exact ⟨c, rfl, h⟩
  | removeStale m timeout =>
      have hphase := h.phase
      simp only [Collector.step]
      split
      · next p hp =>
        rw [hp] at hphase
        have hplaced := hphase.placed
        exact ⟨_, rfl, h.clean, hphase.clean,
          (hplaced.consistent.removeStaleLinks timeout m.instant).removeStaleNodes m.links timeout
            m.instant,
          (hplaced.named.removeStaleLinks timeout m.instant).removeStaleNodes timeout m.instant⟩
      · exact ⟨c, rfl, h⟩

/-- **Clean databases**: no run whose frames are admissible panics, and it leaves every record
of every database valid and under its own number, and no sentinel in the topology. -/
theorem run_clean (events : List (CollectorEvent C))
    (hadm : Machine.Meets step Admissible new events) :
    ∃ c, Machine.run step (new : Collector C) events = some c ∧ c.Clean := by
  obtain ⟨c, hrun, hsound⟩ :=
    Machine.exists_run_of_meets (fun _ _ h hadm => h.step hadm) sound_new hadm
  exact ⟨c, hrun, hsound.toClean⟩

/-! ## Sample runs -/

/-- An empty payload decodes to an empty route; no other decodes to anything. -/
def sampleCrates : ProcessorCrates where
  topology := ⟨tableGraph UInt32 (LinkQuality UInt32),
    fun bits => decide ((bits >>> 23) &&& 0xFF ≠ 0xFF), fun _ => none⟩
  time := ⟨Nat, fun seconds => some seconds.toNat, fun t => t⟩
  decodeUser _ := none
  decodePosition _ := none
  decodeTelemetry _ := none
  decodeNeighborInfo _ := none
  decodeRouteDiscovery payload := if payload = [] then some ⟨[], [], [], []⟩ else none

def sampleMoment : Moment sampleCrates :=
  ⟨0, (0 : Nat), ⟨id, fun _ => .refl _⟩, ⟨id, fun _ => .refl _⟩⟩

/-- A traced route from node 5 with no hops. -/
def sampleTrace (dest : UInt32) : MeshPacket :=
  ⟨5, dest, 0, some (.decoded ⟨Portnum.tracerouteApp, [], false, 0, 0, 0, 0, []⟩), 1, 0, 0, 0,
    false, 0, 0, false, 0⟩

/-- A handshake in which the radio 16 reports one node, then a traced route. -/
def sampleSession (num hopsAway dest : UInt32) : List (CollectorEvent sampleCrates) :=
  [.connect 1, .frame sampleMoment (some (.myInfo 16)),
    .frame sampleMoment (some (.nodeInfo ⟨num, none, none, 0, 0, hopsAway⟩)),
    .frame sampleMoment (some (.configCompleteId 1)), .merge sampleMoment, .merge sampleMoment,
    .start,
    .frame sampleMoment (some (.packet (sampleTrace dest)))]

/-- A node three hops away, and a route to node 9. -/
theorem run_clean_three_hops : Machine.Meets step Admissible new (sampleSession 7 3 9) ∧
    ∃ c, Machine.run step new (sampleSession 7 3 9) = some c ∧ c.Clean := by
  have hadm : Machine.Meets step Admissible new (sampleSession 7 3 9) := by
    refine Machine.meets_of_forall_mem (fun event hmem c => ?_) _
    simp only [sampleSession, List.mem_cons, List.not_mem_nil, or_false] at hmem
    rcases hmem with rfl | rfl | rfl | rfl | rfl | rfl | rfl | rfl <;> try trivial
    · exact ⟨by decide, by decide, fun p hp => by cases hp⟩
    · intro p _ _
      refine ⟨fun hhops => absurd hhops (by decide), fun decoded hdecoded => ?_⟩
      obtain rfl := PayloadVariant.decoded.inj (Option.some.inj hdecoded)
      refine ⟨fun hport => absurd hport (by decide), fun _ route hroute num hnum => ?_⟩
      obtain rfl := Option.some.inj hroute
      obtain rfl := List.mem_singleton.mp hnum
      decide
  exact ⟨hadm, run_clean _ hadm⟩

/-- The record under a number in the collector's and the processor's database, and the vertex
at an index. -/
def sampleView (num : UInt32) (idx : Nat) (c : Collector sampleCrates) :
    Option (Option UInt8 × Option UInt8 × Option UInt32) :=
  match c.phase with
  | .receiving p =>
      some ((c.nodeDb.get num).bind MeshNode.hopCount, (p.nodeDb.get num).bind MeshNode.hopCount,
        sampleCrates.topology.graph.nodeWeight p.topology.graph idx)
  | _ => none

theorem not_clean_of_hopCount {J : Timestamps} {db : NodeDb J} {num : UInt32} {hops : UInt8}
    (hhops : ¬hops ≤ maxHopLimit) (h : (db.get num).bind MeshNode.hopCount = some hops) :
    ¬db.Clean := by
  intro hclean
  obtain ⟨node, hget, hcount⟩ := Option.bind_eq_some_iff.mp h
  exact hhops ((hclean num node hget).2.hops hops hcount)

/-- The radio reports a node under the broadcast address, 200 hops away, and a route leads
to the broadcast address: both databases store the record, and the address is a vertex. -/
theorem broadcast_stored :
    ∃ c p, Machine.run step new (sampleSession broadcastAddr 200 broadcastAddr) = some c ∧
    c.phase = .receiving p ∧ ¬c.nodeDb.Clean ∧ ¬p.nodeDb.Clean ∧
    ∃ idx num, sampleCrates.topology.graph.nodeWeight p.topology.graph idx = some num ∧
    IsSentinel num := by
  have hview : (Machine.run step new (sampleSession broadcastAddr 200 broadcastAddr)).bind
      (sampleView broadcastAddr 2) =
        some (some 200, some 200, some broadcastAddr) := by decide +kernel
  obtain ⟨c, hrun, hview⟩ := Option.bind_eq_some_iff.mp hview
  unfold sampleView at hview
  split at hview
  · next p hp =>
    simp only [Option.some.injEq, Prod.mk.injEq] at hview
    exact ⟨c, p, hrun, hp, not_clean_of_hopCount (by decide) hview.1,
      not_clean_of_hopCount (by decide) hview.2.1, (2 : Nat), broadcastAddr, hview.2.2, .inr rfl⟩
  · cases hview

end Collector

end Akroasis.Mesh
