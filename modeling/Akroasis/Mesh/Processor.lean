import Akroasis.Mesh.NodeDb
import Akroasis.Semaino.Grid

/-!
# Akroasis.Mesh.Processor

The packet processor (`processor.rs`): what a mesh packet writes to the processor's node
database and topology, and the events it reports.

The sender of a packet is checked before anything is written.  The other numbers a packet
carries are not: the neighbours of a report, the hops of a traced route and the address of
the packet all become vertices.  `Admissible` says that those that become vertices are no
sentinels; `Sound.processMeshPacket` is that a packet then does no harm.
-/

namespace Akroasis.Mesh

/-! ## Messages -/

/-- A neighbour entry; `snr` is the bits of an `f32`. -/
structure Neighbor where
  nodeId : UInt32
  snr : UInt32

/-- `NeighborInfo`. -/
structure NeighborInfo where
  nodeId : UInt32
  lastSentById : UInt32
  nodeBroadcastIntervalSecs : UInt32
  neighbors : List Neighbor

/-- `proto::RouteDiscovery`. -/
structure RouteDiscovery where
  route : List UInt32
  snrTowards : List ℤ
  back : List UInt32
  snrBack : List ℤ

/-- `proto::DeviceMetrics`; all but the battery level are the bits of an `f32`. -/
structure MetricsReport where
  batteryLevel : UInt32
  voltage : UInt32
  channelUtilization : UInt32
  airUtilTx : UInt32

/-- `portnum`. -/
def Portnum.positionApp : ℤ := 3
def Portnum.nodeinfoApp : ℤ := 4
def Portnum.routingApp : ℤ := 5
def Portnum.telemetryApp : ℤ := 67
def Portnum.tracerouteApp : ℤ := 70
def Portnum.neighborinfoApp : ℤ := 71

/-- What the processor uses of its surroundings: the topology's graph, time stamps, and the
decoders of payloads.  A telemetry payload has device metrics or another variant. -/
structure ProcessorCrates where
  topology : TopologyCrates UInt32
  time : Timestamps
  decodeUser : Bytes → Option User
  decodePosition : Bytes → Option Position
  decodeTelemetry : Bytes → Option (Option MetricsReport)
  decodeNeighborInfo : Bytes → Option NeighborInfo
  decodeRouteDiscovery : Bytes → Option RouteDiscovery

/-- What the processor emits of `MeshEvent`. -/
inductive MeshEvent where
  | nodeDiscovered (node : UInt32) (shortName : Option String) (snr : UInt32) (hopCount : UInt8)
  | positionUpdate (node : UInt32) (lat lon : ℚ) (alt : Option UInt32)
  | topologyChange (src dst : UInt32) (snr : UInt32)
  | telemetryUpdate (node : UInt32) (batteryPct voltage : Option UInt32)

/-- `CoordinatesError`, without the error of an altitude. -/
inductive CoordinatesError where
  | latitudeOutOfRange (value : ℚ)
  | longitudeOutOfRange (value : ℚ)

/-- `Coordinates::new` without an altitude. -/
def coordinatesNew (latitude longitude : ℚ) : Except CoordinatesError Semaino.Coordinates :=
  if ¬(-90 ≤ latitude ∧ latitude ≤ 90) then .error (.latitudeOutOfRange latitude)
  else if ¬(-180 ≤ longitude ∧ longitude ≤ 180) then .error (.longitudeOutOfRange longitude)
  else .ok ⟨latitude, longitude⟩

variable {C : ProcessorCrates}

/-- `PacketProcessor`, without the channel it reports to. -/
structure PacketProcessor (C : ProcessorCrates) where
  nodeDb : NodeDb C.time
  topology : MeshTopology C.topology

/-- What the handling of a frame reads besides the frame: two clocks, and the orders in which
hash maps are visited. -/
structure Moment (C : ProcessorCrates) where
  instant : Nat
  timestamp : C.time.Timestamp
  links : Iteration C.topology
  nodes : Table.Iteration UInt32 (MeshNode C.time)

/-- A list of links to be observed: source, destination and SNR. -/
abbrev Observations := List (UInt32 × UInt32 × UInt32)

/-- `update_link` for one link after another. -/
def MeshTopology.updateLinks (t : MeshTopology C.topology) (m : Moment C)
    (observed : Observations) :
    Option (MeshTopology C.topology) :=
  observed.foldlM (fun t x => t.updateLink m.links x.1 x.2.1 x.2.2 m.instant) t

/-- The links along a path, the `i`-th with the `i`-th SNR, or 0.0. -/
def linksAlong (path : List UInt32) (snrs : List ℤ) : Observations :=
  (path.zip path.tail).zipIdx.map fun x => (x.1.1, x.1.2, ((snrs[x.2]?).map f32OfInt).getD 0)

namespace PacketProcessor

/-! ## Handlers -/

/-- `apply_passive_learning`. -/
def applyPassiveLearning (p : PacketProcessor C) (m : Moment C) (packet : MeshPacket)
    (sender : UInt32) :
    Option (PacketProcessor C) :=
  let snr := unlessZero f32IsZero packet.rxSnr
  let hopCount := hopCountFromWire packet.hopStart packet.hopLimit
  let node := (p.nodeDb.get sender).getD (.bare sender)
  let db := p.nodeDb.insert m.nodes { node with
    lastHeard := some m.timestamp
    snr := snr.or node.snr
    hopCount := hopCount.or node.hopCount }
  -- A direct packet is a link to the own node.
  match hopCount, db.myNode, snr with
  | some 0, some myNode, some s =>
      (p.topology.updateLink m.links sender myNode s m.instant).map fun t => ⟨db, t⟩
  | _, _, _ => some { p with nodeDb := db }

/-- `handle_nodeinfo`. -/
def handleNodeinfo (p : PacketProcessor C) (m : Moment C) (sender : UInt32) (payload : Bytes) :
    Option (PacketProcessor C × List MeshEvent) :=
  match C.decodeUser payload with
  | none => some (p, [])
  | some userProto =>
      let user := userInfo userProto
      let isNew := ((p.nodeDb.get sender).bind MeshNode.user).isNone
      let node := (p.nodeDb.get sender).getD (.bare sender)
      let db :=
        p.nodeDb.insert m.nodes { node with user := some user, lastHeard := some m.timestamp }
      (p.topology.addNode m.links sender).map fun t =>
        (⟨db, t⟩, if isNew then
          [.nodeDiscovered sender (some user.shortName) (((db.get sender).bind MeshNode.snr).getD 0)
            (((db.get sender).bind MeshNode.hopCount).getD 0)]
          else [])

/-- `handle_position`: coordinates off the map are discarded. -/
def handlePosition (p : PacketProcessor C) (m : Moment C) (sender : UInt32) (payload : Bytes) :
    PacketProcessor C × List MeshEvent :=
  match C.decodePosition payload with
  | none => (p, [])
  | some posProto =>
      let position := nodePosition posProto
      match coordinatesNew position.latitude position.longitude with
      | .error _ => (p, [])
      | .ok _ =>
          let node := (p.nodeDb.get sender).getD (.bare sender)
          let db := p.nodeDb.insert m.nodes
            { node with position := some position, lastHeard := some m.timestamp }
          ({ p with nodeDb := db },
            [.positionUpdate sender position.latitude position.longitude
              (position.altitude.map f32OfInt)])

/-- `handle_telemetry`. -/
def handleTelemetry (p : PacketProcessor C) (m : Moment C) (sender : UInt32) (payload : Bytes) :
    PacketProcessor C × List MeshEvent :=
  match C.decodeTelemetry payload with
  | some (some dm) =>
      let ifPos (x : UInt32) := if f32IsPos x then some x else none
      let metrics : DeviceMetrics := ⟨if 0 < dm.batteryLevel then some dm.batteryLevel else none,
        ifPos dm.voltage, ifPos dm.channelUtilization, ifPos dm.airUtilTx⟩
      let p := match p.nodeDb.get sender with
        | some existing =>
            let updated := { existing with metrics := some metrics, lastHeard := some m.timestamp }
            { p with nodeDb := p.nodeDb.insert m.nodes updated }
        | none => p
      (p, [.telemetryUpdate sender metrics.batteryLevel metrics.voltage])
  | _ => (p, [])

/-- The links of a neighbour report. -/
def reported (ni : NeighborInfo) (sender : UInt32) : Observations :=
  ni.neighbors.map fun n => (sender, n.nodeId, n.snr)

/-- `handle_neighborinfo`: a report under another number than the sender's is dropped. -/
def handleNeighborinfo (p : PacketProcessor C) (m : Moment C) (sender : UInt32) (payload : Bytes) :
    Option (PacketProcessor C × List MeshEvent) :=
  match C.decodeNeighborInfo payload with
  | none => some (p, [])
  | some ni =>
      if ni.nodeId ≠ sender then some (p, [])
      else do
        let t ← p.topology.addNode m.links sender
        let t ← t.updateLinks m (reported ni sender)
        some ({ p with topology := t },
          (reported ni sender).map fun x => .topologyChange x.1 x.2.1 x.2.2)

/-- `handle_traceroute`. -/
def handleTraceroute (p : PacketProcessor C) (m : Moment C) (sender : UInt32) (packet : MeshPacket)
    (payload : Bytes) : Option (PacketProcessor C × List MeshEvent) :=
  match C.decodeRouteDiscovery payload with
  | none => some (p, [])
  | some route => do
      let dest := packet.toNode
      let path := sender :: (route.route ++ [dest])
      let t ← path.foldlM (fun t node => t.addNode m.links node) p.topology
      let t ← t.updateLinks m (linksAlong path route.snrTowards)
      let t ← if route.back.isEmpty then some t
        else t.updateLinks m (linksAlong (dest :: (route.back ++ [sender])) route.snrBack)
      some ({ p with topology := t },
        (linksAlong path route.snrTowards).map fun x => .topologyChange x.1 x.2.1 x.2.2)

/-- `process_mesh_packet`; `none` is a panic. -/
def processMeshPacket (p : PacketProcessor C) (m : Moment C) (packet : MeshPacket) :
    Option (PacketProcessor C × List MeshEvent) :=
  match (ClaimedNodeNum.fromWire packet.fromNode).map ClaimedNodeNum.acceptUnauthenticated with
  | none => some (p, [])
  | some sender => do
      let p ← p.applyPassiveLearning m packet sender
      match packet.payloadVariant with
      | some (.decoded decoded) =>
          if decoded.portnum = Portnum.nodeinfoApp then p.handleNodeinfo m sender decoded.payload
          else if decoded.portnum = Portnum.positionApp then
            some (p.handlePosition m sender decoded.payload)
          else if decoded.portnum = Portnum.telemetryApp then
            some (p.handleTelemetry m sender decoded.payload)
          else if decoded.portnum = Portnum.neighborinfoApp then
            p.handleNeighborinfo m sender decoded.payload
          else if decoded.portnum = Portnum.tracerouteApp then
            p.handleTraceroute m sender packet decoded.payload
          -- Acknowledgements are the router's.
          else if decoded.portnum = Portnum.routingApp then some (p, [])
          else some (p, [])
      | _ => some (p, [])

/-! ## What a packet may name -/

/-- The link of a direct packet does not lead to a sentinel. -/
def LinksToNode (p : PacketProcessor C) (packet : MeshPacket) : Prop :=
  hopCountFromWire packet.hopStart packet.hopLimit = some 0 → f32IsZero packet.rxSnr = false →
    C.topology.isFinite packet.rxSnr = true → ∀ num, p.nodeDb.myNode = some num → ¬IsSentinel num

/-- The neighbours whose SNR is finite are no sentinels. -/
def NeighborInfo.NamesNodes (C : ProcessorCrates) (ni : NeighborInfo) : Prop :=
  ∀ n ∈ ni.neighbors, C.topology.isFinite n.snr = true → ¬IsSentinel n.nodeId

/-- The payload of a report or a trace names no sentinel that would become a vertex. -/
def PayloadNamesNodes (C : ProcessorCrates) (packet : MeshPacket) (decoded : Data) : Prop :=
  (decoded.portnum = Portnum.neighborinfoApp →
    ∀ ni, C.decodeNeighborInfo decoded.payload = some ni →
    ni.nodeId = packet.fromNode → NeighborInfo.NamesNodes C ni) ∧
  (decoded.portnum = Portnum.tracerouteApp →
    ∀ route, C.decodeRouteDiscovery decoded.payload = some route →
    ∀ num ∈ packet.toNode :: (route.route ++ route.back), ¬IsSentinel num)

/-- A packet is dropped for its sender, or what it makes a vertex is no sentinel. -/
def Admissible (p : PacketProcessor C) (packet : MeshPacket) : Prop :=
  ¬IsSentinel packet.fromNode → p.LinksToNode packet ∧
    ∀ decoded, packet.payloadVariant = some (.decoded decoded) → PayloadNamesNodes C packet decoded

end PacketProcessor

/-! ## What a packet preserves -/

/-- The vertices of a consistent topology are nodes. -/
structure MeshTopology.Placed (t : MeshTopology C.topology) : Prop where
  consistent : t.Consistent
  named : t.Named fun num => ¬IsSentinel num

namespace MeshTopology

variable {t : MeshTopology C.topology} {path : List UInt32}

theorem placed_new : (new : MeshTopology C.topology).Placed := ⟨consistent_new, named_new⟩

theorem Placed.addNode (h : t.Placed) (it : Iteration C.topology) {node : UInt32}
    (hnode : ¬IsSentinel node) :
    ∃ t', t.addNode it node = some t' ∧ t'.Placed := by
  obtain ⟨t', hadd, h', -⟩ := h.consistent.step ⟨0, it, .addNode node⟩
  exact ⟨t', hadd, h', h.named.addNode hnode hadd⟩

theorem Placed.addNodes (h : t.Placed) (it : Iteration C.topology)
    (hpath : ∀ node ∈ path, ¬IsSentinel node) :
    ∃ t', path.foldlM (fun t node => t.addNode it node) t = some t' ∧ t'.Placed :=
  Machine.exists_run_of_meets (P := fun _ node => ¬IsSentinel node) (fun _ _ h => h.addNode it) h
    (Machine.meets_of_forall_mem (fun node hmem _ => hpath node hmem) t)

/-- Links that are not rejected join nodes. -/
def JoinsNodes (C : ProcessorCrates) (x : UInt32 × UInt32 × UInt32) : Prop :=
  C.topology.isFinite x.2.2 = true → ¬IsSentinel x.1 ∧ ¬IsSentinel x.2.1

theorem Placed.updateLink (h : t.Placed) (m : Moment C) {x : UInt32 × UInt32 × UInt32}
    (hx : JoinsNodes C x) :
    ∃ t', t.updateLink m.links x.1 x.2.1 x.2.2 m.instant = some t' ∧ t'.Placed := by
  obtain ⟨t', hupdate, h', -⟩ := h.consistent.step ⟨m.instant, m.links, .updateLink x.1 x.2.1 x.2.2⟩
  exact ⟨t', hupdate, h', h.named.updateLink hx hupdate⟩

theorem Placed.updateLinks (h : t.Placed) (m : Moment C) {observed : Observations}
    (hobserved : ∀ x ∈ observed, JoinsNodes C x) :
    ∃ t', t.updateLinks m observed = some t' ∧ t'.Placed :=
  Machine.exists_run_of_meets (P := fun _ x => JoinsNodes C x) (fun _ _ h => h.updateLink m) h
    (Machine.meets_of_forall_mem (fun x hmem _ => hobserved x hmem) t)

/-- A link along a path joins two of its nodes. -/
theorem mem_of_mem_linksAlong {snrs : List ℤ} {x : UInt32 × UInt32 × UInt32}
    (hx : x ∈ linksAlong path snrs) : x.1 ∈ path ∧ x.2.1 ∈ path := by
  obtain ⟨⟨⟨a, b⟩, i⟩, hmem, rfl⟩ := List.mem_map.mp hx
  have hzip : (a, b) ∈ path.zip path.tail := List.fst_mem_of_mem_zipIdx hmem
  exact ⟨(List.of_mem_zip hzip).1, List.mem_of_mem_tail (List.of_mem_zip hzip).2⟩

theorem Placed.linksAlong (h : t.Placed) (m : Moment C) (snrs : List ℤ)
    (hpath : ∀ node ∈ path, ¬IsSentinel node) :
    ∃ t', t.updateLinks m (linksAlong path snrs) = some t' ∧ t'.Placed := by
  refine h.updateLinks m fun x hx _ => ?_
  obtain ⟨hsrc, hdst⟩ := mem_of_mem_linksAlong hx
  exact ⟨hpath _ hsrc, hpath _ hdst⟩

end MeshTopology

namespace PacketProcessor

/-- The records are valid and the vertices are nodes. -/
structure Sound (p : PacketProcessor C) : Prop where
  clean : p.nodeDb.Clean
  placed : p.topology.Placed

variable {p : PacketProcessor C} {m : Moment C} {sender : UInt32} {packet : MeshPacket}

/-- A packet heard is a record inserted: of its sender, with the time of the clock. -/
theorem nodeDb_applyPassiveLearning {p' : PacketProcessor C}
    (h : p.applyPassiveLearning m packet sender = some p') :
    ∃ node, p'.nodeDb = p.nodeDb.insert m.nodes node ∧
      node.num = ((p.nodeDb.get sender).getD (.bare sender)).num ∧
      node.lastHeard = some m.timestamp := by
  unfold PacketProcessor.applyPassiveLearning at h
  dsimp only at h
  split at h
  · obtain ⟨t, -, rfl⟩ := Option.map_eq_some_iff.mp h
    exact ⟨_, rfl, rfl, rfl⟩
  · obtain rfl := Option.some.inj h
    exact ⟨_, rfl, rfl, rfl⟩

/-- **Passive learning**: the hop count is checked, and a link leads to the own node. -/
theorem Sound.applyPassiveLearning (h : p.Sound) (hsender : ¬IsSentinel sender)
    (hlink : p.LinksToNode packet) :
    ∃ p', p.applyPassiveLearning m packet sender = some p' ∧ p'.Sound := by
  unfold PacketProcessor.applyPassiveLearning
  dsimp only
  generalize hdb : p.nodeDb.insert m.nodes _ = db
  obtain ⟨hnum, hvalid⟩ := h.clean.getD_bare hsender
  have hclean : db.Clean := by
    rw [← hdb]
    exact h.clean.insert (hvalid.heard rfl rfl rfl)
  have hmy : db.myNode = p.nodeDb.myNode := by rw [← hdb, NodeDb.myNode_insert]
  split
  · next myNode s hhops hmyNode hsnr =>
    have hlinked : MeshTopology.JoinsNodes C (sender, myNode, s) := by
      intro hfinite
      simp only [unlessZero] at hsnr
      split at hsnr
      · cases hsnr
      · next hzero =>
        obtain rfl := Option.some.inj hsnr
        exact ⟨hsender, hlink hhops (by simpa using hzero) hfinite myNode (hmy ▸ hmyNode)⟩
    obtain ⟨t, ht, hplaced⟩ := h.placed.updateLink m hlinked
    exact ⟨⟨db, t⟩, by rw [ht, Option.map_some], hclean, hplaced⟩
  · exact ⟨_, rfl, hclean, h.placed⟩

/-- **Node info**: neither the hop count nor the position of the record changes. -/
theorem Sound.handleNodeinfo (h : p.Sound) (hsender : ¬IsSentinel sender) (payload : Bytes) :
    ∃ p' events, p.handleNodeinfo m sender payload = some (p', events) ∧ p'.Sound := by
  unfold PacketProcessor.handleNodeinfo
  cases C.decodeUser payload with
  | none => exact ⟨p, [], rfl, h⟩
  | some user =>
      obtain ⟨t, ht, hplaced⟩ := h.placed.addNode m.links hsender
      have hvalid := (h.clean.getD_bare hsender).2
      rw [ht]
      exact ⟨_, _, rfl, h.clean.insert (hvalid.congr rfl rfl rfl), hplaced⟩

/-- What `Coordinates::new` accepts comes from coordinates in range. -/
theorem onMap_of_coordinatesNew {position : Position} {coordinates : Semaino.Coordinates}
    (h : coordinatesNew (degrees position.latitudeI) (degrees position.longitudeI) =
      .ok coordinates) :
    (nodePosition position : NodePosition C.time).OnMap := by
  unfold coordinatesNew at h
  split at h
  · cases h
  · split at h
    · cases h
    · next hlat hlon =>
      rw [not_not, ← abs_le] at hlat hlon
      exact Position.InRange.onMap
        ⟨abs_le_of_abs_degrees_le (show 90 ≤ 180 by decide) (by exact_mod_cast hlat),
          abs_le_of_abs_degrees_le (Nat.le_refl 180) (by exact_mod_cast hlon)⟩

/-- **Position**: what is stored was checked. -/
theorem Sound.handlePosition (h : p.Sound) (hsender : ¬IsSentinel sender) (payload : Bytes) :
    (p.handlePosition m sender payload).1.Sound := by
  unfold PacketProcessor.handlePosition
  cases C.decodePosition payload with
  | none => exact h
  | some position =>
      dsimp only
      split
      · exact h
      · next hnew =>
        have hvalid := (h.clean.getD_bare hsender).2
        refine ⟨h.clean.insert ⟨hvalid.num, hvalid.hops, fun q hq => ?_⟩, h.placed⟩
        obtain rfl := Option.some.inj hq
        exact onMap_of_coordinatesNew hnew

/-- **Telemetry**: only metrics are stored. -/
theorem Sound.handleTelemetry (h : p.Sound) (payload : Bytes) :
    (p.handleTelemetry m sender payload).1.Sound := by
  unfold PacketProcessor.handleTelemetry
  split
  · dsimp only
    split
    · next existing hget =>
      exact ⟨h.clean.insert ((h.clean sender existing hget).2.congr rfl rfl rfl), h.placed⟩
    · exact h
  · exact h

/-- **Neighbour report**: the neighbours with a finite SNR become vertices. -/
theorem Sound.handleNeighborinfo (h : p.Sound) (hsender : ¬IsSentinel sender) {payload : Bytes}
    (hnames : ∀ ni, C.decodeNeighborInfo payload = some ni → ni.nodeId = sender →
      NeighborInfo.NamesNodes C ni) :
    ∃ p' events, p.handleNeighborinfo m sender payload = some (p', events) ∧ p'.Sound := by
  unfold PacketProcessor.handleNeighborinfo
  cases hdecode : C.decodeNeighborInfo payload with
  | none => exact ⟨p, [], rfl, h⟩
  | some ni =>
      dsimp only
      split
      · exact ⟨p, [], rfl, h⟩
      · next hid =>
        have hjoins : ∀ x ∈ reported ni sender, MeshTopology.JoinsNodes C x := by
          intro x hx hfinite
          obtain ⟨n, hn, rfl⟩ := List.mem_map.mp hx
          exact ⟨hsender, hnames ni hdecode (not_not.mp hid) n hn hfinite⟩
        obtain ⟨t₁, ht₁, hplaced₁⟩ := h.placed.addNode m.links hsender
        obtain ⟨t₂, ht₂, hplaced₂⟩ := hplaced₁.updateLinks m hjoins
        exact ⟨{ p with topology := t₂ }, _, by simp [ht₁, ht₂]; rfl, h.clean, hplaced₂⟩

/-- **Trace**: every hop and the address of the packet become vertices. -/
theorem Sound.handleTraceroute (h : p.Sound) (hsender : ¬IsSentinel sender)
    {payload : Bytes}
    (hnames : ∀ route, C.decodeRouteDiscovery payload = some route →
      ∀ num ∈ packet.toNode :: (route.route ++ route.back), ¬IsSentinel num) :
    ∃ p' events, p.handleTraceroute m sender packet payload = some (p', events) ∧ p'.Sound := by
  unfold PacketProcessor.handleTraceroute
  cases hdecode : C.decodeRouteDiscovery payload with
  | none => exact ⟨p, [], rfl, h⟩
  | some route =>
      have hnum := hnames route hdecode
      have hpath : ∀ node ∈ sender :: (route.route ++ [packet.toNode]), ¬IsSentinel node := by
        grind
      have hback : ∀ node ∈ packet.toNode :: (route.back ++ [sender]), ¬IsSentinel node := by
        grind
      obtain ⟨t₁, ht₁, hplaced₁⟩ := h.placed.addNodes m.links hpath
      obtain ⟨t₂, ht₂, hplaced₂⟩ := hplaced₁.linksAlong m route.snrTowards hpath
      obtain ⟨t₃, ht₃, hplaced₃⟩ := hplaced₂.linksAlong m route.snrBack hback
      simp only [ht₁, ht₂, Option.bind_eq_bind, Option.bind_some]
      split
      · exact ⟨_, _, rfl, h.clean, hplaced₂⟩
      · rw [ht₃]
        exact ⟨_, _, rfl, h.clean, hplaced₃⟩

/-- **Packet**: an admissible packet is processed without a panic and does no harm. -/
theorem Sound.processMeshPacket (h : p.Sound) (m : Moment C)
    (hadm : p.Admissible packet) :
    ∃ p' events, p.processMeshPacket m packet = some (p', events) ∧ p'.Sound := by
  unfold PacketProcessor.processMeshPacket
  rw [ClaimedNodeNum.map_fromWire]
  by_cases hsender : IsSentinel packet.fromNode
  · exact ⟨p, [], by rw [if_pos hsender], h⟩
  obtain ⟨hlink, hpayload⟩ := hadm hsender
  obtain ⟨p₁, hlearn, h₁⟩ := h.applyPassiveLearning (m := m) hsender hlink
  simp only [if_neg hsender, hlearn, Option.bind_eq_bind, Option.bind_some]
  split
  · next decoded hdecoded =>
    obtain ⟨hneighbor, htrace⟩ := hpayload decoded hdecoded
    split
    · exact h₁.handleNodeinfo hsender decoded.payload
    split
    · exact ⟨_, _, rfl, h₁.handlePosition hsender decoded.payload⟩
    split
    · exact ⟨_, _, rfl, h₁.handleTelemetry decoded.payload⟩
    split
    · next hport => exact h₁.handleNeighborinfo hsender (hneighbor hport)
    split
    · next hport => exact h₁.handleTraceroute hsender (htrace hport)
    split <;> exact ⟨p₁, [], rfl, h₁⟩
  · exact ⟨p₁, [], rfl, h₁⟩

end PacketProcessor

end Akroasis.Mesh
