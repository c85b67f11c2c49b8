import Akroasis.Mesh.Proto
import Akroasis.Mesh.Topology
import Akroasis.Rounding

/-!
# Akroasis.Mesh.NodeDb

The node database (`node_db.rs`), the checks on wire values (`types.rs`) and the conversion
of a `NodeInfo` message to a node record (`node_info_to_mesh_node` of `handshake.rs`).

`MeshNode.Valid` is what the checks are for: the number is one a node can have, the hop
count is one the protocol can produce, and the position is on the map.  The conversion
makes none of these checks, so its result is valid if the message is `InRange`.
-/

namespace Akroasis.Mesh

/-! ## Wire values -/

/-- `BROADCAST_ADDR`. -/
def broadcastAddr : UInt32 := 0xFFFFFFFF

/-- The two numbers that are no node: unset and broadcast. -/
def IsSentinel (num : UInt32) : Prop := num = 0 ∨ num = broadcastAddr

instance : DecidablePred IsSentinel :=
  fun num => inferInstanceAs (Decidable (num = 0 ∨ num = broadcastAddr))

/-- A node number as claimed by a packet, which is not a sentinel. -/
def ClaimedNodeNum : Type := { num : UInt32 // ¬IsSentinel num }

/-- `from_wire`. -/
def ClaimedNodeNum.fromWire (raw : UInt32) : Option ClaimedNodeNum :=
  if h : IsSentinel raw then none else some ⟨raw, h⟩

/-- `accept_unauthenticated`. -/
def ClaimedNodeNum.acceptUnauthenticated (claimed : ClaimedNodeNum) : UInt32 := claimed.val

theorem ClaimedNodeNum.map_fromWire (raw : UInt32) :
    (fromWire raw).map acceptUnauthenticated = if IsSentinel raw then none else some raw := by
  unfold fromWire
  split <;> rfl

/-- `hop_count_from_wire`. -/
def hopCountFromWire (hopStart hopLimit : UInt32) : Option UInt8 :=
  if hopStart = 0 ∨ hopStart < hopLimit then none
  else
    let hops := hopStart - hopLimit
    (if hops.toNat < 256 then some hops.toUInt8 else none).filter fun hops =>
      decide (hops ≤ maxHopLimit)

theorem hopCountFromWire_le {hopStart hopLimit : UInt32} {hops : UInt8}
    (h : hopCountFromWire hopStart hopLimit = some hops) : hops ≤ maxHopLimit := by
  unfold hopCountFromWire at h
  split at h
  · cases h
  · exact of_decide_eq_true (Option.filter_eq_some_iff.mp h).2

/-! ## Floating point -/

/-- `x == 0.0` for the bits of an `f32`, of either sign. -/
def f32IsZero (bits : UInt32) : Bool := bits &&& 0x7FFFFFFF == 0

/-- `x > 0.0` for the bits of an `f32`. -/
def f32IsPos (bits : UInt32) : Bool := decide (0 < bits ∧ bits ≤ 0x7F800000)

/-- `n as f32`: the bits of the nearest value of 24 binary digits. -/
def f32OfInt (n : ℤ) : UInt32 :=
  if n = 0 then 0
  else
    let magnitude := |roundTo 24 n|
    let exponent := Int.log 2 magnitude
    let sign := if n < 0 then 2 ^ 31 else 0
    UInt32.ofNat (sign + (exponent + 126).toNat * 2 ^ 23 + ⌊magnitude * 2 ^ (23 - exponent)⌋.toNat)

example :
    f32OfInt 1 = 0x3F800000 ∧ f32OfInt (-20) = 0xC1A00000 ∧ f32OfInt (2 ^ 24 + 1) = 0x4B800000 := by
  decide +kernel

/-- `f64::from(fixed) * 1e-7`, the degrees of a fixed-point coordinate. -/
def degrees (fixed : ℤ) : ℚ := roundTo 53 (fixed * roundTo 53 (1 / 10 ^ 7))

/-- Rounding does not bring a coordinate from outside of a range of degrees into it. -/
theorem abs_le_of_abs_degrees_le {fixed : ℤ} {bound : Nat} (hbound : bound ≤ 180)
    (h : |degrees fixed| ≤ bound) : |fixed| ≤ bound * 10 ^ 7 := by
  by_contra hlarge
  have hfixed : (bound * 10 ^ 7 + 1 : ℚ) ≤ |(fixed : ℚ)| := by
    rw [← Int.cast_abs]
    exact_mod_cast (show (bound * 10 ^ 7 + 1 : ℤ) ≤ |fixed| by omega)
  have hkept : |(fixed : ℚ)| * (1 / 10 ^ 7) * (1 - 1 / 2 ^ 53) ^ 2 ≤ bound := by
    have hdegrees := abs_mul_abs_le_abs_roundTo_mul 53 fixed (1 / 10 ^ 7)
    rw [abs_of_pos (show (0 : ℚ) < 1 / 10 ^ 7 by norm_num)] at hdegrees
    exact hdegrees.trans h
  have hle : (bound : ℚ) ≤ 180 := by exact_mod_cast hbound
  norm_num at hkept
  linarith

/-! ## Messages -/

/-- `proto::Position`, with coordinates in units of 1e-7 degrees. -/
structure Position where
  latitudeI : ℤ
  longitudeI : ℤ
  altitude : ℤ
  time : UInt32
  deriving DecidableEq

/-- `proto::User`. -/
structure User where
  id : String
  longName : String
  shortName : String
  hwModel : ℤ
  isLicensed : Bool
  deriving DecidableEq

/-- `proto::NodeInfo`; `snr` is the bits of an `f32`. -/
structure NodeInfo where
  num : UInt32
  user : Option User
  position : Option Position
  snr : UInt32
  lastHeard : UInt32
  hopsAway : UInt32
  deriving DecidableEq

/-! ## Node records -/

/-- Time stamps of the `jiff` crate. -/
structure Timestamps where
  Timestamp : Type
  fromSecond : ℤ → Option Timestamp
  asMillisecond : Timestamp → ℤ

/-- `UserInfo`. -/
structure UserInfo where
  id : String
  longName : String
  shortName : String
  hwModel : UInt32
  isLicensed : Bool
  deriving DecidableEq

/-- `NodePosition`. -/
structure NodePosition (J : Timestamps) where
  latitude : ℚ
  longitude : ℚ
  altitude : Option ℤ
  timestamp : Option J.Timestamp

/-- `DeviceMetrics`. -/
structure DeviceMetrics where
  batteryLevel : Option UInt32
  voltage : Option UInt32
  channelUtilization : Option UInt32
  airUtilTx : Option UInt32

/-- A node observed on the mesh network. -/
structure MeshNode (J : Timestamps) where
  num : UInt32
  user : Option UserInfo
  position : Option (NodePosition J)
  metrics : Option DeviceMetrics
  lastHeard : Option J.Timestamp
  snr : Option UInt32
  hopCount : Option UInt8

variable {J : Timestamps}

/-- The record of a node nothing is known of. -/
def MeshNode.bare (num : UInt32) : MeshNode J := ⟨num, none, none, none, none, none, none⟩

/-- A value and its sentinel for unset. -/
def unlessZero {A : Type} (isZero : A → Bool) (a : A) : Option A :=
  if isZero a then none else some a

/-- The record of a user; a hardware model out of range is recorded as unset. -/
def userInfo (u : User) : UserInfo :=
  ⟨u.id, u.longName, u.shortName, if 0 ≤ u.hwModel then UInt32.ofNat u.hwModel.toNat else 0,
    u.isLicensed⟩

/-- The record of a position; nothing is checked here. -/
def nodePosition (p : Position) : NodePosition J :=
  ⟨degrees p.latitudeI, degrees p.longitudeI, unlessZero (· == 0) p.altitude,
    J.fromSecond p.time.toNat⟩

/-- `node_info_to_mesh_node`. -/
def nodeInfoToMeshNode (ni : NodeInfo) : MeshNode J where
  num := ni.num
  user := ni.user.map userInfo
  position := ni.position.map nodePosition
  metrics := none
  lastHeard := if ni.lastHeard = 0 then none else J.fromSecond ni.lastHeard.toNat
  snr := unlessZero f32IsZero ni.snr
  -- `as u8`: the low eight bits
  hopCount := some ni.hopsAway.toUInt8

/-! ## The database -/

/-- `NodeDb`. -/
structure NodeDb (J : Timestamps) where
  nodes : Table UInt32 (MeshNode J)
  myNode : Option UInt32

namespace NodeDb

/-- `new`. -/
def new : NodeDb J := ⟨∅, none⟩

/-- `get`. -/
def get (db : NodeDb J) (num : UInt32) : Option (MeshNode J) := db.nodes.lookup num

/-- `set_my_node`. -/
def setMyNode (db : NodeDb J) (num : UInt32) : NodeDb J := { db with myNode := some num }

/-- `evict_stalest`: the node heard least recently goes, but never the own one. -/
def evictStalest (db : NodeDb J) (it : Table.Iteration UInt32 (MeshNode J)) : NodeDb J :=
  let candidates := (db.nodes.visit it).filter fun p => decide (some p.1 ≠ db.myNode)
  let heard (node : MeshNode J) : Int := (node.lastHeard.map J.asMillisecond).getD (-2 ^ 63)
  -- `min_by_key`: a later candidate takes the place of the best one so far if it is older
  match candidates.foldl (List.argAux fun p q => heard p.2 < heard q.2) none with
  | some (num, _) => { db with nodes := db.nodes.erase num }
  | none => db

/-- `insert`. -/
def insert (db : NodeDb J) (it : Table.Iteration UInt32 (MeshNode J)) (node : MeshNode J) :
    NodeDb J :=
  let db :=
    if (db.get node.num).isNone && decide (maxLiveNodes ≤ db.nodes.size) then db.evictStalest it
    else db
  { db with nodes := db.nodes.insert node.num node }

end NodeDb

/-! ## Valid records -/

/-- The coordinates come from fixed-point ones within the range of latitudes and longitudes. -/
def NodePosition.OnMap (p : NodePosition J) : Prop :=
  ∃ latitudeI longitudeI : ℤ, |latitudeI| ≤ 90 * 10 ^ 7 ∧ |longitudeI| ≤ 180 * 10 ^ 7 ∧
    p.latitude = degrees latitudeI ∧ p.longitude = degrees longitudeI

/-- What a record may say. -/
structure MeshNode.Valid (node : MeshNode J) : Prop where
  num : ¬IsSentinel node.num
  hops : ∀ hops, node.hopCount = some hops → hops ≤ maxHopLimit
  position : ∀ p, node.position = some p → p.OnMap

/-- Every record is valid and keyed by its own number. -/
def NodeDb.Clean (db : NodeDb J) : Prop :=
  ∀ num node, db.get num = some node → node.num = num ∧ node.Valid

/-- Fixed-point coordinates within the range of latitudes and longitudes. -/
def Position.InRange (p : Position) : Prop :=
  |p.latitudeI| ≤ 90 * 10 ^ 7 ∧ |p.longitudeI| ≤ 180 * 10 ^ 7

/-- A message whose record is valid. -/
structure NodeInfo.InRange (ni : NodeInfo) : Prop where
  num : ¬IsSentinel ni.num
  hops : ni.hopsAway.toUInt8 ≤ maxHopLimit
  position : ∀ p, ni.position = some p → p.InRange

theorem Position.InRange.onMap {p : Position} (h : p.InRange) :
    (nodePosition p : NodePosition J).OnMap :=
  ⟨p.latitudeI, p.longitudeI, h.1, h.2, rfl, rfl⟩

theorem NodeInfo.InRange.valid {ni : NodeInfo} (h : ni.InRange) :
    (nodeInfoToMeshNode ni : MeshNode J).Valid where
  num := h.num
  hops hops hhops := Option.some.inj hhops ▸ h.hops
  position p hp := by
    obtain ⟨q, hq, rfl⟩ := Option.map_eq_some_iff.mp hp
    exact (h.position q hq).onMap

theorem MeshNode.valid_bare {num : UInt32} (h : ¬IsSentinel num) :
    (bare num : MeshNode J).Valid where
  num := h
  hops hops hhops := by cases hhops
  position p hp := by cases hp

/-- A record with the same number, hop count and position is as valid. -/
theorem MeshNode.Valid.congr {node node' : MeshNode J} (h : node.Valid)
    (hnum : node'.num = node.num) (hhops : node'.hopCount = node.hopCount)
    (hposition : node'.position = node.position) : node'.Valid where
  num := hnum ▸ h.num
  hops := hhops ▸ h.hops
  position := hposition ▸ h.position

/-- A hop count from the wire, if there is one, keeps a record valid. -/
theorem MeshNode.Valid.heard {node node' : MeshNode J} (h : node.Valid) {hopStart hopLimit : UInt32}
    (hnum : node'.num = node.num)
    (hhops : node'.hopCount = (hopCountFromWire hopStart hopLimit).or node.hopCount)
    (hposition : node'.position = node.position) : node'.Valid where
  num := hnum ▸ h.num
  hops hops heq := by
    obtain hwire | ⟨-, hold⟩ := Option.or_eq_some_iff.mp (hhops ▸ heq)
    · exact hopCountFromWire_le hwire
    · exact h.hops hops hold
  position := hposition ▸ h.position

namespace NodeDb

variable {db : NodeDb J} {it : Table.Iteration UInt32 (MeshNode J)}

/-- Every record has a property and is keyed by its own number. -/
def Every (P : MeshNode J → Prop) (db : NodeDb J) : Prop :=
  ∀ num node, db.get num = some node → node.num = num ∧ P node

variable {P : MeshNode J → Prop}

theorem every_new : (new : NodeDb J).Every P := by simp [Every, get, new]

theorem clean_new : (new : NodeDb J).Clean := every_new

/-- An eviction adds nothing. -/
theorem get_of_get_evictStalest {num : UInt32} {stored : MeshNode J}
    (h : (db.evictStalest it).get num = some stored) : db.get num = some stored := by
  unfold NodeDb.evictStalest at h
  dsimp only at h
  split at h
  · rw [get, Table.lookup_erase_ite] at h
    split at h
    · cases h
    · exact h
  · exact h

/-- A record that is found was there before or has just been inserted. -/
theorem get_insert_some {node other : MeshNode J} {num : UInt32}
    (h : (db.insert it node).get num = some other) :
    num = node.num ∧ other = node ∨ num ≠ node.num ∧ db.get num = some other := by
  rw [NodeDb.insert, get, Table.lookup_insert_ite] at h
  split at h
  · next hnum => exact .inl ⟨hnum, (Option.some.inj h).symm⟩
  · next hnum =>
    refine .inr ⟨hnum, ?_⟩
    split at h
    · exact get_of_get_evictStalest h
    · exact h

theorem myNode_insert (db : NodeDb J) (it : Table.Iteration UInt32 (MeshNode J))
    (node : MeshNode J) :
    (db.insert it node).myNode = db.myNode := by
  simp only [NodeDb.insert, NodeDb.evictStalest]
  split
  · split <;> rfl
  · rfl

/-- **Insert**: a record is stored under its own number. -/
theorem Every.insert (h : db.Every P) {node : MeshNode J} (hnode : P node) :
    (db.insert it node).Every P := by
  intro num stored hget
  obtain ⟨rfl, rfl⟩ | ⟨-, hold⟩ := get_insert_some hget
  · exact ⟨rfl, hnode⟩
  · exact h num stored hold

theorem Clean.insert (h : db.Clean) {node : MeshNode J} (hnode : node.Valid) :
    (db.insert it node).Clean :=
  Every.insert h hnode

/-- **Update**: a record that is found, or a bare one, is valid and has the number asked for. -/
theorem Clean.getD_bare (h : db.Clean) {num : UInt32} (hnum : ¬IsSentinel num) :
    ((db.get num).getD (.bare num)).num = num ∧ ((db.get num).getD (.bare num)).Valid := by
  cases hget : db.get num with
  | none => exact ⟨rfl, MeshNode.valid_bare hnum⟩
  | some node => exact h num node hget

/-! ## Sequences of records -/

variable {node : MeshNode J}

/-- A record that finds its place, or room for one, is stored and nothing else changes. -/
theorem insert_of_room (h : (db.get node.num).isSome ∨ db.nodes.size < maxLiveNodes) :
    db.insert it node = { db with nodes := db.nodes.insert node.num node } := by
  have hstay : ((db.get node.num).isNone && decide (maxLiveNodes ≤ db.nodes.size)) = false := by
    obtain hsome | hroom := h
    · obtain ⟨stored, hstored⟩ := Option.isSome_iff_exists.mp hsome
      simp [hstored]
    · simp [not_le.mpr hroom]
  rw [insert, hstay]
  rfl

theorem get_insert_self (db : NodeDb J) (it : Table.Iteration UInt32 (MeshNode J))
    (node : MeshNode J) :
    (db.insert it node).get node.num = some node := by
  rw [get, insert, Table.lookup_insert_ite, if_pos rfl]

theorem get_insert_of_room (h : (db.get node.num).isSome ∨ db.nodes.size < maxLiveNodes)
    (num : UInt32) :
    (db.insert it node).get num = if num = node.num then some node else db.get num := by
  rw [insert_of_room h, get, Table.lookup_insert_ite]
  rfl

/-- Records inserted one after the other, each with the order in which it finds the nodes. -/
def insertAll (its : Nat → Table.Iteration UInt32 (MeshNode J)) (db : NodeDb J) :
    List (MeshNode J) → NodeDb J
  | [] => db
  | node :: rest => insertAll (fun i => its (i + 1)) (db.insert (its 0) node) rest

theorem myNode_insertAll (its : Nat → Table.Iteration UInt32 (MeshNode J)) (db : NodeDb J)
    (nodes : List (MeshNode J)) : (db.insertAll its nodes).myNode = db.myNode := by
  induction nodes generalizing db its with
  | nil => rfl
  | cons node rest ih => rw [insertAll, ih, myNode_insert]

theorem insertAll_append (its : Nat → Table.Iteration UInt32 (MeshNode J)) (db : NodeDb J)
    (nodes more : List (MeshNode J)) :
    db.insertAll its (nodes ++ more) =
      (db.insertAll its nodes).insertAll (fun i => its (i + nodes.length)) more := by
  induction nodes generalizing db its with
  | nil => rfl
  | cons node rest ih =>
      rw [List.cons_append, insertAll, insertAll, ih, List.length_cons]
      simp only [Nat.add_assoc]

end NodeDb

end Akroasis.Mesh
