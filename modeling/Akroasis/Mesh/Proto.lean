import Akroasis.Bytes

/-!
# Akroasis.Mesh.Proto

The messages of `packet.proto` that the send path builds and routes, and the proto3
encoding of `Data`, the plaintext of every packet: fields in order, default values left
out, integers as base-128 varints.
-/

namespace Akroasis.Mesh

/-- `MAX_PACKET_SIZE`. -/
def maxPacketSize : Nat := 512

/-- `MAX_HOP_LIMIT`. -/
def maxHopLimit : UInt8 := 7

/-! ## Enumerations -/

/-- Errors of the send path. -/
inductive Error where
  | encryption (detail : String)
  | packetIdSpaceExhausted
  | queueFull (dest : UInt32)
  | sendFailed (detail : String)
  deriving DecidableEq

/-- `mesh_packet::Priority`. -/
inductive Priority where
  | unset | min | background | default | reliable | ack | max
  deriving DecidableEq, Repr

/-- `i32::from(priority)`. -/
def Priority.toInt : Priority → Int
  | unset => 0
  | min => 1
  | background => 10
  | default => 64
  | reliable => 70
  | ack => 120
  | max => 127

/-- `Priority::try_from(value)`. -/
def Priority.tryFrom (value : Int) : Option Priority :=
  [unset, min, background, default, reliable, ack, max].find? fun p => p.toInt = value

/-- `PortNum`. -/
inductive PortNum where
  | portNumUnspecified | textMessageApp | positionApp | routingApp | adminApp | tracerouteApp
  deriving DecidableEq, Repr

/-- `i32::from(portnum)`. -/
def PortNum.toInt : PortNum → Int
  | portNumUnspecified => 0
  | textMessageApp => 1
  | positionApp => 3
  | routingApp => 5
  | adminApp => 6
  | tracerouteApp => 70

/-! ## Messages -/

/-- The decoded application payload. -/
structure Data where
  portnum : Int
  payload : Bytes
  wantResponse : Bool
  dest : UInt32
  source : UInt32
  requestId : UInt32
  replyId : UInt32
  emoji : Bytes
  deriving DecidableEq

/-- `mesh_packet::PayloadVariant`. -/
inductive PayloadVariant where
  | decoded (data : Data)
  | encrypted (bytes : Bytes)
  deriving DecidableEq

/-- A mesh packet; `fromNode` and `toNode` are the wire fields `from` and `to`. -/
structure MeshPacket where
  fromNode : UInt32
  toNode : UInt32
  channel : UInt32
  payloadVariant : Option PayloadVariant
  id : UInt32
  rxTime : UInt32
  -- the bits of an `f32`
  rxSnr : UInt32
  hopLimit : UInt32
  wantAck : Bool
  priority : Int
  rxRssi : Int
  viaMqtt : Bool
  hopStart : UInt32
  deriving DecidableEq

/-! ## Encoding -/

/-- The base-128 varint of a 64-bit value, at most `fuel` bytes long. -/
def varint : Nat → Nat → Bytes
  | 0, _ => []
  | fuel + 1, n =>
      if n < 128 then [UInt8.ofNat n]
      else UInt8.ofNat (n % 128 + 128) :: varint fuel (n / 128)

/-- `encode_varint`: ten bytes are enough for a `u64`. -/
def encodeVarint (n : Nat) : Bytes := varint 10 n

/-- A varint field, left out when zero. -/
def varintField (tag : UInt8) (n : Nat) : Bytes := if n = 0 then [] else tag :: encodeVarint n

/-- A length-delimited field, left out when empty. -/
def bytesField (tag : UInt8) (bs : Bytes) : Bytes :=
  if bs = [] then [] else tag :: (encodeVarint bs.length ++ bs)

/-- An `i32` on the wire is its sign extension to 64 bits. -/
def int32 (n : Int) : Nat := (n % 2 ^ 64).toNat

/-- `Data::encode_to_vec`. -/
def Data.encodeToVec (d : Data) : Bytes :=
  varintField 0x08 (int32 d.portnum) ++ bytesField 0x12 d.payload ++
    varintField 0x18 d.wantResponse.toNat ++ varintField 0x20 d.dest.toNat ++
    varintField 0x28 d.source.toNat ++ varintField 0x30 d.requestId.toNat ++
    varintField 0x38 d.replyId.toNat ++ bytesField 0x42 d.emoji

@[simp] theorem varintField_zero (tag : UInt8) : varintField tag 0 = [] := rfl

@[simp] theorem bytesField_nil (tag : UInt8) : bytesField tag [] = [] := rfl

theorem length_varint_le (fuel n : Nat) : (varint fuel n).length ≤ fuel := by
  induction fuel generalizing n with
  | zero => rfl
  | succ fuel ih =>
      unfold varint
      split
      · simp
      · simpa using ih (n / 128)

theorem length_varint_pos (fuel n : Nat) : 0 < (varint (fuel + 1) n).length := by
  unfold varint; split <;> simp

theorem length_encodeVarint {n : Nat} (h : n < 128) : (encodeVarint n).length = 1 := by
  rw [encodeVarint, varint, if_pos h]; rfl

/-- A payload of at most twelve bytes keeps a length-delimited field within fourteen, and
a longer one does not. -/
theorem length_bytesField_le_iff (tag : UInt8) (bs : Bytes) :
    (bytesField tag bs).length ≤ 14 ↔ bs.length ≤ 12 := by
  unfold bytesField
  split
  · next h => simp [h]
  · have hpos : 0 < (encodeVarint bs.length).length := length_varint_pos 9 bs.length
    simp only [List.length_cons, List.length_append]
    constructor
    · omega
    · intro hle
      rw [length_encodeVarint (by omega)]
      omega

end Akroasis.Mesh
