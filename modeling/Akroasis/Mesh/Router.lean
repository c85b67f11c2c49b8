import Akroasis.Mesh.StoreForward

/-!
# Akroasis.Mesh.Router

The message router (`router.rs`): outbound queue, store-and-forward and delivery tracker
behind one lock.  A packet is stored as its encoding; the codec of `prost` is the
parameter `PacketCodec`.

`RouterOp` are the calls that keep every message inside the router.  `next_to_send` hands
one out and `track_sent` takes it back; they stand apart because callers differ in what
they do in between.
-/

namespace Akroasis.Mesh

/-- `MeshPacket::encode_to_vec` and `MeshPacket::decode`. -/
structure PacketCodec where
  encode : MeshPacket → Bytes
  decode : Bytes → Option MeshPacket

/-- What is encoded decodes to a packet with the same id: the part of the codec's round
trip that the router relies on. -/
def PacketCodec.KeepsId (codec : PacketCodec) : Prop :=
  ∀ packet, ∃ decoded, codec.decode (codec.encode packet) = some decoded ∧ decoded.id = packet.id

/-- A text to node 7. -/
def samplePacket (id : UInt32) : MeshPacket where
  fromNode := 0x1234
  toNode := 7
  channel := 0
  payloadVariant := some (.decoded ⟨1, ascii "ok", false, 0, 0, 0, 0, []⟩)
  id := id
  rxTime := 0
  rxSnr := 0
  hopLimit := 3
  wantAck := true
  priority := 70
  rxRssi := 0
  viaMqtt := false
  hopStart := 3

/-- What `prost` writes for it if the id is below 128. -/
def sampleBytes (id : UInt32) : Bytes :=
  [0x08, 0xb4, 0x24, 0x10, 0x07, 0x22, 0x06, 0x08, 0x01, 0x12, 0x02, 0x6f, 0x6b, 0x30, id.toUInt8,
    0x50, 0x03, 0x58, 0x01, 0x60, 0x46, 0x90, 0x01, 0x03]

/-- A small codec that agrees with `prost` on the sample packets. -/
def sampleCodec : PacketCodec where
  encode p :=
    if p = samplePacket p.id ∧ p.id < 128 then sampleBytes p.id else 0 :: leBytes 4 p.id.toNat
  decode
    | 0 :: bs => some (samplePacket (UInt32.ofNat (ofLeBytes bs)))
    | bs => bs[14]?.map fun b => samplePacket b.toUInt32

theorem sampleCodec_keepsId : sampleCodec.KeepsId := by
  intro p
  by_cases h : p = samplePacket p.id ∧ p.id < 128
  · refine ⟨samplePacket p.id.toUInt8.toUInt32, by simp only [sampleCodec, if_pos h]; rfl, ?_⟩
    have hlt : p.id.toNat < 128 := h.2
    refine UInt32.toNat_inj.mp ?_
    change p.id.toUInt8.toUInt32.toNat = p.id.toNat
    rw [UInt8.toNat_toUInt32, UInt32.toNat_toUInt8]
    omega
  · refine ⟨samplePacket p.id, ?_, rfl⟩
    have hread : ofLeBytes (leBytes 4 p.id.toNat) = p.id.toNat :=
      ofLeBytes_leBytes (by simpa using p.id.toNat_lt)
    simp only [sampleCodec, if_neg h, hread, UInt32.ofNat_toNat]

/-- Options for a send operation. -/
structure SendOptions where
  wantAck : Bool := false
  priority : Priority := .default
  ttlSecs : Nat := 3600

/-- Orchestrates the full outbound send path. -/
structure MeshRouter where
  outbound : OutboundQueue
  storeForward : StoreForward
  delivery : DeliveryTracker
  ackTimeout : Duration
  recordMaxAge : Duration

/-- The message `node_came_online` queues for a stored one. -/
def StoredMessage.toPending (msg : StoredMessage) (packet : MeshPacket) (now : Instant) :
    PendingMessage where
  packet := packet
  created := now
  ttl := fromSecs msg.ttlSecs
  priority := (Priority.tryFrom msg.priority).getD .default
  retries := 0

namespace MeshRouter

/-- `with_config`, over empty components. -/
def withConfig (config : OutboundConfig) (maxQueuePerDest : Nat) : MeshRouter where
  outbound := .withConfig config
  storeForward := { maxQueuePerDest := maxQueuePerDest }
  delivery := {}
  ackTimeout := fromSecs config.ackTimeoutSecs
  recordMaxAge := fromSecs config.deliveryRecordMaxAgeSecs

/-- The port number a stored message records. -/
def portnumOf (packet : MeshPacket) : Int :=
  match packet.payloadVariant with
  | some (.decoded data) => data.portnum
  | some (.encrypted _) | none => 0

/-- The message `send` queues for a reachable node. -/
def toPending (packet : MeshPacket) (options : SendOptions) (now : Instant) : PendingMessage where
  packet := packet
  created := now
  ttl := fromSecs options.ttlSecs
  priority := options.priority
  retries := 0

/-- The message `send` stores for an unreachable node. -/
def toStored (codec : PacketCodec) (packet : MeshPacket) (options : SendOptions) (nowMs : Nat) :
    StoredMessage where
  packetBytes := codec.encode packet
  packetId := packet.id
  dest := packet.toNode
  portnum := portnumOf packet
  priority := options.priority.toInt
  storedAtMs := nowMs
  ttlSecs := options.ttlSecs
  deliveryAttempts := 0

/-- `send`: the message is tracked once it is queued or stored. -/
def send (codec : PacketCodec) (r : MeshRouter) (packet : MeshPacket) (reachable : Bool)
    (options : SendOptions) (now : Instant) (nowMs : Nat) (trackedAt : Instant) :
    Except Error UInt32 × MeshRouter :=
  let tracked := r.delivery.track packet.id packet.toNode trackedAt
  if reachable then
    match r.outbound.enqueue (toPending packet options now) with
    | .error _ => (.error (.queueFull packet.toNode), r)
    | .ok outbound => (.ok packet.id, { r with outbound := outbound, delivery := tracked })
  else
    match r.storeForward.store packet.toNode (toStored codec packet options nowMs) with
    | (.error e, storeForward) => (.error e, { r with storeForward := storeForward })
    | (.ok _, storeForward) =>
        (.ok packet.id, { r with storeForward := storeForward, delivery := tracked })

/-- `handle_ack`. -/
def handleAck (r : MeshRouter) (id : UInt32) (hops : Option UInt8) (now : Instant) : MeshRouter :=
  { r with
    outbound := (r.outbound.handleAck id).2
    delivery := r.delivery.markAcknowledged id hops now }

/-- `handle_nak`, for any reason a NAK can carry. -/
def handleNak (r : MeshRouter) (id : UInt32) (reason : DeliveryFailure) : MeshRouter :=
  { r with
    outbound := (r.outbound.handleNak id).2
    delivery := if (r.outbound.handleNak id).1 then r.delivery.recordRetry id
      else r.delivery.markFailed id reason }

/-- One turn of the loop of `process_timeouts`. -/
def timeoutStep (acc : List UInt32 × MeshRouter) (id : UInt32) : List UInt32 × MeshRouter :=
  if (acc.2.outbound.retry id).1 then
    (acc.1, { acc.2 with
      outbound := (acc.2.outbound.retry id).2
      delivery := acc.2.delivery.recordRetry id })
  else
    (acc.1 ++ [id], { acc.2 with
      outbound := (acc.2.outbound.retry id).2
      delivery := acc.2.delivery.markFailed id .maxRetries })

/-- `process_timeouts` over the ids that timed out, in the order they are visited. -/
def processTimeouts (r : MeshRouter) (timedOut : List UInt32) : List UInt32 × MeshRouter :=
  timedOut.foldl timeoutStep ([], r)

/-- `run_maintenance`, with the four clock readings of its passes. -/
def runMaintenance (r : MeshRouter) (expireAt pruneAt : Instant) (nowMs : Nat) (drainAt : Instant) :
    List UInt32 × MeshRouter :=
  let (expired, delivery) := r.delivery.expireStale r.recordMaxAge expireAt
  (expired,
    { r with
      delivery := delivery.pruneCompleted r.recordMaxAge pruneAt
      storeForward := r.storeForward.pruneExpired nowMs
      outbound := r.outbound.drainExpired drainAt })

/-- The loop of `node_came_online` that moves stored messages to the outbound queue. -/
def forward (codec : PacketCodec) :
    List StoredMessage → (Nat → Instant) → OutboundQueue → OutboundQueue
  | [], _, q => q
  | msg :: rest, clock, q =>
      match codec.decode msg.packetBytes with
      | none => forward codec rest clock q
      | some packet =>
          match q.enqueue (msg.toPending packet (clock 0)) with
          | .error _ => q
          | .ok q => forward codec rest (fun i => clock (i + 1)) q

/-- `node_came_online`: what does not fit the outbound queue is stored again. -/
def nodeCameOnline (codec : PacketCodec) (r : MeshRouter) (dest : UInt32) (clock : Nat → Instant) :
    MeshRouter :=
  let (stored, storeForward) := r.storeForward.drainFor dest
  let capacity := r.outbound.remainingCapacity
  { r with
    outbound := forward codec (stored.take capacity) clock r.outbound
    storeForward := storeForward.restore dest (stored.drop capacity) }

/-- `next_to_send`. -/
def nextToSend (r : MeshRouter) (now sentAt : Instant) : Option PendingMessage × MeshRouter :=
  match r.outbound.nextToSend now with
  | (none, outbound) => (none, { r with outbound := outbound })
  | (some msg, outbound) =>
      (some msg, { r with outbound := outbound, delivery := r.delivery.markSent msg.id sentAt })

/-- `track_sent`. -/
def trackSent (r : MeshRouter) (msg : PendingMessage) (now : Instant) : MeshRouter :=
  { r with outbound := r.outbound.trackInflight msg r.ackTimeout now }

end MeshRouter

/-! ## Operations -/

/-- The calls that keep every message inside the router, with the clock readings they
make and, for timeouts, the order in which the table is visited. -/
inductive RouterOp where
  | send (packet : MeshPacket) (reachable : Bool) (options : SendOptions) (now : Instant)
      (nowMs : Nat) (trackedAt : Instant)
  | ack (id : UInt32) (hops : Option UInt8) (now : Instant)
  | nak (id : UInt32) (reason : DeliveryFailure)
  | timeouts (now : Instant) (order : List UInt32)
  | maintenance (expireAt pruneAt : Instant) (nowMs : Nat) (drainAt : Instant)
  | nodeCameOnline (dest : UInt32) (clock : Nat → Instant)

/-- The router after an operation; `none` if no table is visited in the given order. -/
def MeshRouter.perform (codec : PacketCodec) (r : MeshRouter) : RouterOp → Option MeshRouter
  | .send packet reachable options now nowMs trackedAt =>
      some (r.send codec packet reachable options now nowMs trackedAt).2
  | .ack id hops now => some (r.handleAck id hops now)
  | .nak id reason => some (r.handleNak id reason)
  | .timeouts now order =>
      if order.Perm (r.outbound.checkTimeouts now) then some (r.processTimeouts order).2 else none
  | .maintenance expireAt pruneAt nowMs drainAt =>
      some (r.runMaintenance expireAt pruneAt nowMs drainAt).2
  | .nodeCameOnline dest clock => some (r.nodeCameOnline codec dest clock)

end Akroasis.Mesh
