import Akroasis.Mesh.Crypto

/-!
# Akroasis.Mesh.Keystream

Which counter blocks a node spends over its lifetime (`packet_id.rs`, `message.rs`).

A packet's id is the low half of its nonce, and `Ctr128LE` counts up from the nonce read
as a little-endian integer — in the very bytes that hold the id.  `PacketIdCounter` hands
out consecutive ids, also across restarts (`Spent`), so a packet of more than one block
runs into the blocks of the next one (`keystream_unique_iff`).
-/

namespace Akroasis.Mesh

open CounterMode

/-! ## Packet ids -/

/-- Monotonic sequence generator for packet ids. -/
structure PacketIdCounter where
  lastIssued : UInt32
  deriving DecidableEq

namespace PacketIdCounter

/-- `resume`: continue after the last id a prior instance issued. -/
def resume (lastUsed : UInt32) : PacketIdCounter := ⟨lastUsed⟩

/-- `current`: the value the caller persists. -/
def current (c : PacketIdCounter) : UInt32 := c.lastIssued

/-- `next_id`. -/
def nextId (c : PacketIdCounter) : Except Error UInt32 × PacketIdCounter :=
  if c.lastIssued.toNat + 1 < 2 ^ 32 then (.ok (c.lastIssued + 1), ⟨c.lastIssued + 1⟩)
  else (.error .packetIdSpaceExhausted, c)

end PacketIdCounter

/-! ## Building packets -/

/-- An outbound message.  Every constructor of the builder names an application port. -/
structure MessageBuilder where
  dest : UInt32
  portnum : PortNum
  payload : Bytes
  channel : UInt8
  wantAck : Bool
  hopLimit : UInt8
  priority : Priority
  port_named : portnum ≠ .portNumUnspecified
  deriving DecidableEq

namespace MessageBuilder

/-- The `Data` a packet carries. -/
def data (b : MessageBuilder) : Data where
  portnum := b.portnum.toInt
  payload := b.payload
  wantResponse := false
  dest := 0
  source := 0
  requestId := 0
  replyId := 0
  emoji := []

/-- The bytes that are encrypted. -/
def plaintext (b : MessageBuilder) : Bytes := b.data.encodeToVec

/-- The constructors' common part: `portnum` and `payload` on channel 0. -/
def onPort (dest : UInt32) (portnum : PortNum) (h : portnum ≠ .portNumUnspecified)
    (payload : Bytes) (wantAck : Bool) (hopLimit : UInt8) (priority : Priority) :
    MessageBuilder where
  dest := dest
  portnum := portnum
  payload := payload
  channel := 0
  wantAck := wantAck
  hopLimit := hopLimit
  priority := priority
  port_named := h

/-- `text_with_config`, over the text's bytes. -/
def text (dest : UInt32) (bytes : Bytes) (defaultHopLimit : UInt8) : MessageBuilder :=
  onPort dest .textMessageApp (by decide) bytes false (min defaultHopLimit maxHopLimit) .default

/-- `build`: the id is drawn before the payload is encrypted. -/
def build (aes : Aes) (b : MessageBuilder) (fromNode : UInt32) (psk : Bytes)
    (packetIds : PacketIdCounter) : Except Error MeshPacket × PacketIdCounter :=
  match packetIds.nextId with
  | (.error e, packetIds) => (.error e, packetIds)
  | (.ok packetId, packetIds) =>
      match encrypt aes b.plaintext packetId fromNode psk with
      | .error e => (.error e, packetIds)
      | .ok encrypted =>
          (.ok
            { fromNode := fromNode
              toNode := b.dest
              channel := b.channel.toUInt32
              payloadVariant :=
                if psk = [] then some (.decoded b.data) else some (.encrypted encrypted)
              id := packetId
              rxTime := 0
              rxSnr := 0
              hopLimit := b.hopLimit.toUInt32
              wantAck := b.wantAck
              priority := b.priority.toInt
              rxRssi := 0
              viaMqtt := false
              hopStart := b.hopLimit.toUInt32 }, packetIds)

/-- Of the fields of `Data` only the port and the payload are ever set. -/
theorem plaintext_eq (b : MessageBuilder) :
    b.plaintext = varintField 0x08 (int32 b.portnum.toInt) ++ bytesField 0x12 b.payload := by
  simp [plaintext, data, Data.encodeToVec]

theorem length_port (b : MessageBuilder) :
    (varintField 0x08 (int32 b.portnum.toInt)).length = 2 := by
  have := b.port_named
  cases h : b.portnum <;> simp_all <;> decide

theorem length_plaintext_pos (b : MessageBuilder) : 0 < b.plaintext.length := by
  rw [plaintext_eq, List.length_append, length_port]
  omega

theorem length_plaintext_le (b : MessageBuilder) : b.plaintext.length ≤ b.payload.length + 13 := by
  have hlen : (encodeVarint b.payload.length).length ≤ 10 := length_varint_le 10 _
  rw [plaintext_eq, List.length_append, length_port, bytesField]
  split
  · simp
  · simp only [List.length_cons, List.length_append]
    omega

/-- One block holds the plaintext exactly when the payload has at most twelve bytes. -/
theorem length_plaintext_le_iff (b : MessageBuilder) :
    b.plaintext.length ≤ 16 ↔ b.payload.length ≤ 12 := by
  rw [plaintext_eq, List.length_append, length_port, ← length_bytesField_le_iff 0x12]
  omega

end MessageBuilder

/-! ## A node's lifetime -/

/-- What a node does: build and send a message, or restart with the persisted counter. -/
inductive NodeOp where
  | send (message : MessageBuilder)
  | restart

/-- A message that was sent, and its packet. -/
structure Sent where
  message : MessageBuilder
  packet : MeshPacket

/-- The counter blocks that encrypted the packet. -/
def Sent.blocks (s : Sent) : List Block :=
  counterBlocks (buildNonce s.packet.id s.packet.fromNode) s.message.plaintext.length

section

variable (aes : Aes) (fromNode : UInt32) (psk : Bytes)

/-- One operation on the counter and the packets sent so far. -/
def nodeStep (state : PacketIdCounter × List Sent) : NodeOp → PacketIdCounter × List Sent
  | .send message =>
      match message.build aes fromNode psk state.1 with
      | (.error _, packetIds) => (packetIds, state.2)
      | (.ok packet, packetIds) => (packetIds, state.2 ++ [⟨message, packet⟩])
  | .restart => (.resume state.1.current, state.2)

/-- The packets a node sends, starting with any counter. -/
def sentBy (packetIds : PacketIdCounter) (ops : List NodeOp) : List Sent :=
  (ops.foldl (nodeStep aes fromNode psk) (packetIds, [])).2

end

variable {aes : Aes} {fromNode : UInt32} {psk : Bytes}

/-- The packets carry the sender's number and consecutive ids that end at the counter. -/
structure Spent (fromNode : UInt32) (first : Nat) (state : PacketIdCounter × List Sent) : Prop where
  ids : ∀ i s, state.2[i]? = some s →
    s.packet.id.toNat = first + i + 1 ∧ s.packet.fromNode = fromNode
  counter : state.1.lastIssued.toNat = first + state.2.length

theorem spent_step {first : Nat} {key : Bytes} {state : PacketIdCounter × List Sent}
    (hkey : ∀ aes plaintext packetId fromNode, encrypt aes plaintext packetId fromNode psk =
      .ok (applyKeystream (aes key) (buildNonce packetId fromNode) plaintext))
    (h : Spent fromNode first state) (op : NodeOp) :
    Spent fromNode first (nodeStep aes fromNode psk state op) := by
  cases op with
  | restart => exact h
  | send message =>
      obtain ⟨packetIds, sent⟩ := state
      simp only [nodeStep, MessageBuilder.build, PacketIdCounter.nextId]
      by_cases hroom : packetIds.lastIssued.toNat + 1 < 2 ^ 32
      · have hnext : (packetIds.lastIssued + 1).toNat = packetIds.lastIssued.toNat + 1 := by
          rw [UInt32.toNat_add]
          exact Nat.mod_eq_of_lt hroom
        have hcounter : packetIds.lastIssued.toNat = first + sent.length := h.counter
        simp only [if_pos hroom, hkey]
        constructor
        · intro i s hi
          by_cases hlt : i < sent.length
          · rw [List.getElem?_append_left hlt] at hi
            exact h.ids i s hi
          · rw [List.getElem?_append_right (Nat.le_of_not_lt hlt), List.getElem?_singleton] at hi
            split at hi
            · obtain rfl := Option.some.inj hi
              exact ⟨by rw [hnext, hcounter]; omega, rfl⟩
            · contradiction
        · rw [hnext, hcounter, List.length_append, List.length_singleton, Nat.add_assoc]
      · simp only [if_neg hroom]
        exact h

/-- A message that cannot be encrypted is not sent. -/
theorem nodeStep_of_error (herr : ∀ aes plaintext packetId fromNode, ∃ e,
      encrypt aes plaintext packetId fromNode psk = .error e)
    (state : PacketIdCounter × List Sent) (op : NodeOp) :
    (nodeStep aes fromNode psk state op).2 = state.2 := by
  cases op with
  | restart => rfl
  | send message =>
      simp only [nodeStep, MessageBuilder.build, PacketIdCounter.nextId]
      by_cases hroom : state.1.lastIssued.toNat + 1 < 2 ^ 32
      · obtain ⟨e, he⟩ := herr aes message.plaintext (state.1.lastIssued + 1) fromNode
        simp only [if_pos hroom, he]
      · simp only [if_neg hroom]

theorem foldl_nodeStep_of_error (herr : ∀ aes plaintext packetId fromNode, ∃ e,
      encrypt aes plaintext packetId fromNode psk = .error e)
    (state : PacketIdCounter × List Sent) (ops : List NodeOp) :
    (ops.foldl (nodeStep aes fromNode psk) state).2 = state.2 := by
  induction ops generalizing state with
  | nil => rfl
  | cons op ops ih => rw [List.foldl_cons, ih, nodeStep_of_error herr]

theorem spent_foldl {first : Nat} {key : Bytes} {state : PacketIdCounter × List Sent}
    (hkey : ∀ aes plaintext packetId fromNode, encrypt aes plaintext packetId fromNode psk =
      .ok (applyKeystream (aes key) (buildNonce packetId fromNode) plaintext))
    (h : Spent fromNode first state) (ops : List NodeOp) :
    Spent fromNode first (ops.foldl (nodeStep aes fromNode psk) state) := by
  induction ops generalizing state with
  | nil => exact h
  | cons op ops ih => exact ih (spent_step hkey h op)

/-- Under a PSK that is not empty, a node's packets have consecutive ids, restarts or not. -/
theorem id_sentBy (hpsk : psk ≠ []) (packetIds : PacketIdCounter) (ops : List NodeOp) {i : Nat}
    {s : Sent} (hi : (sentBy aes fromNode psk packetIds ops)[i]? = some s) :
    s.packet.id.toNat = packetIds.lastIssued.toNat + i + 1 ∧ s.packet.fromNode = fromNode := by
  rcases encrypt_cases hpsk with ⟨key, -, hkey⟩ | herr
  · have hstart : Spent fromNode packetIds.lastIssued.toNat (packetIds, []) := ⟨by simp, by simp⟩
    exact (spent_foldl hkey hstart ops).ids i s hi
  · rw [sentBy, foldl_nodeStep_of_error herr] at hi
    contradiction

/-- Only messages that were to be sent are sent. -/
theorem message_sentBy (packetIds : PacketIdCounter) (ops : List NodeOp) {s : Sent}
    (hs : s ∈ sentBy aes fromNode psk packetIds ops) : .send s.message ∈ ops := by
  have hrun : ∀ state : PacketIdCounter × List Sent,
      s ∈ (ops.foldl (nodeStep aes fromNode psk) state).2 → s ∈ state.2 ∨
      .send s.message ∈ ops := by
    clear hs
    induction ops with
    | nil => exact fun _ h => .inl h
    | cons op ops ih =>
        intro state h
        rcases ih _ h with h | h
        · cases op with
          | restart => exact .inl h
          | send message =>
              unfold nodeStep at h
              grind
        · exact .inr (List.mem_cons_of_mem _ h)
  exact (hrun _ hs).resolve_left (by simp)

/-- Of two packets of one node the earlier leaves the later one's blocks alone exactly when
it has no more blocks than their ids are apart. -/
theorem Sent.disjoint_blocks_iff {s t : Sent} (hfrom : s.packet.fromNode = t.packet.fromNode)
    (hid : s.packet.id.toNat < t.packet.id.toNat)
    (hs : s.message.payload.length ≤ maxPacketSize)
    (ht : t.message.payload.length ≤ maxPacketSize) :
    s.blocks.Disjoint t.blocks ↔
      s.packet.id.toNat + blockCount s.message.plaintext.length ≤ t.packet.id.toNat := by
  -- far below the wrap-around of the 128-bit counter
  have hbound : ∀ u : Sent, u.message.payload.length ≤ maxPacketSize →
      u.packet.id.toNat + 2 ^ 64 * u.packet.fromNode.toNat +
        blockCount u.message.plaintext.length ≤ 256 ^ 16 := by
    intro u hu
    have hplain := u.message.length_plaintext_le
    have hcount : blockCount u.message.plaintext.length ≤ 64 := by
      simp only [blockCount, maxPacketSize] at hu ⊢
      omega
    have h1 := u.packet.id.toNat_lt
    have h2 := u.packet.fromNode.toNat_lt
    omega
  have hs' := hbound s hs
  have ht' := hbound t ht
  rw [← ofLeBytes_buildNonce] at hs' ht'
  have hiff := disjoint_counterBlocks_iff (m := s.message.plaintext.length)
    (by rw [ofLeBytes_buildNonce, ofLeBytes_buildNonce, hfrom]; omega) hs' ht'
    t.message.length_plaintext_pos
  rw [Sent.blocks, Sent.blocks, hiff, ofLeBytes_buildNonce, ofLeBytes_buildNonce, hfrom]
  omega

/-- **Keystream uniqueness**: over a node's whole lifetime under one PSK, no two packets
share a counter block if and only if every packet but the last carries at most twelve
bytes of payload. -/
theorem keystream_unique_iff (aes : Aes) (fromNode : UInt32) (psk : Bytes) (hpsk : psk ≠ [])
    (packetIds : PacketIdCounter) (ops : List NodeOp)
    (hsize : ∀ message, .send message ∈ ops → message.payload.length ≤ maxPacketSize) :
    (sentBy aes fromNode psk packetIds ops).Pairwise (fun s t => s.blocks.Disjoint t.blocks) ↔
      ∀ s ∈ (sentBy aes fromNode psk packetIds ops).dropLast, s.message.payload.length ≤ 12 := by
  set sent := sentBy aes fromNode psk packetIds ops
  have hids : ∀ i (hi : i < sent.length),
      sent[i].packet.id.toNat = packetIds.lastIssued.toNat + i + 1 ∧
        sent[i].packet.fromNode = fromNode :=
    fun i hi => id_sentBy hpsk packetIds ops (List.getElem?_eq_getElem hi)
  have hfits : ∀ s ∈ sent, s.message.payload.length ≤ maxPacketSize := fun s hs =>
    hsize _ (message_sentBy packetIds ops hs)
  have hpair : ∀ i j (hi : i < sent.length) (hj : j < sent.length), i < j →
      (sent[i].blocks.Disjoint sent[j].blocks ↔
        i + blockCount sent[i].message.plaintext.length ≤ j) := by
    intro i j hi hj hij
    obtain ⟨hidi, hfromi⟩ := hids i hi
    obtain ⟨hidj, hfromj⟩ := hids j hj
    rw [Sent.disjoint_blocks_iff (hfromi.trans hfromj.symm) (by omega)
      (hfits _ (List.getElem_mem hi)) (hfits _ (List.getElem_mem hj)), hidi, hidj]
    omega
  have hone : ∀ s : Sent, s.message.payload.length ≤ 12 ↔
      blockCount s.message.plaintext.length ≤ 1 := fun s => by
    rw [blockCount_le_one, s.message.length_plaintext_le_iff]
  rw [List.pairwise_iff_getElem]
  constructor
  · intro h s hs
    obtain ⟨i, hi, rfl⟩ := List.mem_iff_getElem.mp hs
    rw [List.length_dropLast] at hi
    rw [List.getElem_dropLast, hone]
    have := (hpair i (i + 1) (by omega) (by omega) (by omega)).mp (h i (i + 1) _ _ (by omega))
    omega
  · intro h i j hi hj hij
    have hmem : sent[i] ∈ sent.dropLast :=
      List.mem_iff_getElem.mpr ⟨i, by rw [List.length_dropLast]; omega, List.getElem_dropLast ..⟩
    have := (hone _).mp (h _ hmem)
    exact (hpair i j hi hj hij).mpr (by omega)

/-! ## Two messages -/

/-- AES-128 under `defaultPsk` at the counters of packets 42, 43 and 44 of node `0x1234`. -/
def sampleAes : Aes := fun _ block =>
  if ofLeBytes block.val = 42 + 2 ^ 64 * 0x1234 then
    ⟨[0xd2, 0x21, 0xd0, 0x4e, 0x60, 0x74, 0x10, 0x11, 0x04, 0xa1, 0x8c, 0x29, 0x5c, 0xec, 0x36,
      0xe6], rfl⟩
  else if ofLeBytes block.val = 43 + 2 ^ 64 * 0x1234 then
    ⟨[0xd4, 0x16, 0x19, 0x8b, 0x64, 0xbe, 0xb1, 0x9e, 0x12, 0x0d, 0x4e, 0xe1, 0xf2, 0x9a, 0xf1,
      0x43], rfl⟩
  else
    ⟨[0xbf, 0x2e, 0x9e, 0x44, 0x48, 0x71, 0x4e, 0x00, 0x39, 0xf8, 0x32, 0x72, 0xe8, 0x08, 0x44,
      0x26], rfl⟩

/-- A text of thirteen bytes: a plaintext of seventeen, two blocks. -/
def longText : MessageBuilder := .text 7 (ascii "hello, world!") 3

/-- A text of two bytes. -/
def shortText : MessageBuilder := .text 7 (ascii "ok") 3

/-- The packets of node `0x1234` on the default channel after a restart at id 41. -/
def sampleSent (messages : List MessageBuilder) : List Sent :=
  sentBy sampleAes 0x1234 [0x01] (.resume 41) (messages.map .send)

/-- The second block of packet 42 is the first of packet 43, so the end of the first
plaintext and the start of the second are encrypted with the same bytes. -/
theorem consecutive_packets_share_block :
    (sampleSent [longText, shortText]).map (fun s => (s.packet.id,
        s.blocks.map fun b => ofLeBytes b.val)) =
      [(42, [42 + 2 ^ 64 * 0x1234, 43 + 2 ^ 64 * 0x1234]), (43, [43 + 2 ^ 64 * 0x1234])] := by
  decide +kernel

/-- Short messages in front of a long one keep apart; a long one in front does not. -/
theorem keystream_unique_sample :
    (sampleSent [shortText, shortText, longText]).Pairwise (fun s t => s.blocks.Disjoint t.blocks) ∧
      ¬ (sampleSent [longText, shortText]).Pairwise (fun s t => s.blocks.Disjoint t.blocks) := by
  have hsize : ∀ messages : List MessageBuilder, (∀ m ∈ messages, m = longText ∨ m = shortText) →
      ∀ message, NodeOp.send message ∈ messages.map .send →
        message.payload.length ≤ maxPacketSize := by
    intro messages hm message hmem
    obtain ⟨m, hin, heq⟩ := List.mem_map.mp hmem
    obtain rfl := NodeOp.send.inj heq
    rcases hm m hin with rfl | rfl <;> decide +kernel
  constructor
  · refine (keystream_unique_iff sampleAes 0x1234 [0x01] (by decide) (.resume 41) _
      (hsize _ (by simp))).mpr ?_
    have hshort : ((sampleSent [shortText, shortText, longText]).dropLast.all
        fun s => s.message.payload.length ≤ 12) = true := by decide +kernel
    intro s hs
    simpa using List.all_eq_true.mp hshort s hs
  · intro h
    have hall := (keystream_unique_iff sampleAes 0x1234 [0x01] (by decide) (.resume 41) _
      (hsize _ (by simp))).mp h
    have hlong : ((sampleSent [longText, shortText]).dropLast.any
        fun s => 12 < s.message.payload.length) = true := by decide +kernel
    obtain ⟨s, hs, hlt⟩ := List.any_eq_true.mp hlong
    have hle : s.message.payload.length ≤ 12 := hall s hs
    have hgt : 12 < s.message.payload.length := by simpa using hlt
    omega

end Akroasis.Mesh
