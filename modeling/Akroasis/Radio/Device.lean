import Akroasis.Radio.Protocol

/-!
# Akroasis.Radio.Device

A radio at the other end of the serial line, and what the driver's calls do to it.

The radio answers a read command with its stored bytes.  What it does with a write command
is up to a script: whether it stores the block and which byte, if any, it sends back.  A
radio is honest if it stores every block it acknowledges; one that drops a write is not.
The memory is what the radio holds for every address, the ones a variant has no use for
included.

`Wrote` is what a write with its retries does, `exec_readBlock` what a read does; the
transfers of whole images follow block by block.
-/

namespace Akroasis.Radio

open Driver

/-- What a radio does with a write command. -/
structure Treatment where
  stored : Bool
  reply : Option UInt8
  deriving DecidableEq, Repr

/-- The block is stored and acknowledged. -/
def Treatment.normal : Treatment := ⟨true, some ack⟩

/-- A radio and the line to the host. -/
structure Device where
  memory : Memory
  /-- Bytes on the way to the host. -/
  pending : Bytes
  /-- How the next write commands are treated; those after them are treated normally. -/
  treatments : List Treatment

namespace Device

variable {d d' : Device} {addr : UInt16} {data : Bytes}

/-- A radio in programming mode, with nothing on the line. -/
def opened (memory : Memory) (treatments : List Treatment) : Device := ⟨memory, [], treatments⟩

/-- The treatment of the next write command. -/
def treatment (d : Device) : Treatment := d.treatments.headD .normal

/-- A write command. -/
def write (d : Device) (start : Nat) (data : Bytes) : Device where
  memory := if d.treatment.stored then d.memory.store start data else d.memory
  pending := d.pending ++ d.treatment.reply.toList
  treatments := d.treatments.tail

/-- Bytes that the host has sent: a read command, a write command, or anything else, such as
the acknowledgement of a block, to which the radio does not answer. -/
def receive (d : Device) : Bytes → Device
  | command :: high :: low :: len :: data =>
      let start := high.toNat * 256 + low.toNat
      if command = cmdRead ∧ data = [] then
        { d with
          pending :=
            d.pending ++ ([cmdReadResponse, high, low, len] ++ d.memory.fetch start len.toNat) }
      else if command = cmdWrite ∧ data.length = len.toNat then d.write start data
      else d
  | _ => d

/-- The line to a radio.  A read that times out has taken what was there. -/
def line : SerialPort Device where
  writeAll packet := ofExec fun d => (.ok ⟨⟩, d.receive packet)
  readExact n := ofExec fun d =>
    if h : n ≤ d.pending.length then
      (.ok ⟨d.pending.take n, List.length_take_of_le h⟩, { d with pending := d.pending.drop n })
    else (.error (.timedOut "timed out"), { d with pending := [] })

/-- Every block the radio acknowledges is stored. -/
def Honest (d : Device) : Prop := ∀ t ∈ d.treatments, t.reply = some ack → t.stored = true

/-! ## Single calls -/

theorem exec_writeAll {ε : Type} {f : IoError → ε} {packet : Bytes} :
    exec ((line.writeAll packet).mapErr f) d = (.ok ⟨⟩, d.receive packet) := rfl

theorem exec_readExactTimeout {n : Nat} {xs rest : Bytes} (h : d.pending = xs ++ rest)
    (hlen : xs.length = n) :
    exec (readExactTimeout line n) d = (.ok ⟨xs, hlen⟩, { d with pending := rest }) := by
  have hle : n ≤ d.pending.length := by simp [h, hlen]
  have htake : d.pending.take n = xs := by rw [h, take_append_of_length hlen]
  have hdrop : d.pending.drop n = rest := by rw [h, drop_append_of_length hlen]
  have hread : exec (line.readExact n) d = (.ok ⟨xs, hlen⟩, { d with pending := rest }) := by
    simp [line, hle, htake, hdrop]
  exact exec_mapErr_eq_ok.mpr hread

theorem exec_readExactTimeout_of_short {n : Nat} (h : d.pending.length < n) :
    exec (readExactTimeout line n) d = (.error .timeout, { d with pending := [] }) := by
  simp [readExactTimeout, mapErr, line, Nat.not_le.mpr h]

theorem toNat_addrHigh_addrLow (addr : UInt16) :
    (addrHigh addr).toNat * 256 + (addrLow addr).toNat = addr.toNat := by
  have := addr.toNat_lt
  simp only [addrHigh, addrLow, UInt8.toNat_ofNat']
  omega

/-- A read is answered with the stored bytes and leaves the radio as it was. -/
theorem exec_readBlock (hidle : d.pending = []) (addr : UInt16) (len : UInt8) :
    exec (readBlock line addr len) d = (.ok (d.memory.fetch addr.toNat len.toNat), d) := by
  let header : Bytes := [cmdReadResponse, addrHigh addr, addrLow addr, len]
  let body := d.memory.fetch addr.toNat len.toNat
  have hsent : d.receive [cmdRead, addrHigh addr, addrLow addr, len] =
      { d with pending := header ++ body } := by
    simp [receive, toNat_addrHigh_addrLow, hidle, header, body]
  have hheader : exec (readExactTimeout line 4) { d with pending := header ++ body } =
      (.ok ⟨header, rfl⟩, { d with pending := body }) :=
    exec_readExactTimeout (show _ = header ++ body from rfl) (show header.length = 4 from rfl)
  have hbody : exec (readExactTimeout line len.toNat) { d with pending := body } =
      (.ok ⟨body, Memory.length_fetch⟩, { d with pending := [] }) :=
    exec_readExactTimeout (List.append_nil body).symm Memory.length_fetch
  have hacked : exec (sendAck line) { d with pending := [] } = (.ok ⟨⟩, d) := by
    obtain ⟨memory, pending, treatments⟩ := d
    obtain rfl : pending = [] := hidle
    rfl
  rw [readBlock, exec_bind_ok exec_writeAll, hsent, exec_bind_ok hheader, if_neg (by simp [header]),
    exec_bind_ok hbody, exec_bind_ok hacked, exec_pure]

/-- What a write command does to an idle radio whose reply has been read. -/
def written (d : Device) (start : Nat) (data : Bytes) : Device :=
  { d.write start data with pending := [] }

/-- The outcome of `read_ack` after a reply. -/
def outcome : Option UInt8 → Except ProtocolError PUnit
  | none => .error .timeout
  | some byte => if byte = ack then .ok ⟨⟩ else .error (.badAck ack byte)

theorem exec_readAck {reply : Option UInt8} (h : d.pending = reply.toList) :
    exec (readAck line) d = (outcome reply, { d with pending := [] }) := by
  cases reply with
  | none =>
      have hshort : d.pending.length < 1 := by simp [h]
      exact exec_bind_error (exec_readExactTimeout_of_short hshort)
  | some byte =>
      have hread :
          exec (readExactTimeout line 1) d = (.ok ⟨[byte], rfl⟩, { d with pending := [] }) :=
        exec_readExactTimeout (h.trans (List.append_nil _).symm) rfl
      rw [readAck, exec_bind_ok hread, outcome]
      by_cases hack : byte = ack <;> simp [hack]

/-- A write command is treated as the script has it, and its outcome is the reply. -/
theorem exec_writeBlock (hidle : d.pending = []) (hsafe : isForbidden addr data.length = false)
    (hlen : data.length < 256) :
    exec (writeBlock line addr data) d =
      (outcome d.treatment.reply, d.written addr.toNat data) := by
  have hbyte : (UInt8.ofNat data.length).toNat = data.length := UInt8.toNat_ofNat_of_lt' hlen
  have hsent :
      d.receive ([cmdWrite, addrHigh addr, addrLow addr, UInt8.ofNat data.length] ++ data) =
        d.write addr.toNat data := by
    have hcommand : cmdWrite ≠ cmdRead := by decide
    simp [receive, hcommand, hbyte, toNat_addrHigh_addrLow]
  have hreply : (d.write addr.toNat data).pending = d.treatment.reply.toList := by
    simp [write, hidle]
  rw [writeBlock, hsafe, if_neg Bool.false_ne_true, exec_bind_ok exec_writeAll, hsent,
    exec_readAck hreply, written]

theorem exec_writeBlock_forbidden (h : isForbidden addr data.length = true) :
    exec (writeBlock line addr data) d = (.error (.forbiddenAddress addr), d) := by
  rw [writeBlock, if_pos h, exec_throw]

/-! ## Writes with retries -/

/-- What a write of one block has done to a radio when it returns `Ok`. -/
structure Wrote (start : Nat) (data : Bytes) (d d' : Device) : Prop where
  idle : d'.pending = []
  honest : d.Honest → d'.Honest
  memory : d'.memory = d.memory ∨ d'.memory = d.memory.store start data
  stored : d.Honest → d'.memory = d.memory.store start data

theorem Honest.written (h : d.Honest) (start : Nat) (data : Bytes) :
    (d.written start data).Honest :=
  fun t ht => h t (List.mem_of_mem_tail ht)

theorem Honest.stored (h : d.Honest) (hreply : d.treatment.reply = some ack) :
    d.treatment.stored = true := by
  obtain ⟨memory, pending, treatments⟩ := d
  cases treatments with
  | nil => rfl
  | cons t ts => exact h t List.mem_cons_self hreply

theorem memory_written (start : Nat) (data : Bytes) :
    (d.written start data).memory = d.memory ∨
      (d.written start data).memory = d.memory.store start data := by
  cases hstored : d.treatment.stored with
  | true => exact .inr (by simp [written, write, hstored])
  | false => exact .inl (by simp [written, write, hstored])

/-- A failed attempt does not matter: the radio may have stored the block or not. -/
theorem Wrote.after_failed {start : Nat} {e : Device}
    (h : Wrote start data (d.written start data) e) : Wrote start data d e where
  idle := h.idle
  honest hd := h.honest (hd.written start data)
  memory := by
    obtain hm | hm := memory_written (d := d) start data <;> obtain he | he := h.memory
    · exact .inl (he.trans hm)
    · exact .inr (hm ▸ he)
    · exact .inr (he.trans hm)
    · exact .inr (by rw [he, hm, Memory.store_store])
  stored hd := by
    rw [h.stored (hd.written start data)]
    obtain hm | hm := memory_written (d := d) start data
    · rw [hm]
    · rw [hm, Memory.store_store]

theorem wrote_of_ok {start : Nat} (hreply : outcome d.treatment.reply = .ok ⟨⟩) :
    Wrote start data d (d.written start data) where
  idle := rfl
  honest hd := hd.written start data
  memory := memory_written start data
  stored hd := by
    have hack : d.treatment.reply = some ack := by
      cases hr : d.treatment.reply with
      | none => simp [hr, outcome] at hreply
      | some byte =>
          by_cases hb : byte = ack
          · rw [hb]
          · simp [hr, outcome, hb] at hreply
    show (if d.treatment.stored then d.memory.store start data else d.memory) = _
    rw [if_pos (hd.stored hack)]

/-- **A write that returned `Ok`**: nothing but its block has changed, and on an honest radio
the block is there. -/
theorem wrote_of_writeBlockWithRetry (hidle : d.pending = []) (hlen : data.length < 256)
    (h : exec (writeBlockWithRetry line addr data) d = (.ok ⟨⟩, d')) :
    Wrote addr.toNat data d d' := by
  refine retrying_induction (motive := fun d d' => d.pending = [] → Wrote addr.toNat data d d')
    (fun d d' hok hidle => ?_) (fun d e d' err hfailed ih hidle => ?_) h hidle
  · cases hsafe : isForbidden addr data.length with
    | true => simp [exec_writeBlock_forbidden hsafe] at hok
    | false =>
        rw [exec_writeBlock hidle hsafe hlen] at hok
        obtain ⟨hreply, rfl⟩ := Prod.mk.inj hok
        exact wrote_of_ok hreply
  · cases hsafe : isForbidden addr data.length with
    | true =>
        rw [exec_writeBlock_forbidden hsafe] at hfailed
        obtain ⟨_, rfl⟩ := Prod.mk.inj hfailed
        exact ih hidle
    | false =>
        rw [exec_writeBlock hidle hsafe hlen] at hfailed
        obtain ⟨_, rfl⟩ := Prod.mk.inj hfailed
        exact (ih rfl).after_failed

end Device

end Akroasis.Radio
