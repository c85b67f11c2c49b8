import Akroasis.Radio.Transfer
import Akroasis.Scanner

/-!
# Akroasis.Radio.Wire

What the driver puts on the line, read the way the radio reads it.

A write command is `[0x58, high, low, len]` and `len` bytes of data, and the radio takes one
after another off the stream (`commands`).  `recording` keeps what a port has been given:
a write to the port is all or nothing.  The stream is safe if it is made of write commands
and none of them reaches calibration memory.

`write_block` checks the whole block but sends its length in one byte.  The radio therefore
takes the block of 256 bytes or more apart: `data.length % 256` bytes are written, and the
rest is read as commands of its own, which nobody has checked.
-/

namespace Akroasis.Radio

open Driver

/-! ## The radio's side -/

/-- A write command as the radio reads it. -/
structure WriteCommand where
  start : Nat
  data : Bytes
  deriving DecidableEq, Repr

/-- Factory calibration memory. -/
def Calibration (a : Nat) : Prop := ∃ range ∈ forbiddenRanges, range.1.toNat ≤ a ∧ a < range.2.toNat

/-- The command writes no byte of calibration memory. -/
def WriteCommand.Avoids (command : WriteCommand) : Prop :=
  ∀ a, command.start ≤ a → a < command.start + command.data.length → ¬ Calibration a

/-- The next write command of a stream and the stream after it. -/
def nextCommand : Bytes → Option (Option WriteCommand × Bytes)
  | command :: high :: low :: len :: rest =>
      if command = cmdWrite ∧ len.toNat ≤ rest.length then
        some (some ⟨high.toNat * 256 + low.toNat, rest.take len.toNat⟩, rest.drop len.toNat)
      else none
  | _ => none

theorem nextCommand_eq_some {xs rest : Bytes} {item : Option WriteCommand}
    (h : nextCommand xs = some (item, rest)) :
    ∃ high low len body, xs = cmdWrite :: high :: low :: len :: body ∧ len.toNat ≤ body.length ∧
      item = some ⟨high.toNat * 256 + low.toNat, body.take len.toNat⟩ ∧
      rest = body.drop len.toNat := by
  unfold nextCommand at h
  split at h
  · next command high low len body =>
      split at h
      · next hcond =>
          obtain ⟨rfl, hlen⟩ := hcond
          obtain ⟨hitem, hrest⟩ := Prod.mk.inj (Option.some.inj h)
          exact ⟨high, low, len, body, rfl, hlen, hitem.symm, hrest.symm⟩
      · simp at h
  · simp at h

theorem nextCommand_cons {high low len : UInt8} {body : Bytes} (h : len.toNat ≤ body.length) :
    nextCommand (cmdWrite :: high :: low :: len :: body) =
      some (some ⟨high.toNat * 256 + low.toNat, body.take len.toNat⟩, body.drop len.toNat) := by
  simp [nextCommand, h]

/-- The radio's reader of write commands. -/
def commands : Scanner UInt8 WriteCommand where
  move := nextCommand
  shrinks h := by
    obtain ⟨high, low, len, body, rfl, hlen, -, rfl⟩ := nextCommand_eq_some h
    simp only [List.length_drop, List.length_cons]
    omega
  stable ys h := by
    obtain ⟨high, low, len, body, rfl, hlen, rfl, rfl⟩ := nextCommand_eq_some h
    have hlong : len.toNat ≤ (body ++ ys).length := by
      rw [List.length_append]
      omega
    simp only [List.cons_append]
    rw [nextCommand_cons hlong, List.take_append_of_le_length hlen,
      List.drop_append_of_le_length hlen]

/-- A stream that is made of write commands, none of which reaches calibration memory. -/
def FormSafeWrites (stream : Bytes) : Prop :=
  (commands.drain stream).2 = [] ∧ ∀ command ∈ (commands.drain stream).1, command.Avoids

theorem formSafeWrites_nil : FormSafeWrites [] := ⟨rfl, by simp [Scanner.drain, Scanner.drainWith]⟩

theorem FormSafeWrites.append {xs ys : Bytes} (hxs : FormSafeWrites xs) (hys : FormSafeWrites ys) :
    FormSafeWrites (xs ++ ys) := by
  rw [FormSafeWrites, Scanner.drain_append, hxs.1, List.nil_append]
  refine ⟨hys.1, fun command hmem => ?_⟩
  exact (List.mem_append.mp hmem).elim (hxs.2 command) (hys.2 command)

/-- A command at the front of a stream. -/
theorem formSafeWrites_cons {high low len : UInt8} {body : Bytes} (h : len.toNat ≤ body.length) :
    FormSafeWrites (cmdWrite :: high :: low :: len :: body) ↔
      WriteCommand.Avoids ⟨high.toNat * 256 + low.toNat, body.take len.toNat⟩ ∧
        FormSafeWrites (body.drop len.toNat) := by
  have hmove : commands.move (cmdWrite :: high :: low :: len :: body) = _ := nextCommand_cons h
  rw [FormSafeWrites, Scanner.drain_of_some hmove, FormSafeWrites]
  simp only [Option.toList_some, List.singleton_append, List.forall_mem_cons]
  tauto

/-! ## The host's side -/

section Recording

variable {σ ε α : Type}

/-- A port that keeps what has been written to it. -/
def recording (port : SerialPort σ) : SerialPort (σ × Bytes) where
  writeAll packet := ofExec fun s =>
    match exec (port.writeAll packet) s.1 with
    | (.ok ⟨⟩, t) => (.ok ⟨⟩, (t, s.2 ++ packet))
    | (.error e, t) => (.error e, (t, s.2))
  readExact n := ofExec fun s =>
    ((exec (port.readExact n) s.1).1, ((exec (port.readExact n) s.1).2, s.2))

/-- The bytes that a call puts on the line. -/
def sent (x : Driver ε (σ × Bytes) α) (s : σ) : Bytes := (exec x (s, [])).2.2

/-- The stream has grown by safe writes, or not at all. -/
def AddsSafeWrites (s t : σ × Bytes) : Prop := ∃ more, FormSafeWrites more ∧ t.2 = s.2 ++ more

theorem AddsSafeWrites.of_eq {s t : σ × Bytes} (h : t.2 = s.2) : AddsSafeWrites s t :=
  ⟨[], formSafeWrites_nil, by rw [h, List.append_nil]⟩

theorem AddsSafeWrites.trans (s t u : σ × Bytes) (h : AddsSafeWrites s t)
    (h' : AddsSafeWrites t u) :
    AddsSafeWrites s u := by
  obtain ⟨first, hfirst, hs⟩ := h
  obtain ⟨second, hsecond, ht⟩ := h'
  exact ⟨first ++ second, hfirst.append hsecond, by rw [ht, hs, List.append_assoc]⟩

theorem formSafeWrites_of_moves {x : Driver ε (σ × Bytes) α} (h : Moves AddsSafeWrites x) (s : σ) :
    FormSafeWrites (sent x s) := by
  obtain ⟨more, hsafe, hmore⟩ := h (s, [])
  rwa [sent, hmore, List.nil_append]

end Recording

/-! ## Blocks and images -/

section Writes

variable {σ : Type} {port : SerialPort σ} {addr : UInt16} {data : Bytes}

/-- The packet of a block. -/
def writePacket (addr : UInt16) (data : Bytes) : Bytes :=
  [cmdWrite, addrHigh addr, addrLow addr, UInt8.ofNat data.length] ++ data

theorem quiet_readAck (s : σ × Bytes) : (exec (readAck (recording port)) s).2.2 = s.2 := by
  rw [readAck, exec_bind]
  split
  · next byte t hread =>
      have hlog : t.2 = s.2 := congrArg (fun r => r.2.2) hread.symm
      split <;> exact hlog
  · next e t hread => exact congrArg (fun r => r.2.2) hread.symm

/-- A block that is not forbidden is sent as one packet, or not at all. -/
theorem log_writeBlock (hsafe : isForbidden addr data.length = false) (s : σ × Bytes) :
    (exec (writeBlock (recording port) addr data) s).2.2 =
      match exec (port.writeAll (writePacket addr data)) s.1 with
      | (.ok _, _) => s.2 ++ writePacket addr data
      | (.error _, _) => s.2 := by
  rw [writeBlock, hsafe, if_neg Bool.false_ne_true, exec_bind]
  cases hport : exec (port.writeAll (writePacket addr data)) s.1 with
  | mk result t =>
      cases result with
      | error e =>
          have hrun : exec (((recording port).writeAll (writePacket addr data)).mapErr
              ProtocolError.serialIo) s = (.error (.serialIo e), (t, s.2)) := by
            simp [mapErr, recording, hport]
          rw [writePacket] at hrun
          rw [hrun]
      | ok u =>
          have hrun : exec (((recording port).writeAll (writePacket addr data)).mapErr
              ProtocolError.serialIo) s = (.ok ⟨⟩, (t, s.2 ++ writePacket addr data)) := by
            simp [mapErr, recording, hport]
          rw [writePacket] at hrun
          rw [hrun]
          exact quiet_readAck _

theorem log_writeBlock_forbidden (h : isForbidden addr data.length = true) (s : σ × Bytes) :
    (exec (writeBlock (recording port) addr data) s).2.2 = s.2 := by
  rw [writeBlock, if_pos h, exec_throw]

/-- The block that was checked contains the one the radio writes. -/
theorem avoids_of_not_isForbidden {written : Bytes} (hsafe : isForbidden addr data.length = false)
    (hshort : written.length < 256) (hle : written.length ≤ data.length) :
    WriteCommand.Avoids ⟨addr.toNat, written⟩ := by
  rintro a hlow hhigh ⟨range, hrange, hstart, hstop⟩
  have hclear : ¬ (addr.toNat < range.2.toNat ∧
      range.1.toNat < min 0xFFFF (addr.toNat + min 0xFFFF data.length)) := by
    simpa only [isForbidden, List.any_eq_false, decide_eq_true_eq] using
      List.any_eq_false.mp hsafe range hrange
  have hsmall : range.1.toNat < 0x2000 := by
    have hall : ∀ r ∈ forbiddenRanges, r.1.toNat < 0x2000 := by simp [forbiddenRanges]
    exact hall range hrange
  simp only at hlow hhigh
  omega

/-- **What the radio makes of a packet**: one command it may write, and what is left of the
data once the length byte has been used up. -/
theorem formSafeWrites_writePacket (hsafe : isForbidden addr data.length = false) :
    FormSafeWrites (writePacket addr data) ↔ FormSafeWrites (data.drop (data.length % 256)) := by
  have hlen : (UInt8.ofNat data.length).toNat = data.length % 256 := UInt8.toNat_ofNat'
  have hle : data.length % 256 ≤ data.length := Nat.mod_le _ _
  have havoids : WriteCommand.Avoids ⟨addr.toNat, data.take (data.length % 256)⟩ := by
    apply avoids_of_not_isForbidden hsafe
    · rw [List.length_take]
      omega
    · rw [List.length_take]
      omega
  rw [writePacket]
  simp only [List.cons_append, List.nil_append]
  rw [formSafeWrites_cons (hlen.symm ▸ hle), hlen, Device.toNat_addrHigh_addrLow]
  exact and_iff_right havoids

/-- Every packet that fits the length byte is safe, and so is every block that is sent as one. -/
theorem writeBlock_addsSafeWrites (hlen : data.length < 256) :
    Moves AddsSafeWrites (writeBlock (recording port) addr data) := by
  intro s
  cases hsafe : isForbidden addr data.length with
  | true => exact .of_eq (log_writeBlock_forbidden hsafe s)
  | false =>
      have hpacket : FormSafeWrites (writePacket addr data) := by
        rw [formSafeWrites_writePacket hsafe, Nat.mod_eq_of_lt hlen, List.drop_length]
        exact formSafeWrites_nil
      have hlog := @log_writeBlock σ port addr data hsafe s
      split at hlog
      · exact ⟨_, hpacket, hlog⟩
      · exact .of_eq hlog

theorem uploadImage_addsSafeWrites (config : VariantConfig) (image : MemoryImage) :
    Moves AddsSafeWrites (uploadImage (recording port) config image) := by
  rw [uploadImage]
  split
  · exact fun s => .of_eq rfl
  · refine moves_forM AddsSafeWrites.trans (fun s => .of_eq rfl) fun addr _ => ?_
    refine Moves.retrying AddsSafeWrites.trans (fun s => .of_eq rfl)
      (writeBlock_addsSafeWrites ?_) _
    have hle : (image.readBytes addr.toNat writeBlockSize.toNat).length ≤ 16 :=
      List.length_take_le 16 _
    omega

end Writes

/-- A port that takes every packet, and a radio that never answers. -/
def silentPort : SerialPort PUnit where
  writeAll _ := pure ⟨⟩
  readExact _ := throw (.timedOut "timed out")

theorem sent_silentPort {addr : UInt16} {data : Bytes}
    (hsafe : isForbidden addr data.length = false) :
    sent (writeBlock (recording silentPort) addr data) ⟨⟩ = writePacket addr data := by
  rw [sent, log_writeBlock hsafe]
  rfl

/-- **Writes stay out of calibration memory** exactly when what a block has beyond its length
byte is itself made of such writes: blocks below 256 bytes are safe, and so is every upload. -/
theorem formSafeWrites_sent (addr : UInt16) (data : Bytes) (config : VariantConfig)
    (image : MemoryImage) :
    ((∀ (σ : Type) (port : SerialPort σ) (s : σ),
        FormSafeWrites (sent (writeBlock (recording port) addr data) s)) ↔
      isForbidden addr data.length = true ∨ FormSafeWrites (data.drop (data.length % 256))) ∧
    ∀ (σ : Type) (port : SerialPort σ) (s : σ),
      FormSafeWrites (sent (uploadImage (recording port) config image) s) ∧
        (image.length < requiredSize config →
          sent (uploadImage (recording port) config image) s = []) := by
  refine ⟨?_, fun σ port s =>
    ⟨formSafeWrites_of_moves (uploadImage_addsSafeWrites config image) s, fun hshort => ?_⟩⟩
  · cases hsafe : isForbidden addr data.length with
    | true =>
        refine iff_of_true (fun σ port s => ?_) (.inl rfl)
        rw [sent, log_writeBlock_forbidden hsafe]
        exact formSafeWrites_nil
    | false =>
        have hall : (∀ (σ : Type) (port : SerialPort σ) (s : σ),
            FormSafeWrites (sent (writeBlock (recording port) addr data) s)) ↔
              FormSafeWrites (writePacket addr data) := by
          constructor
          · intro h
            exact sent_silentPort hsafe ▸ h PUnit silentPort ⟨⟩
          · intro hpacket σ port s
            rw [sent, log_writeBlock hsafe]
            split
            · exact hpacket
            · exact formSafeWrites_nil
        rw [hall, formSafeWrites_writePacket hsafe]
        simp
  · rw [sent, uploadImage, if_pos hshort, exec_throw]

/-- An erased main memory is too short for a radio with an auxiliary block: nothing of it is
sent. -/
theorem formSafeWrites_sent_short :
    (MemoryImage.new 0x1800).length < requiredSize bfF8hpConfig ∧
      sent (uploadImage (recording silentPort) bfF8hpConfig (.new 0x1800)) ⟨⟩ = [] := by
  have hshort : (MemoryImage.new 0x1800).length < requiredSize bfF8hpConfig := by
    rw [MemoryImage.new, List.length_replicate]
    decide
  exact ⟨hshort, ((formSafeWrites_sent 0x0000 [] bfF8hpConfig _).2 PUnit silentPort ⟨⟩).2 hshort⟩

/-- 256 bytes that start like a write to the calibration data at `0x1F00`. -/
def disguisedBlock : Bytes := [0x58, 0x1F, 0x00, 0xFC] ++ List.replicate 252 0

/-- Sent as a block at address 0, the radio takes it for a write to calibration memory. -/
theorem not_formSafeWrites_disguisedBlock :
    ¬ FormSafeWrites (sent (writeBlock (recording silentPort) 0x0000 disguisedBlock) ⟨⟩) := by
  have hlen : disguisedBlock.length = 256 := by
    rw [disguisedBlock, List.length_append, List.length_replicate]
    rfl
  have hsafe : isForbidden 0x0000 disguisedBlock.length = false := by
    rw [hlen]
    simp [isForbidden, forbiddenRanges]
  have hdata : disguisedBlock = cmdWrite :: 0x1F :: 0x00 :: 0xFC :: List.replicate 252 0 := rfl
  have hbody : (0xFC : UInt8).toNat = (List.replicate 252 (0 : UInt8)).length :=
    (List.length_replicate).symm
  rw [sent_silentPort hsafe, formSafeWrites_writePacket hsafe, hlen, List.drop_zero, hdata,
    formSafeWrites_cons hbody.le, hbody, List.take_length]
  rintro ⟨havoids, -⟩
  have hcalibration : Calibration 0x1F00 :=
    ⟨(0x1F00, 0x1F60), by simp [forbiddenRanges], by decide, by decide⟩
  refine havoids 0x1F00 (by decide) ?_ hcalibration
  rw [List.length_replicate]
  decide

end Akroasis.Radio
