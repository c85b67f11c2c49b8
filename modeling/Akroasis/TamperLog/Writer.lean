import Akroasis.TamperLog.History

/-!
# Akroasis.TamperLog.Writer

The writer's side of the log (`tamper_log.rs`): opening with state recovery, appending,
sealing and rotating.

Every operation is given as the list of its file-system steps together with what it
returns, so that the same definition serves the completed operation (`applyAll`) and
the interrupted one (`CrashAt`).
-/

namespace Akroasis.TamperLog

/-- Configuration for a log instance: the rotation threshold in bytes, by default
100 MiB. -/
structure TamperLogConfig where
  maxFileBytes : Nat := 100 * 1024 * 1024

/-- An open log.  The buffered writer is flushed by every operation that fills it, and
the lock it holds is a matter of whoever holds the handle. -/
structure Log where
  path : FileName
  prevHash : Hash
  segmentStartHash : Hash
  sequence : Nat
  bytesWritten : Nat
  maxFileBytes : Nat
  chainKey : ChainKey
  signer : Option TipSigner

/-- The file-system steps of an operation and its result. -/
abbrev Outcome (α : Type) := List FsOp × Except TamperLogError α

/-- The largest file the operating system lets a write produce; a write past it fails. -/
def maxFileLen : Nat := 2 ^ 63 - 1

/-! ## State recovery -/

/-- The loop of `recover_state`: skips every payload and trusts the stored hashes. -/
def recoverLoop : Nat → Hash → Nat → Nat → Bytes → Hash × Nat × Nat
  | 0, prev, sequence, bytesRead, _ => (prev, sequence, bytesRead)
  | fuel + 1, prev, sequence, bytesRead, bs =>
      match readExact 4 bs with
      | none => (prev, sequence, bytesRead)
      | some (lenBuf, rest) =>
          if maxEntryBytes < ofLeBytes lenBuf then (prev, sequence, bytesRead)
          else match readExact 32 (rest.drop (ofLeBytes lenBuf)) with
            | none => (prev, sequence, bytesRead)
            | some (hash, rest) =>
                recoverLoop fuel (FixedBytes.slice 32 0 hash) (sequence + 1)
                  (bytesRead + (4 + ofLeBytes lenBuf + 32)) rest

/-- `recover_state`: `(prev_hash, next_sequence, bytes_written)` of a log file. -/
def recoverState (d : Directory) (path : FileName) (segmentStartHash : Hash) : Hash × Nat × Nat :=
  match d.lookup path with
  | none => (segmentStartHash, 0, 0)
  | some bs =>
      if bs.length = 0 then (segmentStartHash, 0, 0)
      else recoverLoop (bs.length + 1) segmentStartHash 0 0 bs

section

variable (E : Crates)

/-! ## Sealing and rotating -/

/-- The provenance `refresh_seal` records when the handle has a signer. -/
def Log.provenance (log : Log) : Option TipProvenance :=
  log.signer.map fun signer =>
    { keyId := signer.keyId
      terminalHash := log.prevHash
      signature := signer.signTip (tipPayload log.prevHash) }

/-- `refresh_seal`. -/
def refreshSeal (log : Log) : List FsOp :=
  writeSeal E log.path log.chainKey log.sequence log.segmentStartHash log.provenance

/-- The handle after `rotate`: the next segment is linked from the last hash. -/
def Log.rotated (log : Log) : Log :=
  { log with segmentStartHash := log.prevHash, sequence := 0, bytesWritten := 0 }

/-- `rotate`: the steps it takes in the directory `d`. -/
def rotate (d : Directory) (log : Log) : List FsOp :=
  let n := nextRotationNumber d.keys log.path
  let rotated := rotationPath log.path n
  let renamed := (FsOp.rename log.path rotated).apply d
  .rename log.path rotated :: (renameSeal renamed log.path rotated ++
    .openAppend log.path :: refreshSeal E log.rotated)

/-! ## Appending -/

/-- The handle after an entry was written and before any rotation. -/
def Log.advanced (log : Log) (wire : Bytes) (hash : Hash) : Log :=
  { log with
    prevHash := hash
    sequence := log.sequence + 1
    bytesWritten := log.bytesWritten + wire.length }

/-- The steps that write and seal one entry. -/
def commitEntry (log : Log) (wire : Bytes) (hash : Hash) : List FsOp :=
  .write log.path wire :: refreshSeal E (log.advanced wire hash)

/-- `append` at wall-clock time `now`: the sequence number and the handle after it. -/
def append (d : Directory) (log : Log) (kind : LogEntryKind) (now : Int) :
    Outcome (Nat × Log) :=
  let entry : LogEntry := { sequence := log.sequence, timestampMs := now, kind := kind }
  match encodeEntry E entry log.prevHash log.chainKey with
  | .error e => ([], .error e)
  | .ok (wire, hash) =>
      if maxFileLen < ((d.lookup log.path).getD []).length + wire.length then
        ([], .error (.io log.path))
      else
        let ops := commitEntry E log wire hash
        let log' := log.advanced wire hash
        if log'.maxFileBytes < log'.bytesWritten then
          (ops ++ rotate E (FsOp.applyAll d ops) log', .ok (log.sequence, log'.rotated))
        else
          (ops, .ok (log.sequence, log'))

/-! ## Opening -/

/-- The check an existing file must pass before it is resumed. -/
def resumable : ChainStatus → Bool
  | .intact | .empty | .unsealed _ _ => true
  | .broken _ _ _ | .corrupted _ | .truncated _ => false

/-- The verification of `open_inner`, made only when the file exists. -/
def preflight (d : Directory) (path : FileName) (key : ChainKey) : Except TamperLogError Unit :=
  match d.lookup path with
  | none => .ok ()
  | some _ =>
      match verifyChain E d path key with
      | .error e => .error e
      | .ok v => if resumable v.status then .ok () else .error (.chainCompromised path v.status)

/-- The start hash of `open_inner`: a file that does not exist starts at genesis. -/
def openStart (d : Directory) (path : FileName) (key : ChainKey) : Hash :=
  match d.lookup path with
  | none => genesisHash E key
  | some _ => resolveStartHash E (readSeal E d path key) key

/-- `open_inner`; `held` says whether another handle holds the lock. -/
def openInner (d : Directory) (held : Bool) (path : FileName) (key : ChainKey)
    (config : TamperLogConfig) (signer : Option TipSigner) : Outcome Log :=
  let lock := [FsOp.openAppend (lockPath path)]
  if held then (lock, .error (.locked path))
  else match preflight E d path key with
    | .error e => (lock, .error e)
    | .ok () =>
        let start := openStart E d path key
        let (prevHash, sequence, bytesWritten) := recoverState d path start
        let log : Log :=
          { path := path
            prevHash := prevHash
            segmentStartHash := start
            sequence := sequence
            bytesWritten := bytesWritten
            maxFileBytes := config.maxFileBytes
            chainKey := key
            signer := signer }
        (lock ++ .openAppend path :: refreshSeal E log, .ok log)

/-- `with_max_file_bytes`. -/
def Log.withMaxFileBytes (log : Log) (limit : Nat) : Log :=
  { log with maxFileBytes := limit }

end

variable {E : Crates}

/-! ## What recovery finds -/

theorem recoverLoop_frame (fuel : Nat) (prev : Hash) (sequence bytesRead : Nat) {payload : Bytes}
    (hlen : payload.length ≤ maxEntryBytes) (hash : Hash) (rest : Bytes) :
    recoverLoop (fuel + 1) prev sequence bytesRead (frame payload hash ++ rest) =
      recoverLoop fuel hash (sequence + 1) (bytesRead + (frame payload hash).length) rest := by
  have hsplit : frame payload hash ++ rest =
      leBytes 4 payload.length ++ (payload ++ (hash.val ++ rest)) := by
    simp [frame]
  rw [hsplit, recoverLoop, readExact_append (length_leBytes 4 _)]
  simp only [ofLeBytes_length hlen]
  rw [if_neg (by omega), drop_append_of_length rfl, readExact_append hash.property, length_frame]
  simp only [slice_zero]

theorem recoverLoop_encodeFrames (fuel : Nat) (prev : Hash) (sequence bytesRead : Nat)
    {key : ChainKey} {ps : List Bytes} (hlen : ∀ p ∈ ps, p.length ≤ maxEntryBytes) (rest : Bytes) :
    recoverLoop (ps.length + fuel) prev sequence bytesRead (encodeFrames E key prev ps ++ rest) =
      recoverLoop fuel (chainEnd E key prev ps) (sequence + ps.length)
        (bytesRead + (encodeFrames E key prev ps).length) rest := by
  induction ps generalizing prev sequence bytesRead with
  | nil => simp [encodeFrames]
  | cons p ps ih =>
      rw [List.length_cons, Nat.add_right_comm, encodeFrames, List.append_assoc,
        recoverLoop_frame _ _ _ _ (hlen p List.mem_cons_self),
        ih _ _ _ fun q hq => hlen q (List.mem_cons_of_mem _ hq), chainEnd_cons,
        List.length_append]
      congr 1 <;> omega

/-- The count of a file that can be written, and that of the file with one more entry, fit
into a seal. -/
theorem count_lt_of_fits {key : ChainKey} {start : Hash} {ps : List Bytes}
    (h : (encodeFrames E key start ps).length ≤ maxFileLen) : ps.length + 1 < 2 ^ 64 := by
  have hle := length_le_length_encodeFrames E key start ps
  simp only [maxFileLen] at h
  omega

/-- Recovery finds the end of the chain, the number of frames and their length; a tail
too short for a length prefix is passed over. -/
theorem recoverState_eq {d : Directory} {path : FileName} {key : ChainKey} {start : Hash}
    {ps : List Bytes} {rest : Bytes}
    (hd : d.lookup path = some (encodeFrames E key start ps ++ rest))
    (hrest : rest.length < 4) (hlen : ∀ p ∈ ps, p.length ≤ maxEntryBytes) :
    recoverState d path start =
      (chainEnd E key start ps, ps.length, (encodeFrames E key start ps).length) := by
  have hfuel := length_le_length_encodeFrames E key start ps
  have hloop : recoverLoop ((encodeFrames E key start ps ++ rest).length + 1) start 0 0
      (encodeFrames E key start ps ++ rest) =
      (chainEnd E key start ps, ps.length, (encodeFrames E key start ps).length) := by
    obtain ⟨fuel, hf⟩ : ∃ fuel, (encodeFrames E key start ps ++ rest).length + 1 =
        ps.length + (fuel + 1) :=
      ⟨(encodeFrames E key start ps ++ rest).length - ps.length, by
        rw [List.length_append]; omega⟩
    rw [hf, recoverLoop_encodeFrames _ _ _ _ hlen, recoverLoop,
      readExact_eq_none.mpr hrest]
    simp
  rw [recoverState, hd]
  simp only
  by_cases hzero : (encodeFrames E key start ps ++ rest).length = 0
  · have hnil : ps = [] := by
      rw [List.length_append] at hzero
      exact List.eq_nil_of_length_eq_zero (by omega)
    subst hnil
    rw [if_pos hzero]
    rfl
  · rw [if_neg hzero, hloop]

/-! ## The handle and the history -/

/-- The handle knows the state of the history it appends to. -/
structure Log.Agrees (log : Log) (path : FileName) (key : ChainKey) (H : History E) : Prop where
  path_eq : log.path = path
  key_eq : log.chainKey = key
  prevHash_eq : log.prevHash = H.tip key
  start_eq : log.segmentStartHash = H.liveStart key
  sequence_eq : log.sequence = H.live.records.length
  bytes_eq : log.bytesWritten = (encodeFrames E key (H.liveStart key) H.live.payloads).length

/-- The handle knows the end of the chain of a live file that holds `payloads` from
`start` on. -/
structure Log.At (E : Crates) (path : FileName) (key : ChainKey) (log : Log) (start : Hash)
    (payloads : List Bytes) : Prop where
  path_eq : log.path = path
  key_eq : log.chainKey = key
  prevHash_eq : log.prevHash = chainEnd E key start payloads
  start_eq : log.segmentStartHash = start
  sequence_eq : log.sequence = payloads.length
  bytes_eq : log.bytesWritten = (encodeFrames E key start payloads).length

namespace Log.At

variable {path : FileName} {key : ChainKey} {log : Log} {start : Hash} {payloads : List Bytes}
  {payload wire : Bytes} {hash : Hash}

/-- The frame of the next entry continues the file. -/
theorem encodeFrames_snoc (h : log.At E path key start payloads)
    (hhash : hash = linkHash E log.chainKey payload log.prevHash)
    (hwire : wire = frame payload hash) :
    encodeFrames E key start (payloads ++ [payload]) =
      encodeFrames E key start payloads ++ wire := by
  rw [encodeFrames_append, hwire, hhash, h.key_eq, h.prevHash_eq]
  simp [encodeFrames]

/-- After the next entry. -/
theorem advanced (h : log.At E path key start payloads)
    (hhash : hash = linkHash E log.chainKey payload log.prevHash)
    (hwire : wire = frame payload hash) :
    (log.advanced wire hash).At E path key start (payloads ++ [payload]) where
  path_eq := h.path_eq
  key_eq := h.key_eq
  prevHash_eq := by
    rw [chainEnd_append, Log.advanced, hhash, h.key_eq, h.prevHash_eq]
    rfl
  start_eq := h.start_eq
  sequence_eq := by simp [Log.advanced, h.sequence_eq]
  bytes_eq := by simp [h.encodeFrames_snoc hhash hwire, Log.advanced, h.bytes_eq]

/-- After a rotation. -/
theorem rotated (h : log.At E path key start payloads) :
    log.rotated.At E path key (chainEnd E key start payloads) [] :=
  ⟨h.path_eq, h.key_eq, h.prevHash_eq, h.prevHash_eq, rfl, rfl⟩

end Log.At

section Steps

variable {d : Directory} {path : FileName} {key : ChainKey} {H : History E} {log : Log}

/-- Sealing touches the seal and its temporary only. -/
theorem sealFile_of_touched {op : FsOp} (hop : op ∈ refreshSeal E log) {name : FileName}
    (hname : name ∈ op.touched) :
    name = LogFile.sealTmp.name log.path ∨ name = LogFile.liveSeal.name log.path := by
  simp only [refreshSeal, writeSeal, List.mem_cons, List.not_mem_nil, or_false] at hop
  rcases hop with rfl | rfl | rfl | rfl | rfl <;> simp only [FsOp.touched, List.mem_cons,
    List.not_mem_nil, or_false] at hname
  · exact .inl hname
  · exact .inl hname
  · exact hname

theorem touched_refreshSeal (log : Log) :
    ∀ op ∈ refreshSeal E log, ∀ name ∈ op.touched, ∃ f : LogFile, name = f.name log.path := by
  intro op hop name hname
  rcases sealFile_of_touched hop hname with h | h
  · exact ⟨.sealTmp, h⟩
  · exact ⟨.liveSeal, h⟩

end Steps

end Akroasis.TamperLog
