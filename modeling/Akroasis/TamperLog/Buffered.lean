import Akroasis.BufWriter
import Akroasis.Machine
import Akroasis.TamperLog.Runs

/-!
# Akroasis.TamperLog.Buffered

One handle whose writes and flushes may fail (`append` and `flush` of `tamper_log.rs` over
`std::io::BufWriter`).

A failed append leaves the handle's chain state as it was, but not its writer: what the
file did not take stays in the buffer and goes in front of the next entry, and what it took
stays in the file.  As long as nothing of a failed append is left when an append starts
(`NothingLeft`), the files go on to hold a history (`holds_step`); a flush that fails, with
an append after it that returns `Ok`, breaks the chain.
-/

namespace Akroasis.TamperLog

open BufWriter

/-! ## The handle and its writer -/

/-- The capacity of a `BufWriter`. -/
def bufCapacity : Nat := 8 * 1024

/-- What the I/O calls of one `append` meet: emptying the buffer, writing past it, flushing
it, the file's own flush, and the same for the rotation.  A seal fails in step `k` of
`write_seal`, of which `j` bytes may have been written. -/
structure Faults where
  spill : Attempt := .all
  direct : Attempt := .all
  flush : Attempt := .all
  accepted : Bool := true
  sealFails : Option (Nat × Nat) := none
  rotateAccepted : Bool := true
  rotateSealFails : Option (Nat × Nat) := none

/-- An open handle, what its writer holds back, and the appends that were tried since it
was opened, each with whether it returned `Ok`. -/
structure BufferedLog where
  dir : Directory
  log : Log
  buf : Bytes
  attempts : List (Bool × (LogEntryKind × Int))

namespace BufferedLog

/-- The length of the live file. -/
def fileLen (s : BufferedLog) : Nat := ((s.dir.lookup s.log.path).getD []).length

/-- What a call hands to the file goes to its end. -/
def put (s : BufferedLog) (t : Transfer UInt8) : BufferedLog :=
  { s with dir := (FsOp.write s.log.path t.out).apply s.dir, buf := t.buf }

/-- `flush`; `accepted` is what the file answers to its own flush. -/
def flush (s : BufferedLog) (attempt : Attempt) (accepted : Bool) : Bool × BufferedLog :=
  let flushed := flushBuf s.buf attempt
  (flushed.ok && accepted, s.put flushed)

/-- The writes of one entry: `write_all`, then `flush`. -/
def writeWire (s : BufferedLog) (wire : Bytes) (faults : Faults) : Bool × BufferedLog :=
  let written := writeAll bufCapacity s.buf wire faults.spill faults.direct
  if written.ok then (s.put written).flush faults.flush faults.accepted
  else (false, s.put written)

section

variable (E : Crates)

/-- `rotate`, which starts with a flush of the writer; the new file gets a new writer. -/
def rotate (s : BufferedLog) (faults : Faults) : Bool × BufferedLog :=
  let (flushed, s) := s.flush .all faults.rotateAccepted
  if !flushed then (false, s)
  else
    let steps := TamperLog.rotate E s.dir s.log
    let moves := steps.length - (refreshSeal E s.log.rotated).length
    match faults.rotateSealFails with
    | some (k, j) => (false, { s with
        dir := FsOp.applyAll s.dir (FsOp.failing steps (moves + k) j)
        log := s.log.rotated
        buf := [] })
    | none => (true, { s with dir := FsOp.applyAll s.dir steps, log := s.log.rotated, buf := [] })

/-- What `append` does once the entry is written: the handle advances, is sealed and, past
the threshold, rotated. -/
def sealWritten (s : BufferedLog) (wire : Bytes) (hash : Hash) (faults : Faults) :
    Bool × BufferedLog :=
  let log := s.log.advanced wire hash
  match faults.sealFails with
  | some (k, j) =>
      (false, { s with
        dir := FsOp.applyAll s.dir (FsOp.failing (refreshSeal E log) k j)
        log := log })
  | none =>
      let s := { s with dir := FsOp.applyAll s.dir (refreshSeal E log), log := log }
      if log.maxFileBytes < log.bytesWritten then s.rotate E faults else (true, s)

/-- `append`: the sequence number it returns, if it returns `Ok`, and the handle after it. -/
def append (s : BufferedLog) (kind : LogEntryKind) (now : Int) (faults : Faults) :
    Except TamperLogError Nat × BufferedLog :=
  match encodeEntry E ⟨s.log.sequence, now, kind⟩ s.log.prevHash s.log.chainKey with
  | .error e => (.error e, s)
  | .ok (wire, hash) =>
      let (ok, written) := s.writeWire wire faults
      if !ok then (.error (.io s.log.path), written)
      else
        let (ok, done) := written.sealWritten E wire hash faults
        if !ok then (.error (.io s.log.path), done) else (.ok s.log.sequence, done)

end

end BufferedLog

/-- The calls on a handle. -/
inductive HandleOp
  | append (kind : LogEntryKind) (now : Int) (faults : Faults)
  | flush (attempt : Attempt) (accepted : Bool)

namespace BufferedLog

section

variable (E : Crates)

/-- How long the live file is when a call has written. -/
def reaches (s : BufferedLog) : HandleOp → Nat
  | .append kind now faults =>
      match encodeEntry E ⟨s.log.sequence, now, kind⟩ s.log.prevHash s.log.chainKey with
      | .error _ => s.fileLen
      | .ok (wire, _) => (s.writeWire wire faults).2.fileLen
  | .flush attempt accepted => (s.flush attempt accepted).2.fileLen

/-- One call; no write makes a file longer than a file can be. -/
def step (s : BufferedLog) (op : HandleOp) : Option BufferedLog :=
  if maxFileLen < s.reaches E op then none
  else match op with
    | .append kind now faults =>
        let (res, s') := s.append E kind now faults
        some { s' with attempts := s.attempts ++ [(res.isOk, (kind, now))] }
    | .flush attempt accepted => some (s.flush attempt accepted).2

end

/-- Nothing of a failed append is left when an append starts: the buffer is empty and the
file is as long as the handle counts.  The rotation numbers are not used up either. -/
def NothingLeft (s : BufferedLog) : HandleOp → Prop
  | .append _ _ _ => s.buf = [] ∧ s.fileLen = s.log.bytesWritten ∧
      nextRotationNumber s.dir.keys s.log.path < maxU32
  | .flush _ _ => True

instance (s : BufferedLog) : ∀ op, Decidable (s.NothingLeft op)
  | .append _ _ _ => inferInstanceAs (Decidable (_ ∧ _ ∧ _))
  | .flush _ _ => inferInstanceAs (Decidable True)

end BufferedLog

variable {E : Crates} {path : FileName} {key : ChainKey} {H₀ H : History E} {s s' : BufferedLog}
  {d : Directory} {wire : Bytes} {faults : Faults}

/-! ## What reaches the file -/

/-- An entry that was written with nothing held back is all that was added to the file. -/
theorem writeWire_ok (hbuf : s.buf = []) (h : (s.writeWire wire faults).1 = true) :
    (s.writeWire wire faults).2 =
      { s with dir := (FsOp.write s.log.path wire).apply s.dir, buf := [] } := by
  unfold BufferedLog.writeWire at h ⊢
  by_cases hok : (writeAll bufCapacity s.buf wire faults.spill faults.direct).ok = true
  · have hparts := writeAll_parts (by decide) hok
    simp only [hok, if_true, BufferedLog.flush, BufferedLog.put, Bool.and_eq_true] at h ⊢
    obtain ⟨hout, hrest⟩ := flushBuf_ok h.1
    rw [hout, hrest, FsOp.write_write, hparts, hbuf, List.nil_append]
  · simp [hok] at h

/-- Whatever was written of an entry went to the end of the live file. -/
theorem writeWire_dir (s : BufferedLog) (wire : Bytes) (faults : Faults) :
    (s.writeWire wire faults).2.log = s.log ∧ (s.writeWire wire faults).2.attempts = s.attempts ∧
      ∃ bytes, (s.writeWire wire faults).2.dir = (FsOp.write s.log.path bytes).apply s.dir := by
  unfold BufferedLog.writeWire
  by_cases hok : (writeAll bufCapacity s.buf wire faults.spill faults.direct).ok = true
  · simp only [hok, if_true]
    exact ⟨rfl, rfl, _, FsOp.write_write _ _ _ _⟩
  · simp only [hok]
    exact ⟨rfl, rfl, _, rfl⟩

theorem OwnFiles.write (h : OwnFiles d path) (bytes : Bytes) :
    OwnFiles ((FsOp.write path bytes).apply d) path := by
  have hops : OwnFiles (FsOp.applyAll d [.write path bytes]) path :=
    h.applyAll fun op hop name hname => by
      obtain rfl := List.mem_singleton.mp hop
      exact ⟨.live, List.mem_singleton.mp hname⟩
  exact hops

/-- Writing nothing. -/
theorem Represents.write_nil (h : Represents d path key H) :
    Represents ((FsOp.write path []).apply d) path key H := by
  have hfiles : ∀ f, file ((FsOp.write path []).apply d) path f = file d path f := by
    intro f
    refine (file_write d path f .live []).trans ?_
    by_cases hf : f = .live
    · rw [if_pos hf, hf]; simp
    · rw [if_neg hf]
  exact ⟨h.toStored.update rfl (h.own.write []) (fun n => hfiles _) (fun n => hfiles _)
    ((hfiles _).trans h.contents) h.count_lt, (hfiles _).symm ▸ h.sealed⟩

/-- Programs that touch the live seal and its temporary only. -/
def SealOnly (path : FileName) (ops : List FsOp) : Prop :=
  ∀ op ∈ ops, ∀ name ∈ op.touched,
    name = LogFile.sealTmp.name path ∨ name = LogFile.liveSeal.name path

theorem sealOnly_refreshSeal (log : Log) : SealOnly log.path (refreshSeal E log) :=
  fun _ hop _ hname => sealFile_of_touched hop hname

theorem SealOnly.failing {ops : List FsOp} (h : SealOnly path ops) (k j : Nat) :
    SealOnly path (FsOp.failing ops k j) := by
  intro op hop name hname
  obtain ⟨o, ho, hmem⟩ := FsOp.touched_failing hop hname
  exact h o ho name hmem

/-- Such a program leaves every other file alone. -/
theorem SealOnly.file_eq {ops : List FsOp} (h : SealOnly path ops) (d : Directory) {f : LogFile}
    (htmp : f ≠ .sealTmp) (hseal : f ≠ .liveSeal) :
    file (FsOp.applyAll d ops) path f = file d path f := by
  refine FsOp.lookup_applyAll_of_not_touched d ops _ fun op hop hname => ?_
  rcases h op hop _ hname with heq | heq
  · exact htmp (LogFile.name_inj.mp heq)
  · exact hseal (LogFile.name_inj.mp heq)

/-- A history is stored after one such program as it is after another. -/
theorem SealOnly.stored {ops ops' : List FsOp} (h : SealOnly path ops) (h' : SealOnly path ops')
    (hown : OwnFiles d path) (hstored : Stored (FsOp.applyAll d ops) path key H) :
    Stored (FsOp.applyAll d ops') path key H := by
  have hfile : ∀ f : LogFile, f ≠ .sealTmp → f ≠ .liveSeal →
      file (FsOp.applyAll d ops') path f = file (FsOp.applyAll d ops) path f := fun f htmp hseal =>
    (h'.file_eq d htmp hseal).trans (h.file_eq d htmp hseal).symm
  refine hstored.update rfl (hown.applyAll fun op hop name hname => ?_)
    (fun n => hfile _ (by simp) (by simp)) (fun n => hfile _ (by simp) (by simp)) ?_
      hstored.count_lt
  · rcases h' op hop name hname with heq | heq
    · exact ⟨.sealTmp, heq⟩
    · exact ⟨.liveSeal, heq⟩
  · rw [hfile _ (by simp) (by simp)]
    exact hstored.contents

/-! ## The invariant -/

/-- The entries of `H` are those of `H₀` and, each once and in order, appends that were
tried since; every append that returned `Ok` is among them. -/
def Tallies (H₀ H : History E) (attempts : List (Bool × (LogEntryKind × Int))) : Prop :=
  ∃ kept : List (Bool × (LogEntryKind × Int)), kept.Sublist attempts ∧
    kept.filter (·.1) = attempts.filter (·.1) ∧
    H.records.map Record.event = H₀.records.map Record.event ++ kept.map (·.2)

namespace Tallies

variable {attempts : List (Bool × (LogEntryKind × Int))}

theorem refl (H : History E) : Tallies H H [] := ⟨[], .slnil, rfl, by simp⟩

/-- An append that failed need not have left an entry. -/
theorem failed (h : Tallies H₀ H attempts) (event : LogEntryKind × Int) :
    Tallies H₀ H (attempts ++ [(false, event)]) := by
  obtain ⟨kept, hsub, hfilter, hevents⟩ := h
  exact ⟨kept, hsub.trans (List.sublist_append_left _ _), by simpa using hfilter, hevents⟩

/-- An entry that was written counts, whatever its append returned. -/
theorem push (h : Tallies H₀ H attempts) (r : Record E)
    (hseq : r.entry.sequence = H.live.records.length) (ok : Bool) :
    Tallies H₀ (H.push r hseq) (attempts ++ [(ok, r.event)]) := by
  obtain ⟨kept, hsub, hfilter, hevents⟩ := h
  refine ⟨kept ++ [(ok, r.event)], hsub.append (.refl _), by simp [hfilter], ?_⟩
  simp [History.records_push, hevents]

theorem rotate (h : Tallies H₀ H attempts) (hne : H.live.records ≠ []) :
    Tallies H₀ (H.rotate hne) attempts := by
  unfold Tallies at h ⊢
  rwa [History.records_rotate]

end Tallies

/-- The files hold `H`, with whatever failed appends left after its last entry; the handle
knows where `H` ends. -/
structure Holds (path : FileName) (key : ChainKey) (s : BufferedLog) (H : History E) : Prop
    extends RotatedFiles s.dir path key H.rotated where
  contents : ∃ rest, file s.dir path .live =
    some (encodeFrames E key (H.liveStart key) H.live.payloads ++ rest)
  count_lt : H.live.records.length < 2 ^ 64
  agrees : s.log.Agrees path key H

namespace Holds

theorem of_stored (h : Stored s.dir path key H) (hlog : s.log.Agrees path key H) :
    Holds path key s H :=
  ⟨h.toRotatedFiles, ⟨[], by rw [List.append_nil]; exact h.contents⟩, h.count_lt, hlog⟩

/-- More bytes at the end of the live file. -/
theorem write (h : Holds path key s H) (bytes : Bytes) (hlog : s'.log = s.log)
    (hdir : s'.dir = (FsOp.write s.log.path bytes).apply s.dir) : Holds path key s' H := by
  obtain ⟨rest, hrest⟩ := h.contents
  have hfiles : ∀ f, file s'.dir path f =
      if f = .live then (file s.dir path .live).map (· ++ bytes) else file s.dir path f := by
    intro f
    rw [hdir, h.agrees.path_eq]
    exact file_write s.dir path f .live bytes
  have hown : OwnFiles s'.dir path := by
    rw [hdir, h.agrees.path_eq]
    exact h.own.write bytes
  refine ⟨h.toRotatedFiles.congr hown ?_ ?_, ⟨rest ++ bytes, ?_⟩, h.count_lt, hlog ▸ h.agrees⟩
  · intro n; rw [hfiles]; simp
  · intro n; rw [hfiles]; simp
  · rw [hfiles, hrest]; simp

/-- A file as long as the handle counts holds the entries and nothing else. -/
theorem stored (h : Holds path key s H) (hlen : s.fileLen = s.log.bytesWritten) :
    Stored s.dir path key H := by
  obtain ⟨rest, hrest⟩ := h.contents
  refine ⟨h.toRotatedFiles, ?_, h.count_lt⟩
  have hlive : s.dir.lookup s.log.path =
      some (encodeFrames E key (H.liveStart key) H.live.payloads ++ rest) := by
    rw [h.agrees.path_eq]; exact hrest
  rw [BufferedLog.fileLen, hlive, h.agrees.bytes_eq, Option.getD_some, List.length_append] at hlen
  rw [hrest, List.eq_nil_of_length_eq_zero (show rest.length = 0 by omega), List.append_nil]

end Holds

/-- What the files and the handle hold when an append is past its writes: a history, under
an exact seal if the append returns `Ok`. -/
structure Settled (path : FileName) (key : ChainKey) (ok : Bool) (s : BufferedLog) (H : History E) :
    Prop where
  stored : Stored s.dir path key H
  agrees : s.log.Agrees path key H
  represents : ok = true → Represents s.dir path key H

/-- A rotation whose seal fails has moved the segment away all the same. -/
theorem Represents.rotate_failing {log : Log} (h : Represents d path key H)
    (hlog : log.Agrees path key H) (hne : H.live.records ≠ []) (hbound : H.rotated.length < maxU32)
    (k j : Nat) :
    Stored (FsOp.applyAll d (FsOp.failing (TamperLog.rotate E d log)
      ((TamperLog.rotate E d log).length - (refreshSeal E log.rotated).length + k) j))
      path key (H.rotate hne) := by
  obtain ⟨hrotated, -⟩ := h.rotate hlog hne hbound
  obtain ⟨tip, hsealed⟩ := h.sealed
  obtain rfl := hlog.path_eq
  have hsteps := rotate_eq (E := E) log h.contents hsealed
  set moves := setAside log (nextRotationNumber d.keys log.path) ++
    [.openAppend log.path] with hmoves
  have hsplit : TamperLog.rotate E d log = moves ++ refreshSeal E log.rotated := by
    rw [hsteps, hmoves, List.append_assoc]; rfl
  have hown : OwnFiles (FsOp.applyAll d moves) log.path := h.own.applyAll fun op hop =>
    touched_rotate (E := E) d log op (hsplit ▸ List.mem_append_left _ hop)
  have hseal : SealOnly log.path (refreshSeal E log.rotated) := sealOnly_refreshSeal log.rotated
  have hstored := hrotated.toStored
  rw [hsplit, FsOp.applyAll_append] at hstored
  rw [hsplit, List.length_append, Nat.add_sub_cancel, FsOp.failing_append, FsOp.applyAll_append]
  exact hseal.stored (hseal.failing k j) hown hstored

/-- A rotation with nothing held back happens, or leaves the live file as it is. -/
theorem settled_rotate (faults : Faults) (h : Represents s.dir path key H)
    (hlog : s.log.Agrees path key H) (hbuf : s.buf = []) (hne : H.live.records ≠ [])
    (hbound : H.rotated.length < maxU32) :
    ∃ H', (H' = H ∨ H' = H.rotate hne) ∧
      Settled path key (s.rotate E faults).1 (s.rotate E faults).2 H' := by
  have hpath := hlog.path_eq
  set d := (FsOp.write s.log.path []).apply s.dir with hd
  have hrep : Represents d path key H := by rw [hd, hpath]; exact h.write_nil
  have hflush : ∀ accepted, s.flush .all accepted = (accepted, { s with dir := d, buf := [] }) := by
    intro accepted
    simp [BufferedLog.flush, BufferedLog.put, hbuf, hd]
  cases haccepted : faults.rotateAccepted with
  | false =>
      refine ⟨H, .inl rfl, ?_⟩
      simp only [BufferedLog.rotate, haccepted, hflush, Bool.not_false, if_true]
      exact ⟨hrep.toStored, hlog, fun hok => by cases hok⟩
  | true =>
      obtain ⟨hrotated, hagrees⟩ := hrep.rotate hlog hne hbound
      refine ⟨_, .inr rfl, ?_⟩
      cases hfails : faults.rotateSealFails with
      | none =>
          simp only [BufferedLog.rotate, haccepted, hflush, hfails, Bool.not_true]
          exact ⟨hrotated.toStored, hagrees, fun _ => hrotated⟩
      | some fault =>
          simp only [BufferedLog.rotate, haccepted, hflush, hfails, Bool.not_true]
          exact ⟨hrep.rotate_failing hlog hne hbound fault.1 fault.2, hagrees,
            fun hok => by cases hok⟩

/-- An entry that was written is the next of the history, whatever happens after that. -/
theorem settled_sealWritten (faults : Faults) (h : Stored s.dir path key H)
    (hlog : s.log.Agrees path key H) (hbound : H.rotated.length < maxU32) (r : Record E)
    (hseq : r.entry.sequence = H.live.records.length) {hash : Hash}
    (hhash : hash = linkHash E key r.payload (H.tip key)) (hwire : wire = frame r.payload hash)
    (hfit : (encodeFrames E key (H.liveStart key) H.live.payloads).length + wire.length ≤
      maxFileLen)
    (hs' : s' = { s with dir := (FsOp.write s.log.path wire).apply s.dir, buf := [] }) :
    ∃ H', (H' = H.push r hseq ∨ ∃ hne, H' = (H.push r hseq).rotate hne) ∧
      Settled path key (s'.sealWritten E wire hash faults).1
        (s'.sealWritten E wire hash faults).2 H' := by
  obtain ⟨hrep, hagrees⟩ := h.commit hlog r hseq hhash hwire hfit
  have hpath := hlog.path_eq
  subst hs'
  unfold BufferedLog.sealWritten
  cases hfails : faults.sealFails with
  | some fault =>
      have hseal : SealOnly path (refreshSeal E (s.log.advanced wire hash)) := by
        rw [← hpath]; exact sealOnly_refreshSeal (s.log.advanced wire hash)
      refine ⟨_, .inl rfl, ?_, hagrees, fun hok => by cases hok⟩
      exact hseal.stored (hseal.failing fault.1 fault.2) (by rw [hpath]; exact h.own.write wire)
        hrep.toStored
  | none =>
      simp only
      by_cases hmax : (s.log.advanced wire hash).maxFileBytes <
        (s.log.advanced wire hash).bytesWritten
      · simp only [hmax, if_true]
        obtain ⟨H', hH', hsettled⟩ := settled_rotate faults
          (s := ⟨FsOp.applyAll s.dir (commitEntry E s.log wire hash), s.log.advanced wire hash, [],
            s.attempts⟩) hrep hagrees rfl (by simp [History.push, Segment.push]) hbound
        exact ⟨H', hH'.imp id fun h => ⟨_, h⟩, hsettled⟩
      · simp only [hmax, if_false]
        exact ⟨_, .inl rfl, hrep.toStored, hagrees, fun _ => hrep⟩

/-! ## Whole runs -/

/-- **Append**: when nothing is left of an earlier one, an append either leaves no entry
and fails, or its entry is the next one, sealed if it returns `Ok`. -/
theorem holds_append (h : Holds path key s H) (hkept : Tallies H₀ H s.attempts)
    {kind : LogEntryKind} {now : Int} (hleft : s.NothingLeft (.append kind now faults))
    (hreach : s.reaches E (.append kind now faults) ≤ maxFileLen) :
    ∃ H', Holds path key (s.append E kind now faults).2 H' ∧
      Tallies H₀ H' (s.attempts ++ [((s.append E kind now faults).1.isOk, (kind, now))]) ∧
      ((s.append E kind now faults).1.isOk = true →
        Represents (s.append E kind now faults).2.dir path key H') := by
  obtain ⟨hbuf, hlen, hnumber⟩ := hleft
  have hstored := h.stored hlen
  have hlog := h.agrees
  have hpath := hlog.path_eq
  simp only [BufferedLog.reaches] at hreach
  unfold BufferedLog.append
  cases henc : encodeEntry E ⟨s.log.sequence, now, kind⟩ s.log.prevHash s.log.chainKey with
  | error e => exact ⟨H, h, hkept.failed _, fun hok => by cases hok⟩
  | ok res =>
      obtain ⟨wire, hash⟩ := res
      obtain ⟨cbor, hcbor, hfits, hhash, hwire⟩ := encodeEntry_eq_ok henc
      rw [henc] at hreach
      cases hwritten : (s.writeWire wire faults).1 with
      | false =>
          obtain ⟨hsame, -, bytes, hdir⟩ := writeWire_dir s wire faults
          simp only [hwritten, Bool.not_false, if_true]
          exact ⟨H, h.write bytes hsame hdir, hkept.failed _, fun hok => by cases hok⟩
      | true =>
          have hs' := writeWire_ok hbuf hwritten
          rw [hlog.key_eq, hlog.prevHash_eq] at hhash
          have hfit : (encodeFrames E key (H.liveStart key) H.live.payloads).length + wire.length ≤
              maxFileLen := by
            have hcontents : s.dir.lookup s.log.path =
                some (encodeFrames E key (H.liveStart key) H.live.payloads) := by
              rw [hpath]; exact hstored.contents
            simpa [hs', BufferedLog.fileLen, FsOp.lookup_write, hcontents] using hreach
          have hbound :=
            lt_of_nextRotationNumber_lt h.own h.bound h.segment_isSome (hpath ▸ hnumber)
          obtain ⟨H', hH', hsettled⟩ := settled_sealWritten faults hstored hlog hbound
            ⟨⟨s.log.sequence, now, kind⟩, cbor, hcbor, hfits⟩ hlog.sequence_eq hhash hwire hfit hs'
          have hpushed : ∀ ok, Tallies H₀ H' (s.attempts ++ [(ok, (kind, now))]) := by
            intro ok
            have hpush := hkept.push ⟨⟨s.log.sequence, now, kind⟩, cbor, hcbor, hfits⟩
              hlog.sequence_eq ok
            rcases hH' with rfl | ⟨hne, rfl⟩
            · exact hpush
            · exact hpush.rotate hne
          simp only [hwritten, Bool.not_true]
          cases hdone : ((s.writeWire wire faults).2.sealWritten E wire hash faults).1 with
          | false =>
              exact ⟨H', .of_stored hsettled.stored hsettled.agrees, hpushed _,
                fun hok => by cases hok⟩
          | true =>
              exact ⟨H', .of_stored hsettled.stored hsettled.agrees, hpushed _,
                fun _ => hsettled.represents hdone⟩

/-- **Step**: every call that starts with nothing left keeps the invariant. -/
theorem holds_step (h : Holds path key s H) (hkept : Tallies H₀ H s.attempts) {op : HandleOp}
    (hleft : s.NothingLeft op) (hstep : s.step E op = some s') :
    ∃ H', Holds path key s' H' ∧ Tallies H₀ H' s'.attempts := by
  unfold BufferedLog.step at hstep
  by_cases hreach : maxFileLen < s.reaches E op
  · simp [hreach] at hstep
  · simp only [hreach, if_false] at hstep
    cases op with
    | append kind now faults =>
        obtain ⟨H', hholds, hkept', -⟩ := holds_append h hkept hleft (Nat.le_of_not_lt hreach)
        obtain rfl := Option.some.inj hstep
        exact ⟨H', ⟨hholds.toRotatedFiles, hholds.contents, hholds.count_lt, hholds.agrees⟩, hkept'⟩
    | flush attempt accepted =>
        obtain rfl := Option.some.inj hstep
        exact ⟨H, h.write _ rfl rfl, hkept⟩

/-- A handle as `open` returns it, on files that hold `H`. -/
structure Opened (path : FileName) (key : ChainKey) (s : BufferedLog) (H : History E) : Prop where
  represents : Represents s.dir path key H
  agrees : s.log.Agrees path key H
  buf_eq : s.buf = []
  attempts_eq : s.attempts = []

/-- The first `open` in a directory. -/
theorem opened_of_fresh (h : Fresh d path) (config : TamperLogConfig) (signer : Option TipSigner) :
    ∃ log : Log, openInner E d false path key config signer = (openSteps E log, .ok log) ∧
      Opened path key ⟨FsOp.applyAll d (openSteps E log), log, [], []⟩
        (History.empty : History E) := by
  obtain ⟨log, hopen, hagrees⟩ : ∃ log : Log, openInner E d false path key config signer =
      (openSteps E log, .ok log) ∧ log.Agrees path key (History.empty : History E) :=
    openInner_missing (h.file_eq_none .live) config signer
  refine ⟨log, hopen, ?_, hagrees, rfl, rfl⟩
  exact represents_empty (fun name hmem hstem => absurd hstem (h name hmem)) (h.file_eq_none .live)
    (fun n => h.file_eq_none (.segment n)) (fun n => h.file_eq_none (.segmentSeal n)) hagrees

/-- **Failed appends are harmless when nothing of them is left**: in a run of calls each of
which starts with nothing left of a failed append, an append that returns `Ok` leaves files
that verify.  They hold the entries of before and, each once and in order, appends of the
run, among them every one that returned `Ok`. -/
theorem append_verifies_of_nothingLeft (E : Crates) (path : FileName) (key : ChainKey)
    {H₀ : History E} {s₀ s s' : BufferedLog} {ops : List HandleOp} {kind : LogEntryKind} {now : Int}
    {faults : Faults} {seq : Nat} (hopened : Opened path key s₀ H₀)
    (hrun : Machine.run (BufferedLog.step E) s₀ ops = some s)
    (hmeets : Machine.Meets (BufferedLog.step E) BufferedLog.NothingLeft s₀ ops)
    (hleft : s.NothingLeft (.append kind now faults))
    (hstep : s.step E (.append kind now faults) = some s')
    (hok : (s.append E kind now faults).1 = .ok seq) :
    (∃ n, verifyChain E s'.dir path key = .ok ⟨n, if n = 0 then .empty else .intact⟩) ∧
    ∃ (rotations : Nat) (segs : List (List LogEntry)) (kept : List (Bool × (LogEntryKind × Int))),
      segs.length = rotations + 1 ∧
      verifySegmentChain E s'.dir path key =
        .ok (.intact segs.flatten.length ((rotations + 1) % 2 ^ 32)) ∧
      (∀ i entries, segs[i]? = some entries →
        ∃ bytes, s'.dir.lookup (segmentName path rotations i) = some bytes ∧
          readEntries E bytes = some entries) ∧
      segs.flatten.map (fun e => (e.kind, e.timestampMs)) =
        H₀.records.map Record.event ++ kept.map (·.2) ∧
      kept.Sublist s'.attempts ∧ kept.filter (·.1) = s'.attempts.filter (·.1) := by
  obtain ⟨H, hholds, hkept⟩ : ∃ H, Holds path key s H ∧ Tallies H₀ H s.attempts := by
    refine Machine.run_invariant (I := fun s => ∃ H, Holds path key s H ∧ Tallies H₀ H s.attempts)
      (fun s op s' ⟨H, hholds, hkept⟩ hop hs => holds_step hholds hkept hop hs) ?_ hmeets hrun
    refine ⟨H₀, .of_stored hopened.represents.toStored hopened.agrees, ?_⟩
    rw [hopened.attempts_eq]
    exact .refl H₀
  unfold BufferedLog.step at hstep
  by_cases hreach : maxFileLen < s.reaches E (.append kind now faults)
  · simp [hreach] at hstep
  · obtain ⟨H', -, ⟨kept, hsub, hacked, hevents⟩, hsealed⟩ :=
      holds_append hholds hkept hleft (Nat.le_of_not_lt hreach)
    simp only [hreach, if_false, Option.some.injEq] at hstep
    subst hstep
    have hrep := hsealed (by rw [hok]; rfl)
    obtain ⟨segs, hlength, hflatten, hfiles⟩ := hrep.exists_entries
    have hcount : segs.flatten.length = H'.records.length := by
      have hlen := congrArg List.length hflatten
      rwa [List.length_map, List.length_map] at hlen
    refine ⟨⟨_, hrep.live.verifyChain⟩, H'.rotated.length, segs, kept, hlength, ?_,
      fun i entries hi => (hfiles i entries hi).2, hflatten.trans hevents, hsub, hacked⟩
    rw [hcount]
    exact hrep.verifySegmentChain

/-- The handle of a log that was just created. -/
def freshLog : Log where
  path := samplePath
  prevHash := genesisHash sampleCrates default
  segmentStartHash := genesisHash sampleCrates default
  sequence := 0
  bytesWritten := 0
  maxFileBytes := 1000
  chainKey := default
  signer := none

/-- The first handle on an empty directory. -/
def freshHandle : BufferedLog :=
  ⟨FsOp.applyAll ∅ (openSteps sampleCrates freshLog), freshLog, [], []⟩

theorem opened_freshHandle :
    Opened samplePath default freshHandle (History.empty : History sampleCrates) := by
  obtain ⟨log, hopen, hopened⟩ :
      ∃ log : Log, openInner sampleCrates ∅ false samplePath default ⟨1000⟩
      none = (openSteps sampleCrates log, .ok log) ∧ Opened samplePath default
        ⟨FsOp.applyAll ∅ (openSteps sampleCrates log), log, [], []⟩
        (History.empty : History sampleCrates) :=
    opened_of_fresh (by intro n hn; simp at hn) ⟨1000⟩ none
  have hlog : openInner sampleCrates ∅ false samplePath default ⟨1000⟩ none =
      (openSteps sampleCrates freshLog, .ok freshLog) := by rfl
  obtain rfl : log = freshLog := Except.ok.inj (Prod.mk.inj (hopen.symm.trans hlog)).2
  exact hopened

/-- An append whose seal fails, and one after it that returns `Ok`: both entries are there. -/
theorem append_verifies_after_failed_seal :
    ∃ s s', (freshHandle.append sampleCrates sampleKind 0 { sealFails := some (1, 3) }).1.isOk =
      false ∧
      Machine.run (BufferedLog.step sampleCrates) freshHandle
        [.append sampleKind 0 { sealFails := some (1, 3) }] = some s ∧
      s.step sampleCrates (.append sampleKind 0 {}) = some s' ∧
      ∃ n, verifyChain sampleCrates s'.dir samplePath default =
        .ok ⟨n, if n = 0 then .empty else .intact⟩ := by
  have hsome : (Machine.run (BufferedLog.step sampleCrates) freshHandle
      [.append sampleKind 0 { sealFails := some (1, 3) }]).map (fun s =>
        (decide (s.NothingLeft (.append sampleKind 0 {})),
          (s.step sampleCrates (.append sampleKind 0 {})).isSome,
          (s.append sampleCrates sampleKind 0 {}).1.toOption)) = some (true, true, some 1) := by
    decide +kernel
  obtain ⟨s, hs, hparts⟩ := Option.map_eq_some_iff.mp hsome
  simp only [Prod.mk.injEq, decide_eq_true_eq] at hparts
  obtain ⟨hleft, hstep, hok⟩ := hparts
  obtain ⟨s', hs'⟩ := Option.isSome_iff_exists.mp hstep
  have hok' : (s.append sampleCrates sampleKind 0 {}).1 = .ok 1 := by
    cases hres : (s.append sampleCrates sampleKind 0 {}).1 with
    | error e => rw [hres] at hok; cases hok
    | ok n => rw [hres] at hok; cases hok; rfl
  refine ⟨s, s', by decide +kernel, hs, hs', ?_⟩
  exact (append_verifies_of_nothingLeft sampleCrates samplePath default opened_freshHandle hs
    ⟨⟨rfl, by decide +kernel, by decide +kernel⟩, fun _ _ => trivial⟩ hleft hs' hok').1

/-- A flush that fails leaves the first entry in the buffer; the next append writes it out
in front of its own, both numbered zero and linked from the genesis hash, and returns `Ok`. -/
theorem failed_flush_breaks_the_chain :
    ∃ s s', freshHandle.step sampleCrates (.append sampleKind 0 { flush := .failsAfter 0 }) =
      some s ∧
      (freshHandle.append sampleCrates sampleKind 0 { flush := .failsAfter 0 }).1.isOk = false ∧
      s.step sampleCrates (.append sampleKind 0 {}) = some s' ∧
      (s.append sampleCrates sampleKind 0 {}).1.toOption = some 0 ∧
      ∃ n sequence expected actual, verifyChain sampleCrates s'.dir samplePath default =
        .ok ⟨n, .broken sequence expected actual⟩ := by
  have hsome : ((freshHandle.step sampleCrates
      (.append sampleKind 0 { flush := .failsAfter 0 })).bind fun s =>
        (s.step sampleCrates (.append sampleKind 0 {})).map fun s' =>
          ((s.append sampleCrates sampleKind 0 {}).1.toOption,
            (verifyChain sampleCrates s'.dir samplePath default).toOption.map
              (·.status matches .broken _ _ _))) = some (some 0, some true) := by
    decide +kernel
  obtain ⟨s, hs, hnext⟩ := Option.bind_eq_some_iff.mp hsome
  obtain ⟨s', hs', hparts⟩ := Option.map_eq_some_iff.mp hnext
  obtain ⟨hok, hverify⟩ := Prod.mk.inj hparts
  refine ⟨s, s', hs, by decide +kernel, hs', hok, ?_⟩
  cases hres : verifyChain sampleCrates s'.dir samplePath default with
  | error e => rw [hres] at hverify; cases hverify
  | ok v =>
      obtain ⟨n, status⟩ := v
      cases status with
      | broken sequence expected actual => exact ⟨n, sequence, expected, actual, rfl⟩
      | _ => rw [hres] at hverify; cases hverify

end Akroasis.TamperLog
