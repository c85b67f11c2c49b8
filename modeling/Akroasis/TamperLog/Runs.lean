import Akroasis.TamperLog.Steps

/-!
# Akroasis.TamperLog.Runs

Whole runs of a log: any sequence of opens, appends, flushes, threshold changes and
drops in which no I/O call fails.

`World` is the directory, the handle that is open and a tally of what was acknowledged.
`Tracks H₀ w H` says that the directory holds `H`, that `H` is the history `H₀` of the
moment the tally started and what was tallied since, and that an open handle agrees
with it.  One operation keeps it (`tracks_step`), so every run does (`tracks_run`).
-/

namespace Akroasis.TamperLog

/-! ## Operations -/

/-- The operations of the log's interface; `now` is the clock reading of an append. -/
inductive LogOp where
  | openLog (config : TamperLogConfig) (signer : Option TipSigner)
  | append (kind : LogEntryKind) (now : Int)
  | flush
  | withMaxFileBytes (limit : Nat)
  | dropLog

/-- The directory, the open handle and the tally of a run: the appends that returned
`Ok`, how many of them since the last rotation, and the rotations. -/
structure World where
  dir : Directory
  handle : Option Log
  appended : List (LogEntryKind × Int)
  sinceRotation : Nat
  rotations : Nat

/-- Before any operation. -/
def World.start (d : Directory) : World := ⟨d, none, [], 0, 0⟩

/-- Is the step a rename of the live file, that is, a rotation? -/
def renamesLive (path : FileName) : FsOp → Bool
  | .rename src _ => decide (src = path)
  | _ => false

section

variable (E : Crates) (path : FileName) (key : ChainKey)

/-- One operation and its result.  Only `openLog` applies without a handle. -/
def step (w : World) : LogOp → Option (World × Except TamperLogError Unit)
  | .openLog config signer =>
      match openInner E w.dir w.handle.isSome path key config signer with
      | (ops, .ok log) =>
          some ({ w with dir := FsOp.applyAll w.dir ops, handle := some log }, .ok ())
      | (ops, .error e) => some ({ w with dir := FsOp.applyAll w.dir ops }, .error e)
  | .append kind now => w.handle.map fun log =>
      match append E w.dir log kind now with
      | (ops, .ok (_, log')) =>
          let rotations := ops.countP (renamesLive path)
          ({ dir := FsOp.applyAll w.dir ops
             handle := some log'
             appended := w.appended ++ [(kind, now)]
             sinceRotation := if rotations = 0 then w.sinceRotation + 1 else 0
             rotations := w.rotations + rotations }, .ok ())
      | (ops, .error e) => ({ w with dir := FsOp.applyAll w.dir ops }, .error e)
  | .flush => w.handle.map fun _ => (w, .ok ())
  | .withMaxFileBytes limit => w.handle.map fun log =>
      ({ w with handle := some (log.withMaxFileBytes limit) }, .ok ())
  | .dropLog => w.handle.map fun _ => ({ w with handle := none }, .ok ())

/-- One operation in which no I/O call fails. -/
def completed (w : World) (op : LogOp) : Option World :=
  match step E path key w op with
  | some (_, .error (.io _)) => none
  | some (w', _) => some w'
  | none => none

/-- A run in which no I/O call fails. -/
def run (w : World) (ops : List LogOp) : Option World := ops.foldlM (completed E path key) w

end

variable {E : Crates} {path : FileName} {key : ChainKey} {d : Directory} {ops : List LogOp}

/-! ## Counting rotations -/

theorem countP_refreshSeal (log : Log) :
    (refreshSeal E log).countP (renamesLive log.path) = 0 := by
  have hne : sealTmpPath log.path ≠ log.path := fun h =>
    absurd ((LogFile.name_inj (f := .sealTmp) (g := .live)).mp h) (by decide)
  simp [refreshSeal, writeSeal, renamesLive, hne]

theorem countP_commitEntry (log : Log) (wire : Bytes) (hash : Hash) :
    (commitEntry E log wire hash).countP (renamesLive log.path) = 0 := by
  have hseal := countP_refreshSeal (E := E) (log.advanced wire hash)
  rw [commitEntry, List.countP_cons]
  exact hseal

theorem countP_rotate (d : Directory) (log : Log) :
    (rotate E d log).countP (renamesLive log.path) = 1 := by
  have hseal := countP_refreshSeal (E := E) log.rotated
  change (refreshSeal E log.rotated).countP (renamesLive log.path) = 0 at hseal
  have hne : sealPath log.path ≠ log.path := fun h =>
    absurd ((LogFile.name_inj (f := .liveSeal) (g := .live)).mp h) (by decide)
  have hren : ∀ d' dst, (renameSeal d' log.path dst).countP (renamesLive log.path) = 0 := by
    intro d' dst
    unfold renameSeal
    split
    · simp [renamesLive, hne]
    · rfl
  rw [rotate, List.countP_cons, List.countP_append, List.countP_cons, hren, hseal]
  simp [renamesLive]

/-! ## What one append does -/

/-- The cases of `append`: the encoder refused, the write failed, or the entry was
committed and, past the threshold, the log rotated. -/
theorem append_cases (d : Directory) (log : Log) (kind : LogEntryKind) (now : Int) :
    (∃ e, (∀ p, e ≠ .io p) ∧ append E d log kind now = ([], .error e)) ∨
    append E d log kind now = ([], .error (.io log.path)) ∨
    ∃ cbor wire hash,
      E.toCbor ⟨log.sequence, now, kind⟩ = some cbor ∧ cbor.length ≤ maxEntryBytes ∧
      hash = linkHash E log.chainKey cbor log.prevHash ∧ wire = frame cbor hash ∧
      ((d.lookup log.path).getD []).length + wire.length ≤ maxFileLen ∧
      append E d log kind now =
        if log.maxFileBytes < log.bytesWritten + wire.length then
          (commitEntry E log wire hash ++
            rotate E (FsOp.applyAll d (commitEntry E log wire hash)) (log.advanced wire hash),
            .ok (log.sequence, (log.advanced wire hash).rotated))
        else (commitEntry E log wire hash, .ok (log.sequence, log.advanced wire hash)) := by
  cases henc : encodeEntry E ⟨log.sequence, now, kind⟩ log.prevHash log.chainKey with
  | error e =>
      left
      refine ⟨e, ?_, by simp only [append, henc]⟩
      intro p hp
      subst hp
      unfold encodeEntry at henc
      split at henc
      · simp at henc
      · split at henc <;> simp at henc
  | ok res =>
      obtain ⟨wire, hash⟩ := res
      obtain ⟨cbor, hcbor, hlen, hhash, hwire⟩ := encodeEntry_eq_ok henc
      right
      by_cases hfit : maxFileLen < ((d.lookup log.path).getD []).length + wire.length
      · left
        simp only [append, henc, hfit, if_true]
      · right
        exact ⟨cbor, wire, hash, hcbor, hlen, hhash, hwire, Nat.le_of_not_lt hfit, by
          simp only [append, henc, hfit, if_false]; rfl⟩

/-! ## What a completed operation does -/

/-- After an entry was written and sealed. -/
def World.committed (E : Crates) (w : World) (log : Log) (wire : Bytes) (hash : Hash)
    (event : LogEntryKind × Int) : World :=
  { w with
    dir := FsOp.applyAll w.dir (commitEntry E log wire hash)
    handle := some (log.advanced wire hash)
    appended := w.appended ++ [event]
    sinceRotation := w.sinceRotation + 1 }

/-- After a rotation. -/
def World.rotated (E : Crates) (w : World) (log : Log) : World :=
  { w with
    dir := FsOp.applyAll w.dir (rotate E w.dir log)
    handle := some log.rotated
    sinceRotation := 0
    rotations := w.rotations + 1 }

variable {w w' : World} {config : TamperLogConfig} {signer : Option TipSigner} {log : Log}

/-- A second handle is refused, and only the lock file is touched. -/
theorem completed_openLog_locked (hw : w.handle = some log)
    (hstep : completed E path key w (.openLog config signer) = some w') :
    w' = { w with dir := FsOp.applyAll w.dir [.openAppend (lockPath path)] } := by
  have hlocked : openInner E w.dir true path key config signer =
      ([.openAppend (lockPath path)], .error (.locked path)) := by
    simp [openInner]
  simpa only [completed, step, hw, Option.isSome_some, hlocked, Option.some.injEq] using hstep.symm

/-- An `open` that succeeds is the only handle. -/
theorem completed_openLog (hw : w.handle = none) {ops : List FsOp}
    (hopen : openInner E w.dir false path key config signer = (ops, .ok log))
    (hstep : completed E path key w (.openLog config signer) = some w') :
    w' = { w with dir := FsOp.applyAll w.dir ops, handle := some log } := by
  simpa only [completed, step, hw, Option.isSome_none, hopen, Option.some.injEq] using hstep.symm

/-- An append without effect, or one that commits its entry and rotates past the threshold. -/
theorem completed_append {kind : LogEntryKind} {now : Int}
    (hpath : ∀ log, w.handle = some log → log.path = path)
    (hstep : completed E path key w (.append kind now) = some w') :
    w' = w ∨ ∃ log cbor wire hash, w.handle = some log ∧
      E.toCbor ⟨log.sequence, now, kind⟩ = some cbor ∧ cbor.length ≤ maxEntryBytes ∧
      hash = linkHash E log.chainKey cbor log.prevHash ∧ wire = frame cbor hash ∧
      ((w.dir.lookup path).getD []).length + wire.length ≤ maxFileLen ∧
      w' = if log.maxFileBytes < log.bytesWritten + wire.length
        then (w.committed E log wire hash (kind, now)).rotated E (log.advanced wire hash)
        else w.committed E log wire hash (kind, now) := by
  cases hw : w.handle with
  | none => simp [completed, step, hw] at hstep
  | some log =>
      obtain rfl := hpath log hw
      simp only [completed, step, hw, Option.map_some] at hstep
      rcases append_cases (E := E) w.dir log kind now with
        ⟨e, hio, happ⟩ | happ | ⟨cbor, wire, hash, hcbor, hlen, hhash, hwire, hfit, happ⟩
      · -- the encoder refused: nothing happened
        left
        rw [happ] at hstep
        cases e with
        | io p => exact absurd rfl (hio p)
        | _ => simpa [FsOp.applyAll, ← hw] using hstep.symm
      · rw [happ] at hstep
        simp at hstep
      · refine .inr ⟨log, cbor, wire, hash, rfl, hcbor, hlen, hhash, hwire, hfit, ?_⟩
        have hcommit := countP_commitEntry (E := E) log wire hash
        by_cases hmax : log.maxFileBytes < log.bytesWritten + wire.length
        · have hrotate : (rotate E (FsOp.applyAll w.dir (commitEntry E log wire hash))
              (log.advanced wire hash)).countP (renamesLive log.path) = 1 :=
            countP_rotate _ (log.advanced wire hash)
          rw [happ, if_pos hmax] at hstep
          simp only [List.countP_append, hcommit, hrotate, FsOp.applyAll_append,
            Option.some.injEq] at hstep
          rw [if_pos hmax, ← hstep]
          rfl
        · rw [happ, if_neg hmax] at hstep
          simp only [hcommit, if_true, Option.some.injEq] at hstep
          rw [if_neg hmax, ← hstep]
          rfl

theorem completed_flush (hstep : completed E path key w .flush = some w') : w' = w := by
  cases hw : w.handle with
  | none => simp [completed, step, hw] at hstep
  | some log => simpa [completed, step, hw] using hstep.symm

theorem completed_withMaxFileBytes {limit : Nat}
    (hstep : completed E path key w (.withMaxFileBytes limit) = some w') :
    ∃ log, w.handle = some log ∧ w' = { w with handle := some (log.withMaxFileBytes limit) } := by
  cases hw : w.handle with
  | none => simp [completed, step, hw] at hstep
  | some log => exact ⟨log, rfl, by simpa [completed, step, hw] using hstep.symm⟩

theorem completed_dropLog (hstep : completed E path key w .dropLog = some w') :
    w' = { w with handle := none } := by
  cases hw : w.handle with
  | none => simp [completed, step, hw] at hstep
  | some log => simpa [completed, step, hw] using hstep.symm

/-! ## The invariant -/

/-- What an entry was appended with. -/
def Record.event (r : Record E) : LogEntryKind × Int := (r.entry.kind, r.entry.timestampMs)

/-- The directory holds `H`, which is `H₀` and the tally of `w`, and an open handle
agrees with it. -/
structure Tracks (path : FileName) (key : ChainKey) (H₀ : History E) (w : World) (H : History E) :
    Prop where
  represents : Represents w.dir path key H
  rotations : H.rotated.length = H₀.rotated.length + w.rotations
  since : H.live.records.length = w.sinceRotation
  appended : H.records.map Record.event = H₀.records.map Record.event ++ w.appended
  extend : H.Extends H₀
  handle : ∀ log, w.handle = some log → log.Agrees path key H

/-- Creating or touching the lock file leaves the history alone. -/
theorem Represents.lock {H : History E} (h : Represents d path key H) :
    Represents (FsOp.applyAll d [.openAppend (lockPath path)]) path key H := by
  have hfiles : ∀ f, file (FsOp.applyAll d [.openAppend (lockPath path)]) path f =
      if f = .lock then some ((file d path .lock).getD []) else file d path f := fun f =>
    file_openAppend d path f .lock
  have hown : OwnFiles (FsOp.applyAll d [.openAppend (lockPath path)]) path :=
    h.own.applyAll fun op hop name hname => by
      rw [List.mem_singleton] at hop
      subst hop
      exact ⟨.lock, List.mem_singleton.mp hname⟩
  refine ⟨h.toStored.update rfl hown ?_ ?_ ?_ h.count_lt, ?_⟩
  · intro n; rw [hfiles]; simp
  · intro n; rw [hfiles]; simp
  · rw [hfiles, h.contents]; simp
  · rw [hfiles]; simpa using h.sealed

variable {H₀ H : History E}

/-- Only the handle changed. -/
theorem Tracks.withHandle (h : Tracks path key H₀ w H) {handle : Option Log}
    (hhandle : ∀ log, handle = some log → log.Agrees path key H) :
    Tracks path key H₀ { w with handle := handle } H :=
  ⟨h.represents, h.rotations, h.since, h.appended, h.extend, hhandle⟩

/-- Opening a tracked log: a second handle is refused, a first one resumes. -/
theorem Tracks.openLog (h : Tracks path key H₀ w H)
    (hstep : completed E path key w (.openLog config signer) = some w') :
    Tracks path key H₀ w' H := by
  cases hw : w.handle with
  | some log =>
      obtain rfl := completed_openLog_locked hw hstep
      exact ⟨h.represents.lock, h.rotations, h.since, h.appended, h.extend, h.handle⟩
  | none =>
      obtain ⟨tip, hseal⟩ := h.represents.live.readSeal
      obtain ⟨log, hopen, hagrees⟩ :=
        h.represents.toStored.openInner hseal (Nat.le_refl _) config signer
      obtain rfl := completed_openLog hw hopen hstep
      refine ⟨h.represents.toStored.openSteps hagrees, h.rotations, h.since, h.appended,
        h.extend, ?_⟩
      intro log' hlog'
      rw [← Option.some.inj hlog']
      exact hagrees

/-- A committed entry is the next record of the live segment. -/
theorem Tracks.commit (h : Tracks path key H₀ w H) (hw : w.handle = some log)
    (r : Record E) (hseq : r.entry.sequence = H.live.records.length) {wire : Bytes} {hash : Hash}
    (hhash : hash = linkHash E key r.payload (H.tip key)) (hwire : wire = frame r.payload hash)
    (hfit : (encodeFrames E key (H.liveStart key) H.live.payloads).length + wire.length ≤
      maxFileLen) :
    Tracks path key H₀ (w.committed E log wire hash r.event) (H.push r hseq) := by
  obtain ⟨hrep, hagrees⟩ :=
    h.represents.toStored.commit (h.handle log hw) r hseq hhash hwire hfit
  refine ⟨hrep, h.rotations, ?_, ?_, (History.extends_push H r hseq).trans h.extend, ?_⟩
  · simp [World.committed, History.push, Segment.push, h.since]
  · rw [World.committed, History.records_push, List.map_append, h.appended, List.append_assoc]; rfl
  · intro log' hlog'
    rw [← Option.some.inj hlog']
    exact hagrees

/-- A rotation closes the live segment. -/
theorem Tracks.rotate (h : Tracks path key H₀ w H) (hw : w.handle = some log)
    (hne : H.live.records ≠ []) (hlt : H.rotated.length < maxU32) :
    Tracks path key H₀ (w.rotated E log) (H.rotate hne) := by
  obtain ⟨hrep, hagrees⟩ := h.represents.rotate (h.handle log hw) hne hlt
  refine ⟨hrep, ?_, rfl, ?_, (History.extends_rotate _ hne).trans h.extend, ?_⟩
  · simp [World.rotated, History.rotate, h.rotations, Nat.add_assoc]
  · rw [History.records_rotate]; exact h.appended
  · intro log' hlog'
    rw [← Option.some.inj hlog']
    exact hagrees

/-- Appending to a tracked log pushes the entry and possibly rotates. -/
theorem Tracks.append (h : Tracks path key H₀ w H) {kind : LogEntryKind} {now : Int}
    (hstep : completed E path key w (.append kind now) = some w')
    (hbound : H₀.rotated.length + w'.rotations ≤ maxU32) :
    ∃ H' : History E, Tracks path key H₀ w' H' := by
  rcases completed_append (fun log hw => (h.handle log hw).path_eq) hstep with
    rfl | ⟨log, cbor, wire, hash, hw, hcbor, hlen, hhash, hwire, hfit, rfl⟩
  · exact ⟨H, h⟩
  · have hlog := h.handle log hw
    have hcontents : w.dir.lookup path =
        some (encodeFrames E key (H.liveStart key) H.live.payloads) := h.represents.contents
    rw [hcontents, Option.getD_some] at hfit
    rw [hlog.key_eq, hlog.prevHash_eq] at hhash
    have hpushed := h.commit hw ⟨⟨log.sequence, now, kind⟩, cbor, hcbor, hlen⟩ hlog.sequence_eq
      hhash hwire hfit
    by_cases hmax : log.maxFileBytes < log.bytesWritten + wire.length
    · rw [if_pos hmax] at hbound ⊢
      have hlt : H.rotated.length < maxU32 := by
        simp only [World.rotated, World.committed] at hbound
        rw [h.rotations]
        omega
      exact ⟨_, hpushed.rotate rfl (by simp [History.push, Segment.push]) hlt⟩
    · rw [if_neg hmax]
      exact ⟨_, hpushed⟩

/-- **Step**: every completed operation keeps the invariant and every entry's place. -/
theorem tracks_step (h : Tracks path key H₀ w H) {op : LogOp}
    (hstep : completed E path key w op = some w')
    (hbound : H₀.rotated.length + w'.rotations ≤ maxU32) :
    ∃ H' : History E, Tracks path key H₀ w' H' := by
  cases op with
  | openLog config signer => exact ⟨H, h.openLog hstep⟩
  | append kind now => exact h.append hstep hbound
  | flush =>
      obtain rfl := completed_flush hstep
      exact ⟨H, h⟩
  | withMaxFileBytes limit =>
      obtain ⟨log, hw, rfl⟩ := completed_withMaxFileBytes hstep
      obtain ⟨h1, h2, h3, h4, h5, h6⟩ := h.handle log hw
      refine ⟨H, h.withHandle fun log' hlog' => ?_⟩
      rw [← Option.some.inj hlog']
      exact ⟨h1, h2, h3, h4, h5, h6⟩
  | dropLog =>
      obtain rfl := completed_dropLog hstep
      exact ⟨H, h.withHandle fun log' hlog' => by contradiction⟩

/-! ## Whole runs -/

theorem rotations_le_step {op : LogOp} {res : Except TamperLogError Unit}
    (hstep : step E path key w op = some (w', res)) : w.rotations ≤ w'.rotations := by
  cases op with
  | openLog config signer =>
      simp only [step] at hstep
      split at hstep <;> simp only [Option.some.injEq, Prod.mk.injEq] at hstep <;>
        obtain ⟨rfl, -⟩ := hstep <;> exact Nat.le_refl _
  | append kind now =>
      simp only [step] at hstep
      obtain ⟨log, -, hlog⟩ := Option.map_eq_some_iff.mp hstep
      split at hlog <;> simp only [Prod.mk.injEq] at hlog <;> obtain ⟨rfl, -⟩ := hlog
      · exact Nat.le_add_right _ _
      · exact Nat.le_refl _
  | flush | withMaxFileBytes | dropLog =>
      simp only [step] at hstep
      obtain ⟨log, -, hlog⟩ := Option.map_eq_some_iff.mp hstep
      simp only [Prod.mk.injEq] at hlog
      obtain ⟨rfl, -⟩ := hlog
      exact Nat.le_refl _

theorem rotations_le_completed {op : LogOp} (hstep : completed E path key w op = some w') :
    w.rotations ≤ w'.rotations := by
  unfold completed at hstep
  split at hstep
  · contradiction
  · next w'' res _ hs => exact Option.some.inj hstep ▸ rotations_le_step hs
  · contradiction

theorem rotations_le_run (hrun : run E path key w ops = some w') :
    w.rotations ≤ w'.rotations := by
  induction ops generalizing w with
  | nil =>
      have : w = w' := by simpa [run] using hrun
      rw [this]
  | cons op ops ih =>
      simp only [run, List.foldlM_cons, Option.bind_eq_bind, Option.bind_eq_some_iff] at hrun
      obtain ⟨w1, hstep, hrest⟩ := hrun
      exact (rotations_le_completed hstep).trans (ih hrest)

/-- **Run**: the invariant and every entry's place survive any run. -/
theorem tracks_run (h : Tracks path key H₀ w H)
    (hrun : run E path key w ops = some w')
    (hbound : H₀.rotated.length + w'.rotations ≤ maxU32) :
    ∃ H' : History E, Tracks path key H₀ w' H' := by
  induction ops generalizing w H with
  | nil =>
      have : w = w' := by simpa [run] using hrun
      exact ⟨H, this ▸ h⟩
  | cons op ops ih =>
      simp only [run, List.foldlM_cons, Option.bind_eq_bind, Option.bind_eq_some_iff] at hrun
      obtain ⟨w1, hstep, hrest⟩ := hrun
      have hle := rotations_le_run hrest
      obtain ⟨H1, h1⟩ := tracks_step h hstep (by omega)
      exact ih h1 hrest

/-! ## From a fresh directory -/

/-- No file of the directory shares the log's stem. -/
def Fresh (d : Directory) (path : FileName) : Prop := ∀ name ∈ d.keys, ¬ logStem path <+: name

theorem Fresh.file_eq_none (h : Fresh d path) (f : LogFile) :
    file d path f = none := by
  cases hf : file d path f with
  | none => rfl
  | some b =>
      have hmem := (Table.mem_keys_iff d (f.name path)).mpr ⟨b, hf⟩
      exact absurd (f.stem_prefix_name path) (h _ hmem)

/-- The first operation on a fresh directory is an open, and it creates the log. -/
theorem Fresh.tracks (h : Fresh d path) {op : LogOp}
    (hstep : completed E path key (World.start d) op = some w') :
    Tracks path key History.empty w' (History.empty : History E) := by
  cases op with
  | openLog config signer =>
      obtain ⟨log, hopen, hagrees⟩ : ∃ log : Log, openInner E d false path key config signer =
          (openSteps E log, .ok log) ∧ log.Agrees path key (History.empty : History E) :=
        openInner_missing (h.file_eq_none .live) config signer
      obtain rfl := completed_openLog rfl hopen hstep
      refine ⟨represents_empty (fun name hmem hstem => absurd hstem (h name hmem))
        (h.file_eq_none .live) (fun n => h.file_eq_none (.segment n))
        (fun n => h.file_eq_none (.segmentSeal n)) hagrees, rfl, rfl, rfl,
        .refl _, ?_⟩
      intro log' hlog'
      rw [← Option.some.inj hlog']
      exact hagrees
  | append kind now => simp [completed, step, World.start] at hstep
  | flush => simp [completed, step, World.start] at hstep
  | withMaxFileBytes limit => simp [completed, step, World.start] at hstep
  | dropLog => simp [completed, step, World.start] at hstep

/-- Every run from a fresh directory tracks a history. -/
theorem Fresh.tracks_run (h : Fresh d path) (hne : ops ≠ [])
    (hrun : run E path key (World.start d) ops = some w') (hbound : w'.rotations ≤ maxU32) :
    ∃ H : History E, Tracks path key History.empty w' H := by
  obtain ⟨op, ops, rfl⟩ := List.exists_cons_of_ne_nil hne
  simp only [run, List.foldlM_cons, Option.bind_eq_bind, Option.bind_eq_some_iff] at hrun
  obtain ⟨w1, hstep, hrest⟩ := hrun
  exact TamperLog.tracks_run (h.tracks hstep) hrest (by simpa [History.empty] using hbound)

/-! ## Reading the entries back -/

/-- The entries of a segment file in file order, or `none` when a frame is damaged or
does not decode. -/
def readEntriesLoop (E : Crates) : Nat → Bytes → Option (List LogEntry)
  | 0, _ => none
  | fuel + 1, bs =>
      match readFrame bs with
      | .eof => some []
      | .frame payload _ rest => do
          let entry ← E.fromCbor payload
          let entries ← readEntriesLoop E fuel rest
          return entry :: entries
      | _ => none

/-- The entries of a segment file. -/
def readEntries (E : Crates) (bs : Bytes) : Option (List LogEntry) :=
  readEntriesLoop E (bs.length + 1) bs

theorem readEntriesLoop_encodeFrames (start : Hash) (rs : List (Record E)) {fuel : Nat}
    (hfuel : rs.length < fuel) :
    readEntriesLoop E fuel (encodeFrames E key start (rs.map Record.payload)) =
      some (rs.map Record.entry) := by
  induction rs generalizing start fuel with
  | nil =>
      obtain ⟨fuel, rfl⟩ : ∃ f, fuel = f + 1 := ⟨fuel - 1, by omega⟩
      rfl
  | cons r rs ih =>
      simp only [List.length_cons] at hfuel
      obtain ⟨fuel, rfl⟩ : ∃ f, fuel = f + 1 := ⟨fuel - 1, by omega⟩
      rw [List.map_cons, encodeFrames, readEntriesLoop, readFrame_frame r.fits]
      simp only [E.fromCbor_toCbor _ _ r.encoded, Option.bind_eq_bind, Option.bind_some,
        ih (linkHash E key r.payload start) (show rs.length < fuel by omega)]
      rfl

/-- A segment file reads back as its records. -/
theorem SegmentFile.readEntries {name : FileName} {start : Hash} {seg : Segment E}
    (h : SegmentFile d key name start seg) :
    ∃ bytes, d.lookup name = some bytes ∧
      readEntries E bytes = some (seg.records.map Record.entry) := by
  refine ⟨_, h.contents, readEntriesLoop_encodeFrames start seg.records ?_⟩
  have hle := length_le_length_encodeFrames E key start seg.payloads
  rw [Segment.length_payloads] at hle
  omega

/-- The file of segment `i` of a log with `rotations` rotated segments. -/
def segmentName (path : FileName) (rotations i : Nat) : FileName :=
  if i < rotations then rotationPath path (i + 1) else path

/-- Every segment of a represented history is in its own file. -/
theorem Represents.segmentFile (h : Represents d path key H) {i : Nat}
    {seg : Segment E} (hseg : H.segments[i]? = some seg) :
    ∃ start, SegmentFile d key (segmentName path H.rotated.length i) start seg := by
  simp only [History.segments] at hseg
  by_cases hi : i < H.rotated.length
  · rw [List.getElem?_append_left hi] at hseg
    rw [segmentName, if_pos hi]
    exact ⟨_, h.files i seg hseg⟩
  · rw [List.getElem?_append_right (Nat.le_of_not_lt hi)] at hseg
    have hlast := (List.getElem?_eq_some_iff.mp hseg).1
    simp only [List.length_singleton, Nat.lt_one_iff] at hlast
    simp only [hlast, List.getElem?_cons_zero, Option.some.injEq] at hseg
    rw [segmentName, if_neg hi, ← hseg]
    exact ⟨_, h.live⟩

/-- The segment files of a represented history read back as its entries in order. -/
theorem Represents.exists_entries (h : Represents d path key H) :
    ∃ segs : List (List LogEntry), segs.length = H.rotated.length + 1 ∧
      segs.flatten.map (fun e => (e.kind, e.timestampMs)) = H.records.map Record.event ∧
      ∀ i entries, segs[i]? = some entries →
        entries.map LogEntry.sequence = List.range entries.length ∧
        ∃ bytes, d.lookup (segmentName path H.rotated.length i) = some bytes ∧
          readEntries E bytes = some entries := by
  refine ⟨H.segments.map fun seg => seg.records.map Record.entry,
    by simp [History.segments], ?_, ?_⟩
  · rw [History.records, History.segments]
    simp only [List.map_append, List.map_flatten, List.map_map, List.map_cons, List.map_nil,
      List.flatten_append, List.flatten_cons, List.flatten_nil, List.append_nil,
      Function.comp_def]
    rfl
  · intro i entries hi
    rw [List.getElem?_map] at hi
    obtain ⟨seg, hseg, rfl⟩ := Option.map_eq_some_iff.mp hi
    obtain ⟨start, hfile⟩ := h.segmentFile hseg
    refine ⟨?_, hfile.readEntries⟩
    rw [List.map_map, List.length_map]
    exact seg.numbered

/-- **Every run verifies**: after any completed operations on a fresh directory, the
segment walk counts exactly the acknowledged appends and the rotations, the live file
verifies on its own, and the segment files hold the appended entries in order, numbered
from zero in each. -/
theorem run_verifies (E : Crates) (path : FileName) (key : ChainKey) (d : Directory)
    (hfresh : Fresh d path) (hne : ops ≠ []) {w : World}
    (hrun : run E path key (World.start d) ops = some w) (hrot : w.rotations < 2 ^ 32 - 1) :
    verifySegmentChain E w.dir path key = .ok (.intact w.appended.length (w.rotations + 1)) ∧
    verifyChain E w.dir path key =
      .ok ⟨w.sinceRotation, if w.sinceRotation = 0 then .empty else .intact⟩ ∧
    ∃ segs : List (List LogEntry), segs.length = w.rotations + 1 ∧
      segs.flatten.map (fun e => (e.kind, e.timestampMs)) = w.appended ∧
      ∀ i entries, segs[i]? = some entries →
        entries.map LogEntry.sequence = List.range entries.length ∧
        ∃ bytes, w.dir.lookup (segmentName path w.rotations i) = some bytes ∧
          readEntries E bytes = some entries := by
  obtain ⟨H, h⟩ := hfresh.tracks_run hne hrun (Nat.le_of_lt hrot)
  have hevents : H.records.map Record.event = w.appended := h.appended
  have hrotations : H.rotated.length = w.rotations := h.rotations.trans (Nat.zero_add _)
  have hcount : H.records.length = w.appended.length := by rw [← hevents, List.length_map]
  have hsegs : (w.rotations + 1) % 2 ^ 32 = w.rotations + 1 := Nat.mod_eq_of_lt (by omega)
  refine ⟨?_, ?_, ?_⟩
  · rw [h.represents.verifySegmentChain, hcount, hrotations, hsegs]
  · rw [h.represents.live.verifyChain, h.since]
  · rw [← hevents, ← hrotations]
    exact h.represents.exists_entries

/-- The live file of the sample runs. -/
def samplePath : FileName := "audit.log".toList

/-- A run that rotates after every append and reopens once. -/
theorem run_verifies_sample :
    ∃ w, run sampleCrates samplePath default (World.start ∅)
        [.openLog ⟨0⟩ none, .append sampleKind 0, .append sampleKind 0, .dropLog,
          .openLog ⟨1000⟩ none, .append sampleKind 0] = some w ∧
      w.rotations = 2 ∧
      verifySegmentChain sampleCrates w.dir samplePath default = .ok (.intact 3 3) := by
  have hsome : (run sampleCrates samplePath default (World.start ∅)
      [.openLog ⟨0⟩ none, .append sampleKind 0, .append sampleKind 0, .dropLog,
        .openLog ⟨1000⟩ none, .append sampleKind 0]).map
        (fun w => (w.appended.length, w.rotations)) = some (3, 2) := by decide +kernel
  obtain ⟨w, hw, hcounts⟩ := Option.map_eq_some_iff.mp hsome
  obtain ⟨happended, hrotations⟩ := Prod.mk.inj hcounts
  have hintact := (run_verifies sampleCrates samplePath default ∅ (by intro n hn; simp at hn)
    (by simp) hw (by rw [hrotations]; decide)).1
  rw [happended, hrotations] at hintact
  exact ⟨w, hw, hrotations, hintact⟩

/-- A fresh log with the given threshold and a number of appends. -/
def sampleWorld (limit entries : Nat) : Option World :=
  run sampleCrates samplePath default (World.start ∅)
    (.openLog ⟨limit⟩ none :: List.replicate entries (.append sampleKind 0))

theorem sampleWorld_tracks {limit entries : Nat} {w : World}
    (h : sampleWorld limit entries = some w) (hrot : w.rotations ≤ maxU32) :
    ∃ H : History sampleCrates, Tracks samplePath default History.empty w H :=
  Fresh.tracks_run (by intro n hn; simp at hn) (by simp) h hrot

end Akroasis.TamperLog
