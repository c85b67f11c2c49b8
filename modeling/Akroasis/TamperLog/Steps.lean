import Akroasis.TamperLog.Writer

/-!
# Akroasis.TamperLog.Steps

What each operation does to the history a directory holds: writing an entry pushes it,
rotating closes the live segment, and opening resumes whatever the verifier accepted.

Each program is first described as a map from `LogFile` to contents (`file_commitEntry`,
`file_rotate`, `file_openSteps`); the history lemmas then compare files, never
directories.
-/

namespace Akroasis.TamperLog

variable {E : Crates} {d : Directory} {path : FileName} {key : ChainKey} {H : History E} {log : Log}

/-! ## Files after each program -/

theorem file_refreshSeal (d : Directory) (log : Log) (f : LogFile) :
    file (FsOp.applyAll d (refreshSeal E log)) log.path f =
      if f = .liveSeal then
        some (sealBytes E log.chainKey log.sequence log.segmentStartHash log.provenance)
      else if f = .sealTmp then none
      else file d log.path f :=
  file_writeSeal E d log.path _ _ _ _ f

theorem file_commitEntry (d : Directory) (log : Log) (wire : Bytes) (hash : Hash) (f : LogFile) :
    file (FsOp.applyAll d (commitEntry E log wire hash)) log.path f =
      if f = .liveSeal then
        some (sealBytes E log.chainKey (log.sequence + 1) log.segmentStartHash
          (log.advanced wire hash).provenance)
      else if f = .sealTmp then none
      else if f = .live then (file d log.path .live).map (· ++ wire)
      else file d log.path f := by
  rw [commitEntry, FsOp.applyAll_cons]
  refine (file_refreshSeal _ (log.advanced wire hash) f).trans ?_
  have hw := file_write d log.path f .live wire
  simp only [LogFile.name] at hw
  rw [← hw]
  rfl

/-- The two renames that set a segment and its seal aside. -/
def setAside (log : Log) (n : Nat) : List FsOp :=
  [.rename log.path (rotationPath log.path n),
   .rename (sealPath log.path) (sealPath (rotationPath log.path n))]

theorem file_setAside (log : Log) (n : Nat) {contents sealed : Bytes}
    (hlive : file d log.path .live = some contents)
    (hseal : file d log.path .liveSeal = some sealed) (f : LogFile) :
    file (FsOp.applyAll d (setAside log n)) log.path f =
      if f = .segmentSeal n then some sealed
      else if f = .segment n then some contents
      else if f = .live ∨ f = .liveSeal then none
      else file d log.path f := by
  have h1 : ∀ g, file ((FsOp.rename log.path (rotationPath log.path n)).apply d) log.path g =
      if g = .segment n then some contents else if g = .live then none else file d log.path g :=
    fun g => file_rename d log.path .live (.segment n) g hlive
  have hseal1 : file ((FsOp.rename log.path (rotationPath log.path n)).apply d) log.path .liveSeal =
      some sealed := by rw [h1]; simpa using hseal
  refine (file_rename _ log.path .liveSeal (.segmentSeal n) f hseal1).trans ?_
  rw [h1]
  cases f <;> simp

/-- The steps of a rotation of a log whose live file and seal exist. -/
theorem rotate_eq (log : Log) {contents sealed : Bytes}
    (hlive : file d log.path .live = some contents)
    (hseal : file d log.path .liveSeal = some sealed) :
    rotate E d log = setAside log (nextRotationNumber d.keys log.path) ++
      .openAppend log.path :: refreshSeal E log.rotated := by
  set n := nextRotationNumber d.keys log.path with hn
  have hseal1 : (((FsOp.rename log.path (rotationPath log.path n)).apply d).lookup
      (sealPath log.path)).isSome := by
    have h := file_rename d log.path .live (.segment n) .liveSeal hlive
    rw [if_neg (by simp), if_neg (by simp), hseal] at h
    change (file ((FsOp.rename log.path (rotationPath log.path n)).apply d) log.path
      .liveSeal).isSome
    exact Option.isSome_iff_exists.mpr ⟨sealed, h⟩
  simp only [rotate, ← hn, renameSeal, if_pos hseal1]
  rfl

theorem file_rotate (log : Log) {contents sealed : Bytes}
    (hlive : file d log.path .live = some contents)
    (hseal : file d log.path .liveSeal = some sealed) (f : LogFile) :
    file (FsOp.applyAll d (rotate E d log)) log.path f =
      let n := nextRotationNumber d.keys log.path
      if f = .liveSeal then
        some (sealBytes E log.chainKey 0 log.prevHash log.rotated.provenance)
      else if f = .sealTmp then none
      else if f = .live then some []
      else if f = .segmentSeal n then some sealed
      else if f = .segment n then some contents
      else file d log.path f := by
  rw [rotate_eq log hlive hseal, FsOp.applyAll_append, FsOp.applyAll_cons]
  refine (file_refreshSeal _ log.rotated f).trans ?_
  have hopen : file ((FsOp.openAppend log.path).apply (FsOp.applyAll d (setAside log
      (nextRotationNumber d.keys log.path)))) log.path f = _ :=
    file_openAppend _ log.path f .live
  change (if f = .liveSeal then
      some (sealBytes E log.chainKey 0 log.prevHash log.rotated.provenance)
    else if f = .sealTmp then none else file _ log.path f) = _
  rw [hopen, file_setAside log _ hlive hseal, file_setAside log _ hlive hseal]
  cases f <;> simp

/-- The steps of an `open` that succeeds. -/
def openSteps (E : Crates) (log : Log) : List FsOp :=
  .openAppend (lockPath log.path) :: .openAppend log.path :: refreshSeal E log

theorem file_openSteps (d : Directory) (log : Log) (f : LogFile) :
    file (FsOp.applyAll d (openSteps E log)) log.path f =
      if f = .liveSeal then
        some (sealBytes E log.chainKey log.sequence log.segmentStartHash log.provenance)
      else if f = .sealTmp then none
      else if f = .live then some ((file d log.path .live).getD [])
      else if f = .lock then some ((file d log.path .lock).getD [])
      else file d log.path f := by
  have h1 : ∀ g, file ((FsOp.openAppend (lockPath log.path)).apply d) log.path g =
      if g = .lock then some ((file d log.path .lock).getD []) else file d log.path g := fun g =>
    file_openAppend d log.path g .lock
  have h2 : ∀ g, file ((FsOp.openAppend log.path).apply
      ((FsOp.openAppend (lockPath log.path)).apply d)) log.path g =
      if g = .live then some ((file d log.path .live).getD [])
      else if g = .lock then some ((file d log.path .lock).getD []) else file d log.path g := by
    intro g
    refine (file_openAppend _ log.path g .live).trans ?_
    rw [h1, h1]; rfl
  rw [openSteps, FsOp.applyAll_cons, FsOp.applyAll_cons, file_refreshSeal, h2]

/-! ## Only the log's own files are touched -/

theorem touched_commitEntry (log : Log) (wire : Bytes) (hash : Hash) :
    ∀ op ∈ commitEntry E log wire hash, ∀ name ∈ op.touched,
      ∃ f : LogFile, name = f.name log.path := by
  intro op hop name hname
  rcases List.mem_cons.mp hop with rfl | hop
  · exact ⟨.live, List.mem_singleton.mp hname⟩
  · exact touched_refreshSeal (log.advanced wire hash) op hop name hname

theorem touched_rotate (d : Directory) (log : Log) :
    ∀ op ∈ rotate E d log, ∀ name ∈ op.touched, ∃ f : LogFile, name = f.name log.path := by
  intro op hop name hname
  simp only [rotate, List.mem_cons, List.mem_append] at hop
  set n := nextRotationNumber d.keys log.path
  rcases hop with rfl | hop | rfl | hop
  · simp only [FsOp.touched, List.mem_cons, List.not_mem_nil, or_false] at hname
    rcases hname with rfl | rfl
    · exact ⟨.live, rfl⟩
    · exact ⟨.segment n, rfl⟩
  · unfold renameSeal at hop
    split at hop
    · rw [List.mem_singleton] at hop
      subst hop
      simp only [FsOp.touched, List.mem_cons, List.not_mem_nil, or_false] at hname
      rcases hname with rfl | rfl
      · exact ⟨.liveSeal, rfl⟩
      · exact ⟨.segmentSeal n, rfl⟩
    · contradiction
  · exact ⟨.live, List.mem_singleton.mp hname⟩
  · exact touched_refreshSeal log.rotated op hop name hname

theorem touched_openSteps (log : Log) :
    ∀ op ∈ openSteps E log, ∀ name ∈ op.touched, ∃ f : LogFile, name = f.name log.path := by
  intro op hop name hname
  simp only [openSteps, List.mem_cons] at hop
  rcases hop with rfl | rfl | hop
  · exact ⟨.lock, List.mem_singleton.mp hname⟩
  · exact ⟨.live, List.mem_singleton.mp hname⟩
  · exact touched_refreshSeal log op hop name hname

/-! ## Histories after each program -/

/-- A history whose rotated segments did not move is stored as soon as its live file is. -/
theorem Stored.update {d' : Directory} {H' : History E} (h : Stored d path key H)
    (hrot : H'.rotated = H.rotated) (hown : OwnFiles d' path)
    (hseg : ∀ n, file d' path (.segment n) = file d path (.segment n))
    (hsegSeal : ∀ n, file d' path (.segmentSeal n) = file d path (.segmentSeal n))
    (hlive : file d' path .live = some (encodeFrames E key (H'.liveStart key) H'.live.payloads))
    (hlt : H'.live.records.length < 2 ^ 64) : Stored d' path key H' where
  toRotatedFiles := by rw [hrot]; exact h.toRotatedFiles.congr hown hseg hsegSeal
  contents := hlive
  count_lt := hlt

/-- What `encode_entry` returns for a handle is the next record of the history and its frame. -/
theorem Stored.exists_record (h : Stored d path key H) (hlog : log.Agrees path key H)
    {kind : LogEntryKind} {now : Int} {wire : Bytes} {hash : Hash}
    (henc : encodeEntry E ⟨log.sequence, now, kind⟩ log.prevHash log.chainKey = .ok (wire, hash))
    (hfit : ((d.lookup path).getD []).length + wire.length ≤ maxFileLen) :
    ∃ r : Record E, r.entry.sequence = H.live.records.length ∧
      hash = linkHash E key r.payload (H.tip key) ∧ wire = frame r.payload hash ∧
      (encodeFrames E key (H.liveStart key) H.live.payloads).length + wire.length ≤ maxFileLen := by
  obtain ⟨cbor, hcbor, hlen, hhash, hwire⟩ := encodeEntry_eq_ok henc
  have hcontents : d.lookup path =
      some (encodeFrames E key (H.liveStart key) H.live.payloads) := h.contents
  rw [hcontents, Option.getD_some] at hfit
  rw [hlog.key_eq, hlog.prevHash_eq] at hhash
  exact ⟨⟨⟨log.sequence, now, kind⟩, cbor, hcbor, hlen⟩, hlog.sequence_eq, hhash, hwire, hfit⟩

/-- **Append**: writing and sealing a record pushes it onto the history. -/
theorem Stored.commit (h : Stored d path key H) (hlog : log.Agrees path key H) (r : Record E)
    (hseq : r.entry.sequence = H.live.records.length) {wire : Bytes} {hash : Hash}
    (hhash : hash = linkHash E key r.payload (H.tip key)) (hwire : wire = frame r.payload hash)
    (hfit : (encodeFrames E key (H.liveStart key) H.live.payloads).length + wire.length ≤
      maxFileLen) :
    Represents (FsOp.applyAll d (commitEntry E log wire hash)) path key (H.push r hseq) ∧
      (log.advanced wire hash).Agrees path key (H.push r hseq) := by
  obtain ⟨rfl, rfl, hprev, hstart, hseqn, hbytes⟩ := hlog
  have hfiles := file_commitEntry (E := E) d log wire hash
  have hframes : encodeFrames E log.chainKey (H.liveStart log.chainKey)
      (H.live.push r hseq).payloads =
      encodeFrames E log.chainKey (H.liveStart log.chainKey) H.live.payloads ++ wire := by
    rw [Segment.payloads_push, encodeFrames_append, hwire, hhash]
    simp only [encodeFrames, List.append_nil]
    rfl
  have hlen : (H.live.push r hseq).records.length = H.live.records.length + 1 := by
    simp [Segment.push]
  have hlt : H.live.records.length + 1 < 2 ^ 64 := by
    simpa using count_lt_of_fits ((Nat.le_add_right _ _).trans hfit)
  refine ⟨⟨h.update rfl (h.own.applyAll (touched_commitEntry log wire hash)) ?_ ?_ ?_ ?_, ?_⟩, ?_⟩
  · intro n; rw [hfiles]; simp
  · intro n; rw [hfiles]; simp
  · rw [hfiles, h.contents]
    simp only [reduceCtorEq, if_false, if_true, Option.map_some]
    rw [← hframes]; rfl
  · rw [← hlen] at hlt; exact hlt
  · refine ⟨(log.advanced wire hash).provenance, ?_⟩
    rw [hfiles, if_pos rfl, hseqn, hstart, ← hlen]
    rfl
  · refine ⟨rfl, rfl, ?_, hstart, ?_, ?_⟩
    · rw [History.tip_push, ← hhash]; rfl
    · change log.sequence + 1 = _
      rw [hseqn, ← hlen]; rfl
    · change log.bytesWritten + wire.length = (encodeFrames E log.chainKey
        (H.liveStart log.chainKey) (H.live.push r hseq).payloads).length
      rw [hframes, List.length_append, hbytes]

/-- **Rotate**: the live segment becomes the newest rotated one and the next segment
starts, empty, at the hash it ended with. -/
theorem Represents.rotate (h : Represents d path key H) (hlog : log.Agrees path key H)
    (hne : H.live.records ≠ []) (hbound : H.rotated.length < maxU32) :
    Represents (FsOp.applyAll d (rotate E d log)) path key (H.rotate hne) ∧
      log.rotated.Agrees path key (H.rotate hne) := by
  obtain ⟨rfl, rfl, hprev, hstart, hseqn, hbytes⟩ := hlog
  obtain ⟨tip, hsealed⟩ := h.sealed
  have hfiles := file_rotate (E := E) log h.contents hsealed
  have hn : nextRotationNumber d.keys log.path = H.rotated.length + 1 :=
    nextRotationNumber_eq h.own hbound h.segment_isSome
  simp only [hn] at hfiles
  refine ⟨⟨⟨h.toRotatedFiles.snoc (h.own.applyAll (touched_rotate d log)) hbound h.count_lt
    tip ?_ ?_, ?_, ?_⟩, ?_⟩, ?_⟩
  · intro n
    rw [hfiles]
    simp
    rfl
  · intro n
    rw [hfiles]
    simp
    rfl
  · rw [hfiles]
    simp [History.rotate, encodeFrames]
  · simp [History.rotate]
  · refine ⟨log.rotated.provenance, ?_⟩
    rw [hfiles, if_pos rfl, hprev, History.liveStart_rotate]
    rfl
  · refine ⟨rfl, rfl, ?_, ?_, rfl, rfl⟩
    · change log.prevHash = chainEnd E log.chainKey ((H.rotate hne).liveStart log.chainKey) []
      rw [chainEnd_nil, History.liveStart_rotate, hprev]
    · rw [History.liveStart_rotate, ← hprev]; rfl

/-! ## Opening -/

/-- A seal that does not claim too much can be resumed from. -/
theorem resumable_classifyTerminal {count entries : Nat} (h : count ≤ entries) (start : Hash)
    (tip : Option TipProvenance) :
    resumable (classifyTerminal (.valid count start tip) entries) = true := by
  unfold classifyTerminal
  by_cases h0 : entries = 0
  · have hc : count = 0 := by omega
    simp [h0, hc, resumable]
  · by_cases heq : count = entries
    · simp [h0, heq, resumable]
    · have hlt : count < entries := by omega
      simp [h0, heq, hlt, resumable]

/-- What an `open` that passes its checks returns. -/
theorem openInner_of_preflight {start prev : Hash} {sequence bytes : Nat}
    (hpre : preflight E d path key = .ok ()) (hstart : openStart E d path key = start)
    (hrec : recoverState d path start = (prev, sequence, bytes))
    (config : TamperLogConfig) (signer : Option TipSigner) :
    ∃ log : Log, openInner E d false path key config signer = (openSteps E log, .ok log) ∧
      log = { path := path, prevHash := prev, segmentStartHash := start, sequence := sequence,
              bytesWritten := bytes, maxFileBytes := config.maxFileBytes, chainKey := key,
              signer := signer } := by
  refine ⟨_, ?_, rfl⟩
  simp only [openInner, hpre, hstart, hrec, Bool.false_eq_true, if_false]
  rfl

/-- Opening re-seals the history it resumes. -/
theorem Stored.openSteps (h : Stored d path key H) (hlog : log.Agrees path key H) :
    Represents (FsOp.applyAll d (openSteps E log)) path key H := by
  obtain ⟨rfl, rfl, -, hstart, hseqn, -⟩ := hlog
  have hfiles := file_openSteps (E := E) d log
  refine ⟨h.update rfl (h.own.applyAll (touched_openSteps log)) ?_ ?_ ?_ h.count_lt, ?_⟩
  · intro n; rw [hfiles]; simp
  · intro n; rw [hfiles]; simp
  · rw [hfiles, h.contents]; simp
  · refine ⟨log.provenance, ?_⟩
    rw [hfiles, if_pos rfl, hseqn, hstart]

/-- **Reopen**: a stored history under a seal that does not claim too much is resumed
as it is. -/
theorem Stored.openInner (h : Stored d path key H) {count : Nat} {tip : Option TipProvenance}
    (hseal : readSeal E d path key = .valid count (H.liveStart key) tip)
    (hle : count ≤ H.live.records.length) (config : TamperLogConfig) (signer : Option TipSigner) :
    ∃ log : Log, openInner E d false path key config signer = (TamperLog.openSteps E log, .ok log) ∧
      log.Agrees path key H := by
  have hd : d.lookup path =
      some (encodeFrames E key (H.liveStart key) H.live.payloads ++ []) := by
    rw [List.append_nil]; exact h.contents
  have hverify := verifyChain_of_frames hd (by simp) H.live.payloads_fit (by rw [hseal]; rfl)
  have hpre : preflight E d path key = .ok () := by
    simp only [preflight, hd, hverify, hseal, H.live.length_payloads,
      resumable_classifyTerminal hle, if_true]
  have hstart : openStart E d path key = H.liveStart key := by
    simp only [openStart, hd, hseal, resolveStartHash]
  obtain ⟨log, hopen, rfl⟩ := openInner_of_preflight hpre hstart
    (recoverState_eq hd (by simp) H.live.payloads_fit) config signer
  exact ⟨_, hopen, ⟨rfl, rfl, rfl, rfl, H.live.length_payloads, rfl⟩⟩

/-- Opening where no live file exists starts at genesis, whatever else is there. -/
theorem openInner_missing (hlive : file d path .live = none) (config : TamperLogConfig)
    (signer : Option TipSigner) :
    ∃ log : Log, openInner E d false path key config signer = (TamperLog.openSteps E log, .ok log) ∧
      log.Agrees path key (History.empty : History E) := by
  change d.lookup path = none at hlive
  have hpre : preflight E d path key = .ok () := by simp only [preflight, hlive]
  have hstart : openStart E d path key = genesisHash E key := by simp only [openStart, hlive]
  have hrec : recoverState d path (genesisHash E key) = (genesisHash E key, 0, 0) := by
    simp only [recoverState, hlive]
  obtain ⟨log, hopen, rfl⟩ := openInner_of_preflight hpre hstart hrec config signer
  exact ⟨_, hopen, ⟨rfl, rfl, rfl, rfl, rfl, rfl⟩⟩

/-- **Create**: opening in a directory without any file of the log creates the empty
history. -/
theorem represents_empty (hown : OwnFiles d path) (hlive : file d path .live = none)
    (hseg : ∀ n, file d path (.segment n) = none)
    (hsegSeal : ∀ n, file d path (.segmentSeal n) = none)
    (hlog : log.Agrees path key (History.empty : History E)) :
    Represents (FsOp.applyAll d (openSteps E log)) path key (History.empty : History E) := by
  obtain ⟨rfl, rfl, -, hstart, hseqn, -⟩ := hlog
  have hfiles := file_openSteps (E := E) d log
  refine ⟨⟨⟨hown.applyAll (touched_openSteps log), ?_, ?_, ?_, Nat.zero_le _⟩, ?_,
    by simp [History.empty]⟩, ?_⟩
  · intro i seg hi
    simp [History.empty] at hi
  · intro n hn
    rw [hfiles] at hn
    simp [hseg n] at hn
  · intro n hn
    rw [hfiles] at hn
    simp [hsegSeal n] at hn
  · rw [hfiles, hlive]; rfl
  · refine ⟨log.provenance, ?_⟩
    rw [hfiles, if_pos rfl, hseqn, hstart]

end Akroasis.TamperLog
