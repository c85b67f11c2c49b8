import Akroasis.TamperLog.AppendCrash

/-!
# Akroasis.TamperLog.RotateCrash

Crashes inside a rotation.  A rotation is eight file-system steps: the live file is
renamed, its seal is renamed, a new live file is created, and the new seal is written to
a temporary and renamed into place.  A crash can come after any number of them
(`CrashAt`), and an I/O error leaves the same directories.

Reopening is safe before the first rename and after the last one only.  In between the
live file is missing or has no seal, `open` starts it at the genesis hash, and the
segment walk finds either a segment without a seal or a live file that does not
continue it.
-/

namespace Akroasis.TamperLog

/-- Reopening `d` succeeds, and whatever is done afterwards the segment walk is intact
and counts `n` entries and those appended since.  (`m` bounds the segments there are.) -/
def CountsFrom (E : Crates) (path : FileName) (key : ChainKey) (n m : Nat) (d : Directory) : Prop :=
  ∀ config signer, ∃ ops log, openInner E d false path key config signer = (ops, .ok log) ∧
    ∀ further w, run E path key (World.opened (FsOp.applyAll d ops) log) further = some w →
      m + w.rotations ≤ maxU32 →
      ∃ segments, verifySegmentChain E w.dir path key =
        .ok (.intact (n + w.appended.length) segments)

variable {E : Crates} {path : FileName} {key : ChainKey} {H : History E} {d d' : Directory}
  {log : Log} {k n m : Nat}

/-! ## What a reopened log counts -/

/-- An open that resumes a history counts from its length and from nothing else. -/
theorem countsFrom_iff (hm : m ≤ maxU32) (hrot : H.rotated.length ≤ m)
    (hopen : ∀ config signer, ∃ log, openInner E d false path key config signer =
      (openSteps E log, .ok log) ∧ log.Agrees path key H ∧
      Represents (FsOp.applyAll d (openSteps E log)) path key H) :
    CountsFrom E path key n m d ↔ n = H.records.length := by
  constructor
  · intro hcounts
    obtain ⟨ops, log, hok, hrun⟩ := hcounts ⟨0⟩ none
    obtain ⟨log', hok', -, hrep⟩ := hopen ⟨0⟩ none
    obtain ⟨rfl, -⟩ := Prod.mk.inj (hok.symm.trans hok')
    -- no further operation
    obtain ⟨segments, hv⟩ := hrun [] _ rfl (by simpa [World.opened] using hm)
    change verifySegmentChain E (FsOp.applyAll d (openSteps E log')) path key = _ at hv
    rw [hrep.verifySegmentChain] at hv
    obtain ⟨htotal, -⟩ := SegmentChainStatus.intact.inj (Except.ok.inj hv)
    simpa [World.opened] using htotal.symm
  · rintro rfl config signer
    obtain ⟨log, hok, hagrees, hrep⟩ := hopen config signer
    refine ⟨_, log, hok, fun further w hrun hbound => ?_⟩
    have hstart : Tracks path key H (World.opened (FsOp.applyAll d (openSteps E log)) log) H :=
      ⟨hrep, rfl, hagrees.sequence_eq.symm, by simp [World.opened], .refl H, by
        intro log' hlog'
        rw [← Option.some.inj hlog']
        exact hagrees⟩
    obtain ⟨H', hH'⟩ := tracks_run hstart hrun (by omega)
    have hlen : H'.records.length = H.records.length + w.appended.length := by
      have := congrArg List.length hH'.appended
      simpa using this
    exact ⟨_, by rw [hH'.represents.verifySegmentChain, hlen]⟩

/-- An open after which the walk reports a broken segment does not count. -/
theorem not_countsFrom (hm : m ≤ maxU32) {config : TamperLogConfig} {signer : Option TipSigner}
    (hopen : openInner E d false path key config signer = (openSteps E log, .ok log))
    {name : FileName} {status : ChainStatus}
    (hbroken : verifySegmentChain E (FsOp.applyAll d (openSteps E log)) path key =
      .ok (.segmentBroken name status)) : ¬ CountsFrom E path key n m d := by
  intro hcounts
  obtain ⟨ops, log', hok, hrun⟩ := hcounts config signer
  obtain ⟨rfl, -⟩ := Prod.mk.inj (hok.symm.trans hopen)
  obtain ⟨segments, hv⟩ := hrun [] _ rfl (by simpa [World.opened] using hm)
  change verifySegmentChain E (FsOp.applyAll d (openSteps E log)) path key = _ at hv
  rw [hbroken] at hv
  simp at hv

/-! ## Opening a live file that is blank -/

/-- Opening an empty live file without a seal starts at genesis. -/
theorem openInner_blank (hlive : file d path .live = some [])
    (hseal : file d path .liveSeal = none) (config : TamperLogConfig)
    (signer : Option TipSigner) :
    ∃ log : Log, openInner E d false path key config signer = (openSteps E log, .ok log) ∧
      log.Agrees path key (History.empty : History E) := by
  have habsent : readSeal E d path key = .absent := (readSeal_eq_absent E).mpr hseal
  have hd : d.lookup path = some (encodeFrames E key (genesisHash E key) [] ++ []) := hlive
  have hverify := verifyChain_of_frames hd (by simp) (by simp) (by rw [habsent]; rfl)
  have hpre : preflight E d path key = .ok () := by
    simp only [preflight, hd, hverify, habsent]
    rfl
  have hstart : openStart E d path key = genesisHash E key := by
    simp only [openStart, hd, habsent, resolveStartHash]
  obtain ⟨log, hopen, rfl⟩ := openInner_of_preflight hpre hstart
    (recoverState_eq hd (by simp) (by simp)) config signer
  exact ⟨_, hopen, ⟨rfl, rfl, rfl, rfl, rfl, rfl⟩⟩

/-! ## The directories a crash leaves -/

/-- The steps after the two renames touch the live file and the temporary only, until the
new seal is renamed into place. -/
theorem CrashAt.rotate_cases {contents sealed : Bytes}
    (hlive : file d log.path .live = some contents)
    (hseal : file d log.path .liveSeal = some sealed)
    (hc : CrashAt d (rotate E d log) k d') :
    (k = 0 ∧ d' = d) ∨
    (k = 1 ∧ d' = (FsOp.rename log.path
      (rotationPath log.path (nextRotationNumber d.keys log.path))).apply d) ∨
    (2 ≤ k ∧ k ≤ 6 ∧ ∃ ops,
      (ops = [] ∨ ∃ tmp, ops = .openAppend log.path :: tmp ∧
        ∀ op ∈ tmp, ∀ name ∈ op.touched, name = sealTmpPath log.path) ∧
      d' = FsOp.applyAll d (setAside log (nextRotationNumber d.keys log.path) ++ ops)) ∨
    (7 ≤ k ∧ d' = FsOp.applyAll d (rotate E d log)) := by
  rw [rotate_eq log hlive hseal] at hc ⊢
  set n := nextRotationNumber d.keys log.path
  set b := sealBytes E log.rotated.chainKey log.rotated.sequence log.rotated.segmentStartHash
    log.rotated.provenance with hb
  have hlist : setAside log n ++ .openAppend log.path :: refreshSeal E log.rotated =
      [.rename log.path (rotationPath log.path n),
       .rename (sealPath log.path) (sealPath (rotationPath log.path n)),
       .openAppend log.path, .create (sealTmpPath log.path), .write (sealTmpPath log.path) b,
       .sync (sealTmpPath log.path), .rename (sealTmpPath log.path) (sealPath log.path),
       .sync (sealPath log.path)] := rfl
  rw [hlist] at hc ⊢
  cases hc with
  | between =>
      obtain h | h | h | h | h | h | h | h : k = 0 ∨ k = 1 ∨ k = 2 ∨ k = 3 ∨ k = 4 ∨ k = 5 ∨ k = 6 ∨
          7 ≤ k := by omega
      · subst h; exact .inl ⟨rfl, rfl⟩
      · subst h; exact .inr (.inl ⟨rfl, rfl⟩)
      · subst h
        exact .inr (.inr (.inl ⟨by omega, by omega, [], .inl rfl, rfl⟩))
      · subst h
        exact .inr (.inr (.inl ⟨by omega, by omega, [.openAppend log.path],
          .inr ⟨[], rfl, by simp⟩, rfl⟩))
      · subst h
        exact .inr (.inr (.inl ⟨by omega, by omega,
          [.openAppend log.path, .create (sealTmpPath log.path)],
          .inr ⟨_, rfl, by simp [FsOp.touched]⟩, rfl⟩))
      · subst h
        exact .inr (.inr (.inl ⟨by omega, by omega,
          [.openAppend log.path, .create (sealTmpPath log.path), .write (sealTmpPath log.path) b],
          .inr ⟨_, rfl, by simp [FsOp.touched]⟩, rfl⟩))
      · subst h
        exact .inr (.inr (.inl ⟨by omega, by omega,
          [.openAppend log.path, .create (sealTmpPath log.path), .write (sealTmpPath log.path) b,
            .sync (sealTmpPath log.path)],
          .inr ⟨_, rfl, by simp [FsOp.touched]⟩, rfl⟩))
      · refine .inr (.inr (.inr ⟨h, ?_⟩))
        obtain h | h : k = 7 ∨ 8 ≤ k := by omega
        · subst h; rfl
        · rw [List.take_of_length_le (by simpa using h)]
  | torn name bytes j hk =>
      have hk4 : k = 4 := by
        obtain h | h | h | h | h | h | h | h | h : k = 0 ∨ k = 1 ∨ k = 2 ∨ k = 3 ∨ k = 4 ∨ k = 5 ∨
            k = 6 ∨ k = 7 ∨ 8 ≤ k := by omega
        all_goals first
          | exact h
          | (subst h; simp at hk)
          | (rw [List.getElem?_eq_none (by simpa using h)] at hk; simp at hk)
      subst hk4
      simp only [List.getElem?_cons_succ, List.getElem?_cons_zero, Option.some.injEq,
        FsOp.write.injEq] at hk
      obtain ⟨rfl, rfl⟩ := hk
      exact .inr (.inr (.inl ⟨by omega, by omega,
        [.openAppend log.path, .create (sealTmpPath log.path),
          .write (sealTmpPath log.path) (b.take j)],
        .inr ⟨_, rfl, by simp [FsOp.touched]⟩, rfl⟩))

/-- Between the seal's rename and the new seal: the old segment is set aside with its
seal, and the live file is missing or blank. -/
structure SetAside (d : Directory) (path : FileName) (key : ChainKey) (H : History E) : Prop
    extends RotatedFiles d path key (H.rotated ++ [H.live]) where
  live : file d path .live = none ∨ file d path .live = some []
  liveSeal : file d path .liveSeal = none

theorem Represents.setAside (h : Represents d log.path key H) (hbound : H.rotated.length < maxU32)
    {ops : List FsOp} (hops : ops = [] ∨ ∃ tmp, ops = .openAppend log.path :: tmp ∧
      ∀ op ∈ tmp, ∀ name ∈ op.touched, name = sealTmpPath log.path) :
    SetAside (FsOp.applyAll d (setAside log (H.rotated.length + 1) ++ ops)) log.path key H := by
  obtain ⟨tip, hsealed⟩ := h.sealed
  have haside := file_setAside log (H.rotated.length + 1) h.contents hsealed
  have hrenames : ∀ op ∈ TamperLog.setAside log (H.rotated.length + 1), ∀ name ∈ op.touched,
      ∃ f : LogFile, name = f.name log.path := by
    intro op hop name hname
    simp only [TamperLog.setAside, List.mem_cons, List.not_mem_nil, or_false] at hop
    rcases hop with rfl | rfl <;>
      simp only [FsOp.touched, List.mem_cons, List.not_mem_nil, or_false] at hname <;>
      rcases hname with rfl | rfl
    · exact ⟨.live, rfl⟩
    · exact ⟨.segment (H.rotated.length + 1), rfl⟩
    · exact ⟨.liveSeal, rfl⟩
    · exact ⟨.segmentSeal (H.rotated.length + 1), rfl⟩
  have hseg : RotatedFiles (FsOp.applyAll d (TamperLog.setAside log (H.rotated.length + 1)))
      log.path key (H.rotated ++ [H.live]) := by
    refine h.toRotatedFiles.snoc (h.own.applyAll hrenames) hbound h.count_lt tip ?_ ?_
    · intro n; rw [haside]; simp; rfl
    · intro n; rw [haside]; simp; rfl
  rcases hops with rfl | ⟨tmp, rfl, htmp⟩
  · rw [List.append_nil]
    exact ⟨hseg, .inl (by rw [haside]; simp), by rw [haside]; simp⟩
  · -- creating the live file and writing the temporary change nothing else
    have hne : ∀ f : LogFile, f ≠ .sealTmp → ∀ op ∈ tmp, f.name log.path ∉ op.touched := by
      intro f hf op hop hmem
      exact hf (LogFile.name_inj (g := .sealTmp) |>.mp (htmp op hop _ hmem))
    have hfiles : ∀ f : LogFile, f ≠ .sealTmp →
        file (FsOp.applyAll d (TamperLog.setAside log (H.rotated.length + 1) ++
          .openAppend log.path :: tmp)) log.path f =
        if f = .live then some [] else
          file (FsOp.applyAll d (TamperLog.setAside log (H.rotated.length + 1))) log.path f := by
      intro f hf
      rw [FsOp.applyAll_append, FsOp.applyAll_cons, file,
        FsOp.lookup_applyAll_of_not_touched _ _ _ (hne f hf)]
      refine (file_openAppend _ log.path f .live).trans ?_
      rw [haside .live]; simp
    have hown : OwnFiles (FsOp.applyAll d (TamperLog.setAside log (H.rotated.length + 1) ++
        .openAppend log.path :: tmp)) log.path := by
      rw [FsOp.applyAll_append]
      refine hseg.own.applyAll fun op hop name hname => ?_
      rcases List.mem_cons.mp hop with rfl | hop
      · exact ⟨.live, List.mem_singleton.mp hname⟩
      · exact ⟨.sealTmp, htmp op hop name hname⟩
    refine ⟨hseg.congr hown ?_ ?_, .inr ?_, ?_⟩
    · intro n; rw [hfiles _ (by simp)]; simp
    · intro n; rw [hfiles _ (by simp)]; simp
    · rw [hfiles _ (by simp)]; simp
    · rw [hfiles _ (by simp), haside]; simp

namespace SetAside

/-- Reopening starts the live file at genesis. -/
theorem openInner (h : SetAside d path key H) (config : TamperLogConfig)
    (signer : Option TipSigner) :
    ∃ log : Log, openInner E d false path key config signer = (openSteps E log, .ok log) ∧
      log.Agrees path key (History.empty : History E) := by
  rcases h.live with hlive | hlive
  · exact openInner_missing hlive config signer
  · exact openInner_blank hlive h.liveSeal config signer

/-- The files after reopening: the segments as they were, an empty live file sealed from
genesis. -/
theorem files_openSteps (h : SetAside d path key H)
    (hlog : log.Agrees path key (History.empty : History E)) :
    RotatedFiles (FsOp.applyAll d (openSteps E log)) path key (H.rotated ++ [H.live]) ∧
      file (FsOp.applyAll d (openSteps E log)) path .live = some [] ∧
      file (FsOp.applyAll d (openSteps E log)) path .liveSeal =
        some (sealBytes E key 0 (genesisHash E key) log.provenance) := by
  obtain ⟨rfl, rfl, -, hstart, hseqn, -⟩ := hlog
  have hfiles := file_openSteps (E := E) d log
  refine ⟨h.toRotatedFiles.congr (h.own.applyAll (touched_openSteps log)) ?_ ?_, ?_, ?_⟩
  · intro n; rw [hfiles]; simp
  · intro n; rw [hfiles]; simp
  · rw [hfiles]
    rcases h.live with hlive | hlive <;> rw [hlive] <;> rfl
  · rw [hfiles, if_pos rfl, hseqn, hstart]
    rfl

/-- When the segment happens to end at the genesis hash, the rotation is as good as
completed. -/
theorem represents (h : SetAside d path key H) (hne : H.live.records ≠ [])
    (htip : H.tip key = genesisHash E key)
    (hlog : log.Agrees path key (History.empty : History E)) :
    Represents (FsOp.applyAll d (openSteps E log)) path key (H.rotate hne) ∧
      log.Agrees path key (H.rotate hne) := by
  obtain ⟨hfiles, hlive, hseal⟩ := h.files_openSteps hlog
  have hstart : (H.rotate hne).liveStart key = genesisHash E key := by
    rw [History.liveStart_rotate, htip]
  refine ⟨⟨⟨hfiles, ?_, by simp [History.rotate]⟩, log.provenance, ?_⟩, ?_⟩
  · rw [hlive]; rfl
  · rw [hseal, hstart]; rfl
  · obtain ⟨h1, h2, h3, h4, h5, h6⟩ := hlog
    have h3' : log.prevHash = genesisHash E key := h3
    have h4' : log.segmentStartHash = genesisHash E key := h4
    refine ⟨h1, h2, ?_, h4'.trans hstart.symm, h5, h6⟩
    rw [h3', ← hstart]; rfl

/-- Otherwise the live file does not continue the segment. -/
theorem broken (h : SetAside d path key H) (hne : H.live.records ≠ [])
    (htip : H.tip key ≠ genesisHash E key)
    (hlog : log.Agrees path key (History.empty : History E)) :
    ∃ status, verifySegmentChain E (FsOp.applyAll d (openSteps E log)) path key =
      .ok (.segmentBroken path status) := by
  obtain ⟨hfiles, hlive, hseal⟩ := h.files_openSteps hlog
  set d1 := FsOp.applyAll d (openSteps E log)
  have hwalk := hfiles.verifySegmentChain (H.rotate hne).rotated_ne_nil
  rw [startAfter_append_singleton] at hwalk
  change _ = verifyLive E d1 path key (H.tip key) _ _ at hwalk
  have hstream : streamVerify E d1 path key (H.tip key) = .ok ⟨0, H.tip key, none⟩ := by
    change d1.lookup path = some [] at hlive
    rw [streamVerify, hlive]
    simp only [stream_short _ _ _ (show ([] : Bytes).length < 4 by decide)]
  have hread : readSeal E d1 path key = .valid 0 (genesisHash E key) log.provenance := by
    change d1.lookup (sealPath path) = _ at hseal
    rw [readSeal, hseal]
    exact readSealBytes_sealBytes E key _ _ (by decide)
  rw [hwalk, verifyLive, hstream]
  simp only [hread, liveStatus, if_pos htip.symm, segmentOk, Bool.false_eq_true, if_false]
  exact ⟨_, rfl⟩

end SetAside

/-- Behind the rotated segments of `H` stands its live one, under the next number and
without a seal. -/
structure Unsealed (d : Directory) (path : FileName) (key : ChainKey) (H : History E) : Prop where
  own : OwnFiles d path
  files : ∀ i seg, H.rotated[i]? = some seg →
    SegmentFile d key (rotationPath path (i + 1)) (startAfter key (H.rotated.take i)) seg
  last : file d path (.segment (H.rotated.length + 1)) =
    some (encodeFrames E key (H.liveStart key) H.live.payloads)
  lastSeal : file d path (.segmentSeal (H.rotated.length + 1)) = none
  isSome : ∀ n, (file d path (.segment n)).isSome ↔ 1 ≤ n ∧ n ≤ H.rotated.length + 1

/-- The first rename of a rotation. -/
theorem Represents.unsealed (h : Represents d log.path key H) :
    Unsealed ((FsOp.rename log.path (rotationPath log.path (H.rotated.length + 1))).apply d)
      log.path key H := by
  set d1 := (FsOp.rename log.path (rotationPath log.path (H.rotated.length + 1))).apply d
  have hfile : ∀ f, file d1 log.path f = if f = .segment (H.rotated.length + 1) then
      some (encodeFrames E key (H.liveStart key) H.live.payloads)
      else if f = .live then none else file d log.path f := fun f =>
    file_rename d log.path .live (.segment (H.rotated.length + 1)) f h.contents
  have hother : ∀ n, n ≠ H.rotated.length + 1 →
      file d1 log.path (.segment n) = file d log.path (.segment n) := by
    intro n hn
    rw [hfile]
    simp [hn]
  have hseals : ∀ n, file d1 log.path (.segmentSeal n) = file d log.path (.segmentSeal n) := by
    intro n
    rw [hfile]
    simp
  have hown : OwnFiles (FsOp.applyAll d
      [.rename log.path (rotationPath log.path (H.rotated.length + 1))]) log.path :=
    h.own.applyAll fun op hop name hname => by
      rw [List.mem_singleton] at hop
      subst hop
      simp only [FsOp.touched, List.mem_cons, List.not_mem_nil, or_false] at hname
      rcases hname with rfl | rfl
      · exact ⟨.live, rfl⟩
      · exact ⟨.segment (H.rotated.length + 1), rfl⟩
  refine ⟨hown, fun i seg hi => ?_, by rw [hfile, if_pos rfl], ?_, fun n => ?_⟩
  · have hlt := (List.getElem?_eq_some_iff.mp hi).1
    exact (h.files i seg hi).congr (hother (i + 1) (by omega)) (hseals (i + 1))
  · rw [hseals, ← Option.not_isSome_iff_eq_none]
    intro hs
    have := h.seals _ hs
    omega
  · by_cases hn : n = H.rotated.length + 1
    · rw [hfile]
      simp [hn]
    · rw [hother n hn, h.segment_isSome]
      omega

namespace Unsealed

/-- Reopening leaves the segments as they are: the seal it writes is the live file's. -/
theorem openSteps (h : Unsealed d log.path key H) :
    Unsealed (FsOp.applyAll d (openSteps E log)) log.path key H := by
  have hfiles := file_openSteps (E := E) d log
  have hseg : ∀ n, file (FsOp.applyAll d (TamperLog.openSteps E log)) log.path (.segment n) =
      file d log.path (.segment n) := by
    intro n; rw [hfiles]; simp
  have hsegSeal :
      ∀ n, file (FsOp.applyAll d (TamperLog.openSteps E log)) log.path (.segmentSeal n) =
      file d log.path (.segmentSeal n) := by
    intro n; rw [hfiles]; simp
  exact ⟨h.own.applyAll (touched_openSteps log),
    fun i seg hi => (h.files i seg hi).congr (hseg (i + 1)) (hsegSeal (i + 1)),
    (hseg _).trans h.last, (hsegSeal _).trans h.lastSeal, fun n => by rw [hseg, h.isSome]⟩

/-- The last segment streams to the end of its frames. -/
theorem streamVerify (h : Unsealed d path key H) :
    streamVerify E d (rotationPath path (H.rotated.length + 1)) key (startAfter key H.rotated) =
      .ok ⟨H.live.records.length, H.tip key, none⟩ := by
  have hlookup : d.lookup (rotationPath path (H.rotated.length + 1)) =
      some (encodeFrames E key (H.liveStart key) H.live.payloads ++ []) := by
    rw [List.append_nil]; exact h.last
  rw [TamperLog.streamVerify, hlookup]
  simp only [stream_intact _ (show ([] : Bytes).length < 4 by decide) H.live.payloads_fit,
    History.liveStart, Segment.length_payloads]
  rfl

/-- The walk stops at the segment that has no seal. -/
theorem broken (h : Unsealed d path key H) (hbound : H.rotated.length < maxU32)
    (hne : H.live.records ≠ []) :
    ∃ status, verifySegmentChain E d path key =
      .ok (.segmentBroken (rotationPath path (H.rotated.length + 1)) status) := by
  have hwalk : walkSegments E d path key
      (List.range' 1 H.rotated.length ++ [H.rotated.length + 1]) (startAfter key []) 0 0 = _ :=
    walkSegments_append [] H.rotated [H.rotated.length + 1] H.rotated_ne_nil
      (fun i seg hi => by simpa [Nat.add_comm] using h.files i seg hi)
      (by simp only [maxU32] at hbound; omega)
  have hrange : List.range' 1 (H.rotated.length + 1) =
      List.range' 1 H.rotated.length ++ [H.rotated.length + 1] := by
    rw [List.range'_concat]; simp [Nat.add_comm]
  have habsent : readSeal E d (rotationPath path (H.rotated.length + 1)) key = .absent :=
    (readSeal_eq_absent E).mpr h.lastSeal
  have hlen : H.live.records.length ≠ 0 := fun h0 => hne (List.eq_nil_of_length_eq_zero h0)
  rw [verifySegmentChain_eq_walk E key h.own hbound h.isSome, hrange]
  change ∃ status, walkSegments E d path key _ (startAfter key []) 0 0 = _
  rw [hwalk, List.nil_append, walkSegments, h.streamVerify]
  simp only [habsent, segmentStatus, Option.getD_none, classifyTerminal, if_neg hlen, segmentOk,
    Bool.false_eq_true, if_false]
  exact ⟨_, rfl⟩

end Unsealed

/-- After the first rename alone, reopening replaces the seal of the segment that was
set aside by one for the new live file: the segment is left without a seal for good. -/
theorem renamed_broken (h : Represents d log.path key H)
    (hbound : H.rotated.length < maxU32) (hne : H.live.records ≠ []) (config : TamperLogConfig)
    (signer : Option TipSigner) :
    let d1 := (FsOp.rename log.path (rotationPath log.path (H.rotated.length + 1))).apply d
    ∃ log' : Log, openInner E d1 false log.path key config signer = (openSteps E log', .ok log') ∧
      ∃ status, verifySegmentChain E (FsOp.applyAll d1 (openSteps E log')) log.path key =
        .ok (.segmentBroken (rotationPath log.path (H.rotated.length + 1)) status) := by
  intro d1
  have hmissing : file d1 log.path .live = none := by
    rw [show file d1 log.path .live = _ from
      file_rename d log.path .live (.segment (H.rotated.length + 1)) .live h.contents]
    simp
  obtain ⟨log', hopen, hlog⟩ := openInner_missing hmissing config signer
  have hunsealed : Unsealed d1 log.path key H := h.unsealed
  rw [← hlog.path_eq] at hunsealed
  refine ⟨log', hopen, ?_⟩
  rw [← hlog.path_eq]
  exact hunsealed.openSteps.broken hbound hne

/-! ## The crash points that are safe -/

/-- A directory that represents a history counts from its length. -/
theorem Represents.countsFrom_iff (h : Represents d path key H) (hm : m ≤ maxU32)
    (hrot : H.rotated.length ≤ m) : CountsFrom E path key n m d ↔ n = H.records.length := by
  refine TamperLog.countsFrom_iff hm hrot fun config signer => ?_
  obtain ⟨tip, hseal⟩ := h.live.readSeal
  obtain ⟨log, hopen, hagrees⟩ := h.toStored.openInner hseal (Nat.le_refl _) config signer
  exact ⟨log, hopen, hagrees, h.toStored.openSteps hagrees⟩

/-- A rotation stopped after `k` steps, case by case. -/
theorem Represents.countsFrom_crash (h : Represents d path key H) (hlog : log.Agrees path key H)
    (hne : H.live.records ≠ []) (hbound : H.rotated.length < maxU32)
    (hcrash : CrashAt d (TamperLog.rotate E d log) k d') :
    CountsFrom E path key n (H.rotated.length + 1) d' ↔
      n = H.records.length ∧ (k = 0 ∨ 7 ≤ k ∨ 2 ≤ k ∧ H.tip key = genesisHash E key) := by
  obtain ⟨tip, hsealed⟩ := h.sealed
  obtain ⟨hrep, -⟩ := h.rotate hlog hne hbound
  obtain ⟨rfl, rfl⟩ := And.intro hlog.path_eq hlog.key_eq
  have hn : nextRotationNumber d.keys log.path = H.rotated.length + 1 :=
    nextRotationNumber_eq h.own hbound h.segment_isSome
  have hrotated : (H.rotate hne).rotated.length = H.rotated.length + 1 := by simp [History.rotate]
  rcases CrashAt.rotate_cases h.contents hsealed hcrash with
    ⟨rfl, rfl⟩ | ⟨rfl, rfl⟩ | ⟨h2, h6, ops, hops, rfl⟩ | ⟨h7, rfl⟩
  · rw [h.countsFrom_iff hbound (Nat.le_succ _)]
    simp
  · -- the live file was renamed and nothing else
    rw [hn]
    obtain ⟨log', hopen, status, hbroken⟩ := renamed_broken h hbound hne ⟨0⟩ none
    refine iff_of_false (not_countsFrom hbound hopen hbroken) ?_
    rintro ⟨-, h0 | h7 | ⟨h2, -⟩⟩ <;> omega
  · -- both files were set aside
    rw [hn]
    have haside := h.setAside hbound hops
    by_cases htip : H.tip log.chainKey = genesisHash E log.chainKey
    · rw [TamperLog.countsFrom_iff (H := H.rotate hne) hbound hrotated.le, History.records_rotate]
      · simp [h2, htip]
      · intro config signer
        obtain ⟨log', hopen, hagrees⟩ := haside.openInner config signer
        obtain ⟨hrep', hagrees'⟩ := haside.represents hne htip hagrees
        exact ⟨log', hopen, hagrees', hrep'⟩
    · obtain ⟨log', hopen, hagrees⟩ := haside.openInner ⟨0⟩ none
      obtain ⟨status, hbroken⟩ := haside.broken hne htip hagrees
      refine iff_of_false (not_countsFrom hbound hopen hbroken) ?_
      rintro ⟨-, h0 | h7 | ⟨-, heq⟩⟩
      · omega
      · omega
      · exact htip heq
  · -- the new seal is in place
    rw [hrep.countsFrom_iff hbound hrotated.le, History.records_rotate]
    simp [h7]

section

-- An append to the log of `H` has written and sealed its entry, and its rotation is stopped
-- after `k` steps.
variable {kind : LogEntryKind} {now : Int} {wire : Bytes} {hash : Hash}
  (h : Represents d path key H) (hlog : log.Agrees path key H)
  (henc : encodeEntry E ⟨log.sequence, now, kind⟩ log.prevHash log.chainKey = .ok (wire, hash))
  (hfit : ((d.lookup path).getD []).length + wire.length ≤ maxFileLen)
  (hbound : H.rotated.length < maxU32)
  (hcrash : CrashAt (FsOp.applyAll d (commitEntry E log wire hash))
    (rotate E (FsOp.applyAll d (commitEntry E log wire hash)) (log.advanced wire hash)) k d')

include h hlog henc hfit hbound hcrash

/-- The reopened log counts the acknowledged entries, the one in flight (it is on disk) and
those appended since, if and only if the live file was not renamed yet, or the new seal is in
place, or both files were set aside and the chain stands, by accident, at the genesis hash. -/
theorem countsFrom_rotation_crash_iff :
    CountsFrom E path key n (H.rotated.length + 1) d' ↔
      n = H.records.length + 1 ∧ (k = 0 ∨ 7 ≤ k ∨ 2 ≤ k ∧ hash = genesisHash E key) := by
  obtain ⟨r, hseq, hhash, hwire, hfit'⟩ := h.toStored.exists_record hlog henc hfit
  obtain ⟨hrep, hagrees⟩ := h.toStored.commit hlog r hseq hhash hwire hfit'
  have htip : (H.push r hseq).tip key = hash := by rw [History.tip_push, hhash]
  have hne : (H.push r hseq).live.records ≠ [] := by simp [History.push, Segment.push]
  have hcount : (H.push r hseq).records.length = H.records.length + 1 := by
    rw [History.records_push, List.length_append, List.length_singleton]
  rw [← htip, ← hcount]
  exact hrep.countsFrom_crash hagrees hne hbound hcrash

/-- **Crash during a rotation**: wherever it is stopped, the reopened log never counts the
acknowledged entries and those appended since.  Either a segment is reported broken, or the
entry in flight, whose append did not return, is counted as well. -/
theorem rotation_crash_miscounts :
    ¬ CountsFrom E path key H.records.length (H.rotated.length + 1) d' := by
  intro hcounts
  have hn := (countsFrom_rotation_crash_iff h hlog henc hfit hbound hcrash).mp hcounts
  omega

end

/-- The append of the next entry is stopped after `k` steps of its rotation and the log
is reopened: what the segment walk says. -/
def rotateCrashOutcome (k : Nat) (w : World) :
    Option (Except TamperLogError SegmentChainStatus) := do
  let log ← w.handle
  let (wire, hash) ←
    (encodeEntry sampleCrates ⟨log.sequence, 0, sampleKind⟩ log.prevHash log.chainKey).toOption
  let d := FsOp.applyAll w.dir (commitEntry sampleCrates log wire hash)
  let d' := FsOp.applyAll d ((rotate sampleCrates d (log.advanced wire hash)).take k)
  let opened := openInner sampleCrates d' false samplePath default ⟨150⟩ none
  return verifySegmentChain sampleCrates (FsOp.applyAll d' opened.1) samplePath default

/-- One entry is acknowledged; the second is on disk when its rotation is stopped after
the first rename.  Reopening gives up the only seal of the segment that holds both. -/
theorem rotation_crash_loses_seal :
    (sampleWorld 150 1).bind (rotateCrashOutcome 1) =
      some (.ok (.segmentBroken "audit.1.log".toList (.truncated none))) := by
  decide +kernel

/-- The same log: however far its rotation got, the one acknowledged entry is not what is
counted, and when the new seal is in place both entries are. -/
theorem rotation_crash_miscounts_sample :
    ∃ w log wire hash, sampleWorld 150 1 = some w ∧ w.handle = some log ∧
      encodeEntry sampleCrates ⟨log.sequence, 0, sampleKind⟩ log.prevHash log.chainKey =
        .ok (wire, hash) ∧
      let d := FsOp.applyAll w.dir (commitEntry sampleCrates log wire hash)
      let ops := rotate sampleCrates d (log.advanced wire hash)
      (∀ k, ¬ CountsFrom sampleCrates samplePath default 1 1 (FsOp.applyAll d (ops.take k))) ∧
      CountsFrom sampleCrates samplePath default 2 1 (FsOp.applyAll d (ops.take 7)) := by
  have hsample : (sampleWorld 150 1).map (fun w => (w.rotations, w.appended.length,
      ((w.dir.lookup samplePath).getD []).length, w.handle.map fun log =>
        (encodeEntry sampleCrates ⟨log.sequence, 0, sampleKind⟩ log.prevHash
          log.chainKey).toOption.map fun x => x.1.length)) = some (0, 1, 112, some (some 112)) := by
    decide +kernel
  obtain ⟨w, hw, hfields⟩ := Option.map_eq_some_iff.mp hsample
  simp only [Prod.mk.injEq, Option.map_eq_some_iff, toOption_eq_some] at hfields
  obtain ⟨hrot, happended, hlen, log, hlog, ⟨wire, hash⟩, henc, hwire⟩ := hfields
  obtain ⟨H, hH⟩ := sampleWorld_tracks hw (by rw [hrot]; decide)
  have hrotated : H.rotated.length = 0 := by rw [hH.rotations, hrot]; rfl
  have hrecords : H.records.length = 1 := by
    rw [← happended, ← List.length_map (f := Record.event), hH.appended]; rfl
  have hfit : ((w.dir.lookup samplePath).getD []).length + wire.length ≤ maxFileLen := by
    simp only at hwire
    rw [hlen, hwire]; decide
  have hbound : H.rotated.length < maxU32 := by rw [hrotated]; decide
  refine ⟨w, log, wire, hash, hw, hlog, henc, fun k => ?_, ?_⟩
  · have h := rotation_crash_miscounts hH.represents (hH.handle log hlog) henc hfit hbound
      (CrashAt.between (k := k))
    rwa [hrotated, hrecords] at h
  · have h := countsFrom_rotation_crash_iff (n := 2) hH.represents (hH.handle log hlog) henc hfit
      hbound (CrashAt.between (k := 7))
    rw [hrotated] at h
    exact h.mpr (by rw [hrecords]; simp)

end Akroasis.TamperLog
