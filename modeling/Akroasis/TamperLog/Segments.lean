import Akroasis.TamperLog.Verify

/-!
# Akroasis.TamperLog.Segments

Cross-segment verification (`tamper_log_segments.rs`): the rotated segments
`{stem}.1.log`, `{stem}.2.log`, … and then the live file are streamed one after the
other, each from the hash its predecessor really ended at.

A directory is looked at through `LogFile` (`file`): as long as the names that share
the log's stem are its own (`OwnFiles`), the numbers `read_dir` shows are exactly the
numbers of the segment files that exist (`mem_rotationNumbers`).
-/

namespace Akroasis.TamperLog

/-- `segment_ok`: is the status acceptable in an intact set?  Only the live file may be
empty or ahead of its seal. -/
def segmentOk (status : ChainStatus) (isLive : Bool) : Bool :=
  match status with
  | .intact => true
  | .empty | .unsealed _ _ => isLive
  | .broken _ _ _ | .corrupted _ | .truncated _ => false

/-- Result of verifying an entire rotated log's segment set together. -/
inductive SegmentChainStatus where
  | intact (totalEntries segments : Nat)
  | missingSegment (number : Nat)
  | segmentBroken (path : FileName) (status : ChainStatus)
  deriving DecidableEq

/-- The status of a streamed segment: its break, or else the seal cross-check. -/
def segmentStatus (s : StreamResult) (sealed : SealState) : ChainStatus :=
  s.breakStatus.getD (classifyTerminal sealed s.entriesVerified)

/-- The status of the streamed live file: as for a segment, but a valid seal must also
name the hash the surviving segments ended at. -/
def liveStatus (live : StreamResult) (liveSeal : SealState) (expectedStart : Hash)
    (totalEntries : Nat) : ChainStatus :=
  match live.breakStatus, liveSeal with
  | some status, _ => status
  | none, .valid count start tip =>
      if start ≠ expectedStart then .broken totalEntries expectedStart start
      else classifyTerminal (.valid count start tip) live.entriesVerified
  | none, sealed => classifyTerminal sealed live.entriesVerified

section

variable (E : Crates)

/-- The end of the walk: the live file. -/
def verifyLive (d : Directory) (path : FileName) (key : ChainKey) (expectedStart : Hash)
    (totalEntries segments : Nat) : Except TamperLogError SegmentChainStatus :=
  match streamVerify E d path key expectedStart with
  | .error e => .error e
  | .ok live =>
      let status := liveStatus live (readSeal E d path key) expectedStart totalEntries
      if segmentOk status true then
        -- `segments` is a `u32`
        .ok (.intact (totalEntries + live.entriesVerified) ((segments + 1) % 2 ^ 32))
      else .ok (.segmentBroken path status)

/-- The walk over the rotated segments with the given numbers, then the live file. -/
def walkSegments (d : Directory) (path : FileName) (key : ChainKey) :
    List Nat → Hash → Nat → Nat → Except TamperLogError SegmentChainStatus
  | [], expectedStart, totalEntries, segments =>
      verifyLive E d path key expectedStart totalEntries segments
  | n :: ns, expectedStart, totalEntries, segments =>
      match streamVerify E d (rotationPath path n) key expectedStart with
      | .error e => .error e
      | .ok s =>
          let status := segmentStatus s (readSeal E d (rotationPath path n) key)
          if segmentOk status false then
            walkSegments d path key ns s.terminalHash (totalEntries + s.entriesVerified)
              ((segments + 1) % 2 ^ 32)
          else .ok (.segmentBroken (rotationPath path n) status)

/-- `verify_segment_chain`.  The source sorts and deduplicates the numbers to find the
largest and to look for gaps below it. -/
def verifySegmentChain (d : Directory) (path : FileName) (key : ChainKey) :
    Except TamperLogError SegmentChainStatus :=
  let numbers := rotationNumbers d.keys (logStem path)
  let largest := numbers.foldl max 0
  match (List.range' 1 largest).find? fun n => decide (n ∉ numbers) with
  | some expected => .ok (.missingSegment expected)
  | none => walkSegments E d path key (List.range' 1 largest) (genesisHash E key) 0 0

end

/-- A break is never an acceptable status. -/
theorem segmentOk_of_break {E : Crates} {key : ChainKey} {prev : Hash} {entries offset : Nat}
    {bs : Bytes} {status : ChainStatus}
    (h : (stream E key prev entries offset bs).breakStatus = some status) (isLive : Bool) :
    segmentOk status isLive = false := by
  induction hn : bs.length using Nat.strong_induction_on generalizing prev entries offset bs with
  | _ n ih =>
      rw [stream_eq] at h
      cases hr : readFrame bs with
      | eof => simp [hr] at h
      | oversized => simp only [hr, Option.some.injEq] at h; subst h; rfl
      | shortPayload => simp only [hr, Option.some.injEq] at h; subst h; rfl
      | shortHash len => simp only [hr, Option.some.injEq] at h; subst h; rfl
      | frame payload stored rest =>
          simp only [hr] at h
          by_cases heq : linkHash E key payload prev = stored
          · rw [if_neg (not_not.mpr heq)] at h
            exact ih rest.length (hn ▸ readFrame_rest_lt hr) h rfl
          · rw [if_pos heq] at h
            obtain rfl := Option.some.inj h
            rfl

/-! ## The directory as a map from `LogFile` -/

/-- The contents of one of the log's files. -/
def file (d : Directory) (path : FileName) (f : LogFile) : Option Bytes := d.lookup (f.name path)

theorem file_openAppend (d : Directory) (path : FileName) (f g : LogFile) :
    file ((FsOp.openAppend (g.name path)).apply d) path f =
      if f = g then some ((file d path g).getD []) else file d path f := by
  simp only [file, FsOp.lookup_openAppend, LogFile.name_inj]

theorem file_write (d : Directory) (path : FileName) (f g : LogFile) (b : Bytes) :
    file ((FsOp.write (g.name path) b).apply d) path f =
      if f = g then (file d path g).map (· ++ b) else file d path f := by
  simp only [file, FsOp.lookup_write, LogFile.name_inj]

theorem file_rename (d : Directory) (path : FileName) (src dst f : LogFile) {c : Bytes}
    (h : file d path src = some c) :
    file ((FsOp.rename (src.name path) (dst.name path)).apply d) path f =
      if f = dst then some c else if f = src then none else file d path f := by
  rw [file] at h
  simp only [file, FsOp.lookup_rename, h, LogFile.name_inj]

theorem file_writeSeal (E : Crates) (d : Directory) (path : FileName) (key : ChainKey)
    (count : Nat) (start : Hash) (tip : Option TipProvenance) (f : LogFile) :
    file (FsOp.applyAll d (writeSeal E path key count start tip)) path f =
      if f = .liveSeal then some (sealBytes E key count start tip)
      else if f = .sealTmp then none
      else file d path f := by
  have hseal : ∀ g : LogFile, g.name path = sealPath path ↔ g = .liveSeal := fun g =>
    LogFile.name_inj (g := .liveSeal)
  have htmp : ∀ g : LogFile, g.name path = sealTmpPath path ↔ g = .sealTmp := fun g =>
    LogFile.name_inj (g := .sealTmp)
  simp only [file, lookup_writeSeal, hseal, htmp]

/-- Every file that shares the log's stem is one of the log's own. -/
def OwnFiles (d : Directory) (path : FileName) : Prop :=
  ∀ name ∈ d.keys, logStem path <+: name → ∃ f : LogFile, name = f.name path

variable {d : Directory} {path : FileName}

/-- A program that touches only the log's files brings in no foreign ones. -/
theorem OwnFiles.applyAll {ops : List FsOp}
    (h : OwnFiles d path)
    (hops : ∀ op ∈ ops, ∀ name ∈ op.touched, ∃ f : LogFile, name = f.name path) :
    OwnFiles (FsOp.applyAll d ops) path := by
  intro name hmem hstem
  by_cases htouched : ∃ op ∈ ops, name ∈ op.touched
  · obtain ⟨op, hop, hname⟩ := htouched
    exact hops op hop name hname
  · push Not at htouched
    rw [Table.mem_keys_iff, FsOp.lookup_applyAll_of_not_touched d ops name htouched,
      ← Table.mem_keys_iff] at hmem
    exact h name hmem hstem

/-- The rotation numbers in use are those of the segment files. -/
theorem mem_rotationNumbers (hown : OwnFiles d path)
    {n : Nat} (hbound : ∀ m, (file d path (.segment m)).isSome → m ≤ maxU32) :
    n ∈ rotationNumbers d.keys (logStem path) ↔ (file d path (.segment n)).isSome := by
  rw [rotationNumbers, List.mem_filterMap]
  constructor
  · rintro ⟨name, hmem, hparse⟩
    obtain ⟨f, rfl⟩ := hown name hmem (stem_prefix_of_parse hparse)
    obtain ⟨m, rfl⟩ := f.parse_name path hparse
    have hm : (file d path (.segment m)).isSome := by
      rw [file, Option.isSome_iff_exists]
      exact (Table.mem_keys_iff d _).mp hmem
    have hnm : m = n := by
      have h := parseRotationNumber_rotationPath path (hbound m hm)
      exact Option.some.inj (h.symm.trans hparse)
    rwa [← hnm]
  · intro hn
    refine ⟨rotationPath path n, ?_, parseRotationNumber_rotationPath path (hbound n hn)⟩
    rw [Table.mem_keys_iff]
    exact Option.isSome_iff_exists.mp hn

/-- The largest number is an upper bound. -/
theorem le_foldl_max (numbers : List Nat) (a : Nat) :
    a ≤ numbers.foldl max a ∧ ∀ n ∈ numbers, n ≤ numbers.foldl max a := by
  induction numbers generalizing a with
  | nil => simp
  | cons x xs ih =>
      obtain ⟨hacc, hmem⟩ := ih (max a x)
      refine ⟨(Nat.le_max_left a x).trans hacc, fun n hn => ?_⟩
      rcases List.mem_cons.mp hn with rfl | hn
      · exact (Nat.le_max_right a n).trans hacc
      · exact hmem n hn

/-- The largest number is the least upper bound. -/
theorem foldl_max_le {numbers : List Nat} {a m : Nat} (ha : a ≤ m) (h : ∀ n ∈ numbers, n ≤ m) :
    numbers.foldl max a ≤ m := by
  induction numbers generalizing a with
  | nil => exact ha
  | cons x xs ih =>
      exact ih (Nat.max_le.mpr ⟨ha, h x List.mem_cons_self⟩)
        fun n hn => h n (List.mem_cons_of_mem _ hn)

/-- The largest number of a list that holds exactly `1, …, m`. -/
theorem foldl_max_eq {numbers : List Nat} {m : Nat}
    (h : ∀ n, n ∈ numbers ↔ 1 ≤ n ∧ n ≤ m) : numbers.foldl max 0 = m := by
  apply Nat.le_antisymm (foldl_max_le (Nat.zero_le m) fun n hn => ((h n).mp hn).2)
  rcases Nat.eq_zero_or_pos m with rfl | hm
  · exact Nat.zero_le _
  · exact (le_foldl_max numbers 0).2 m ((h m).mpr ⟨hm, Nat.le_refl m⟩)

/-- With segment files `1, …, m` and no others, the walk starts at segment 1 and visits
them all. -/
theorem verifySegmentChain_eq_walk (E : Crates)
    (key : ChainKey) {m : Nat} (hown : OwnFiles d path) (hm : m ≤ maxU32)
    (hfiles : ∀ n, (file d path (.segment n)).isSome ↔ 1 ≤ n ∧ n ≤ m) :
    verifySegmentChain E d path key =
      walkSegments E d path key (List.range' 1 m) (genesisHash E key) 0 0 := by
  have hmem : ∀ n, n ∈ rotationNumbers d.keys (logStem path) ↔ 1 ≤ n ∧ n ≤ m := by
    intro n
    rw [mem_rotationNumbers hown fun k hk => ((hfiles k).mp hk).2.trans hm, hfiles]
  have hnone : ((List.range' 1 m).find? fun n =>
      decide (n ∉ rotationNumbers d.keys (logStem path))) = none := by
    rw [List.find?_eq_none]
    intro n hn
    have hrange : 1 ≤ n ∧ n ≤ m := by
      rw [List.mem_range'_1] at hn; omega
    simp [hmem n, hrange.1, hrange.2]
  simp only [verifySegmentChain, foldl_max_eq hmem, hnone]

/-- An intact walk has found segment files `1, …, m` and no others. -/
theorem numbers_of_intact (E : Crates) {key : ChainKey}
    {N t s : Nat} (hown : OwnFiles d path) (hN : N ≤ maxU32)
    (hfiles : ∀ n, (file d path (.segment n)).isSome → 1 ≤ n ∧ n ≤ N)
    (h : verifySegmentChain E d path key = .ok (.intact t s)) :
    ∃ m ≤ N, ∀ n, (file d path (.segment n)).isSome ↔ 1 ≤ n ∧ n ≤ m := by
  have hmem : ∀ n, n ∈ rotationNumbers d.keys (logStem path) ↔
      (file d path (.segment n)).isSome := fun n =>
    mem_rotationNumbers hown fun k hk => (hfiles k hk).2.trans hN
  set numbers := rotationNumbers d.keys (logStem path) with hnumbers
  refine ⟨numbers.foldl max 0, ?_, fun n => ?_⟩
  · exact foldl_max_le (Nat.zero_le N) fun n hn => (hfiles n ((hmem n).mp hn)).2
  · constructor
    · intro hn
      exact ⟨(hfiles n hn).1, (le_foldl_max numbers 0).2 n ((hmem n).mpr hn)⟩
    · rintro ⟨h1, h2⟩
      rw [← hmem]
      by_contra hnot
      -- a gap would have been reported
      have hgap : ((List.range' 1 (numbers.foldl max 0)).find? fun n =>
          decide (n ∉ numbers)).isSome := by
        rw [List.find?_isSome]
        exact ⟨n, by rw [List.mem_range'_1]; omega, by simpa using hnot⟩
      obtain ⟨gap, hgap⟩ := Option.isSome_iff_exists.mp hgap
      simp only [verifySegmentChain, ← hnumbers, hgap] at h
      cases h

/-- The number the next rotation uses. -/
theorem nextRotationNumber_eq {m : Nat}
    (hown : OwnFiles d path) (hm : m < maxU32)
    (hfiles : ∀ n, (file d path (.segment n)).isSome ↔ 1 ≤ n ∧ n ≤ m) :
    nextRotationNumber d.keys path = m + 1 := by
  have hmem : ∀ n, n ∈ rotationNumbers d.keys (logStem path) ↔ 1 ≤ n ∧ n ≤ m := by
    intro n
    rw [mem_rotationNumbers hown fun k hk => ((hfiles k).mp hk).2.trans hm.le, hfiles]
  rw [nextRotationNumber, foldl_max_eq hmem, Nat.min_eq_left hm]

/-- While the next rotation has a number of its own, the segments have not used up theirs. -/
theorem lt_of_nextRotationNumber_lt {m : Nat}
    (hown : OwnFiles d path) (hm : m ≤ maxU32)
    (hfiles : ∀ n, (file d path (.segment n)).isSome ↔ 1 ≤ n ∧ n ≤ m)
    (h : nextRotationNumber d.keys path < maxU32) : m < maxU32 := by
  have hmem : ∀ n, n ∈ rotationNumbers d.keys (logStem path) ↔ 1 ≤ n ∧ n ≤ m := by
    intro n
    rw [mem_rotationNumbers hown fun k hk => ((hfiles k).mp hk).2.trans hm, hfiles]
  rw [nextRotationNumber, foldl_max_eq hmem] at h
  omega

end Akroasis.TamperLog
