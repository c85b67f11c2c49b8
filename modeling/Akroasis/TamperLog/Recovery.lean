import Akroasis.TamperLog.Binding
import Akroasis.TamperLog.Writer

/-!
# Akroasis.TamperLog.Recovery

The two readers of a log file: `stream_verify`, which reads every payload and recomputes
every hash, and `recover_state`, which seeks over the payloads and takes the stored hashes
as they are.

A turn of the second reads the frame that a turn of the first reads, or stops where that
finds no whole frame (`recoverLoop_succ`): a seek past the end of the file does not fail,
but the read of the hash after it does.
-/

namespace Akroasis.TamperLog

variable {E : Crates} {key : ChainKey}

/-- Seeking over a payload leaves what reading it leaves, or too little for a hash. -/
theorem readExact_drop (n : Nat) (bs : Bytes) :
    readExact 32 (bs.drop n) =
      match readExact n bs with
      | none => none
      | some (_, rest) => readExact 32 rest := by
  cases h : readExact n bs with
  | none =>
      have hshort := readExact_eq_none.mp h
      rw [List.drop_of_length_le hshort.le]
      rfl
  | some pair =>
      obtain ⟨payload, rest⟩ := pair
      obtain ⟨rfl, hlen⟩ := readExact_eq_some h
      simp only [drop_append_of_length hlen]

/-- **One turn** of `recover_state` takes the frame that `stream_verify` reads. -/
theorem recoverLoop_succ (fuel : Nat) (prev : Hash) (sequence bytesRead : Nat) (bs : Bytes) :
    recoverLoop (fuel + 1) prev sequence bytesRead bs =
      match readFrame bs with
      | .frame payload stored rest =>
          recoverLoop fuel stored (sequence + 1) (bytesRead + (4 + payload.length + 32)) rest
      | .eof | .oversized | .shortPayload | .shortHash _ => (prev, sequence, bytesRead) := by
  rw [recoverLoop, readFrame]
  cases hprefix : readExact 4 bs with
  | none => rfl
  | some pair =>
      obtain ⟨lenBuf, rest⟩ := pair
      simp only
      by_cases hbig : maxEntryBytes < ofLeBytes lenBuf
      · simp only [if_pos hbig]
      · simp only [if_neg hbig, readExact_drop]
        cases hpayload : readExact (ofLeBytes lenBuf) rest with
        | none => rfl
        | some pair =>
            obtain ⟨payload, rest⟩ := pair
            have hlen := (readExact_eq_some hpayload).2
            simp only
            cases hhash : readExact 32 rest with
            | none => rfl
            | some pair => simp only [hlen]

/-- The bytes the frames of a list of payloads take in a file. -/
def framesLength (payloads : List Bytes) : Nat := (payloads.map fun p => 4 + p.length + 32).sum

/-- **Turn by turn**: as long as every hash is the one recomputed, both readers go the same
way. -/
theorem recoverLoop_of_stream {fuel : Nat} {prev : Hash} {entries offset : Nat} {bs : Bytes}
    (h : (streamLoop E key fuel prev entries offset bs).breakStatus = none) :
    (streamLoop E key fuel prev entries offset bs).entriesVerified =
        entries + (payloadsLoop fuel bs).length ∧
      recoverLoop fuel prev entries offset bs =
        ((streamLoop E key fuel prev entries offset bs).terminalHash,
          (streamLoop E key fuel prev entries offset bs).entriesVerified,
          offset + framesLength (payloadsLoop fuel bs)) := by
  -- the induction is on the turns both of them have left
  induction fuel generalizing prev entries offset bs with
  | zero => cases h
  | succ fuel ih =>
      rw [recoverLoop_succ]
      rw [streamLoop] at h ⊢
      rw [payloadsLoop]
      cases hread : readFrame bs with
      | eof => simp [framesLength]
      | oversized => simp [hread] at h
      | shortPayload => simp [hread] at h
      | shortHash len => simp [hread] at h
      | frame payload stored rest =>
          simp only [hread] at h ⊢
          by_cases heq : linkHash E key payload prev = stored
          · rw [if_neg (not_not.mpr heq)] at h ⊢
            obtain ⟨hcount, hrecover⟩ := ih h
            rw [heq] at hcount hrecover ⊢
            have hoffset :
                offset + (4 + payload.length + 32) = offset + 4 + payload.length + 32 := by
              omega
            rw [hoffset, hrecover, hcount]
            simp only [framesLength, List.map_cons, List.sum_cons, List.length_cons, Prod.mk.injEq,
              true_and]
            omega
          · rw [if_pos heq] at h
            cases h

/-- **Recovery agrees with verification**: on a file that `stream_verify` reads without a
break, `recover_state` returns the hash at which it ends, the number of its entries, and the
length of the frames, whatever follows the last of them. -/
theorem recoverState_of_streamVerify (E : Crates) (d : Directory) (path : FileName) (key : ChainKey)
    (start : Hash) (s : StreamResult) (hverify : streamVerify E d path key start = .ok s)
    (hbreak : s.breakStatus = none) :
    ∃ bs, d.lookup path = some bs ∧ s.entriesVerified = (filePayloads bs).length ∧
      recoverState d path start =
        (s.terminalHash, s.entriesVerified, framesLength (filePayloads bs)) := by
  unfold streamVerify at hverify
  cases hfile : d.lookup path with
  | none => simp [hfile] at hverify
  | some bs =>
      rw [hfile] at hverify
      obtain rfl := Except.ok.inj hverify
      obtain ⟨hcount, hrecover⟩ := recoverLoop_of_stream hbreak
      simp only [Nat.zero_add] at hcount hrecover
      refine ⟨bs, rfl, hcount, ?_⟩
      rw [recoverState, hfile]
      simp only
      by_cases hempty : bs.length = 0
      · obtain rfl := List.eq_nil_of_length_eq_zero hempty
        rfl
      · rw [if_neg hempty]
        exact hrecover

/-- The directory of a log whose one entry is followed by two bytes of a length prefix. -/
def tailDir : Directory := (∅ : Directory).insert "audit.log".toList (oneEntry 0 ++ [0, 0])

/-- The two bytes are not counted. -/
theorem recoverState_of_streamVerify_tail :
    ∃ s bs, streamVerify sampleCrates tailDir "audit.log".toList default default = .ok s ∧
      s.breakStatus = none ∧ tailDir.lookup "audit.log".toList = some bs ∧
      recoverState tailDir "audit.log".toList default =
        (s.terminalHash, 1, framesLength (filePayloads bs)) ∧
      framesLength (filePayloads bs) + 2 = bs.length := by
  have hfile : tailDir.lookup "audit.log".toList = some (oneEntry 0 ++ [0, 0]) :=
    AList.lookup_insert _
  have hread : streamVerify sampleCrates tailDir "audit.log".toList default default =
      .ok (stream sampleCrates default default 0 0 (oneEntry 0 ++ [0, 0])) := by
    rw [streamVerify, hfile]
  have hclean :
      (stream sampleCrates default default 0 0 (oneEntry 0 ++ [0, 0])).breakStatus = none := by
    decide +kernel
  have hlength : (filePayloads (oneEntry 0 ++ [0, 0])).length = 1 ∧
      framesLength (filePayloads (oneEntry 0 ++ [0, 0])) + 2 = (oneEntry 0 ++ [0, 0]).length := by
    decide +kernel
  obtain ⟨bs, hbs, hcount, hrecover⟩ := recoverState_of_streamVerify sampleCrates tailDir
    "audit.log".toList default default _ hread hclean
  obtain rfl : oneEntry 0 ++ [0, 0] = bs := Option.some.inj (hfile.symm.trans hbs)
  rw [hcount, hlength.1] at hrecover
  exact ⟨_, _, hread, hclean, hfile, hrecover, hlength.2⟩

end Akroasis.TamperLog
