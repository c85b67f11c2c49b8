import Akroasis.Results
import Akroasis.TamperLog.Runs

/-!
# Akroasis.TamperLog.AppendCrash

Crashes inside an append.  A crash can leave any prefix of the new entry in the live
file, under the seal from before or from after the refresh (`AppendCrash`).

Reopening such a directory is safe (`Recovers`) except in one case: one, two or three
bytes of the entry's length prefix under the old seal.  The verifier takes so short a
tail for an ordinary end of file, so the open succeeds; the next entry is then written
*behind* the stray bytes and the chain is out of step from there on.
-/

namespace Akroasis.TamperLog

/-- What a crash while `log` appends the entry `wire` can leave of `d`: the first `k`
bytes of the entry, the old seal or the refreshed one, and anything in the temporary. -/
structure AppendCrash (E : Crates) (d : Directory) (log : Log) (wire : Bytes) (hash : Hash)
    (k : Nat) (refreshed : Bool) (d' : Directory) : Prop where
  live : file d' log.path .live = (file d log.path .live).map (· ++ wire.take k)
  liveSeal : file d' log.path .liveSeal =
    if refreshed then
      some (sealBytes E log.chainKey (log.sequence + 1) log.segmentStartHash
        (log.advanced wire hash).provenance)
    else file d log.path .liveSeal
  others : ∀ name, name ≠ log.path → name ≠ sealPath log.path → name ≠ sealTmpPath log.path →
    d'.lookup name = d.lookup name

/-- The world of a log that was just opened: nothing is acknowledged yet. -/
def World.opened (d : Directory) (log : Log) : World := ⟨d, some log, [], log.sequence, 0⟩

/-- Whatever is done after a successful open of `d`, the live file verifies and every
record of `H` is verified in its original place. -/
def Recovers (E : Crates) (path : FileName) (key : ChainKey) (H : History E) (d : Directory) :
    Prop :=
  ∀ config signer ops log, openInner E d false path key config signer = (ops, .ok log) →
    ∀ further w, run E path key (World.opened (FsOp.applyAll d ops) log) further = some w →
      H.rotated.length + w.rotations ≤ maxU32 →
      verifyChain E w.dir path key =
        .ok ⟨w.sinceRotation, if w.sinceRotation = 0 then .empty else .intact⟩ ∧
      ∀ i j r, H.recordAt i j = some r →
        ∃ bytes entries n,
          w.dir.lookup (segmentName path (H.rotated.length + w.rotations) i) = some bytes ∧
          readEntries E bytes = some entries ∧ entries[j]? = some r.entry ∧
          verifyChain E w.dir (segmentName path (H.rotated.length + w.rotations) i) key =
            .ok ⟨n, .intact⟩ ∧ j < n

variable {E : Crates} {path : FileName} {key : ChainKey} {H : History E} {d d' : Directory}
  {log : Log} {wire : Bytes} {hash : Hash} {k : Nat} {refreshed : Bool}

/-! ## Runs after a resumed open -/

/-- A record of the history is verified in the file of its segment. -/
theorem Represents.recordAt (h : Represents d path key H) {i j : Nat} {r : Record E}
    (hr : H.recordAt i j = some r) :
    ∃ bytes entries n, d.lookup (segmentName path H.rotated.length i) = some bytes ∧
      readEntries E bytes = some entries ∧ entries[j]? = some r.entry ∧
      verifyChain E d (segmentName path H.rotated.length i) key = .ok ⟨n, .intact⟩ ∧ j < n := by
  obtain ⟨seg, hseg, hj⟩ := Option.bind_eq_some_iff.mp hr
  obtain ⟨start, hfile⟩ := h.segmentFile hseg
  obtain ⟨bytes, hbytes, hentries⟩ := hfile.readEntries
  have hlt := (List.getElem?_eq_some_iff.mp hj).1
  refine ⟨bytes, _, seg.records.length, hbytes, hentries, ?_, ?_, hlt⟩
  · rw [List.getElem?_map, hj]; rfl
  · rw [hfile.verifyChain, if_neg (by omega)]

/-- An open that resumes an extension of `H` recovers `H`. -/
theorem recovers_of_resumed {H' : History E} (hext : H'.Extends H)
    (hrot : H'.rotated.length = H.rotated.length)
    (hopen : ∀ config signer ops log, openInner E d false path key config signer = (ops, .ok log) →
      Represents (FsOp.applyAll d ops) path key H' ∧ log.Agrees path key H') :
    Recovers E path key H d := by
  intro config signer ops log hok further w hrun hbound
  obtain ⟨hrep, hagrees⟩ := hopen config signer ops log hok
  have hstart : Tracks path key H' (World.opened (FsOp.applyAll d ops) log) H' :=
    ⟨hrep, rfl, hagrees.sequence_eq.symm, by simp [World.opened], .refl H', by
      intro log' hlog'
      rw [← Option.some.inj hlog']
      exact hagrees⟩
  obtain ⟨H'', hH''⟩ := tracks_run hstart hrun (by rwa [hrot])
  refine ⟨?_, ?_⟩
  · rw [hH''.represents.live.verifyChain, hH''.since]
  · intro i j r hr
    rw [← hrot, ← hH''.rotations]
    exact hH''.represents.recordAt (hH''.extend i j r (hext i j r hr))

/-- A stored history under a seal that does not claim too much is recovered. -/
theorem Stored.recovers {H' : History E} (h : Stored d path key H') {count : Nat}
    {tip : Option TipProvenance}
    (hseal : readSeal E d path key = .valid count (H'.liveStart key) tip)
    (hle : count ≤ H'.live.records.length) (hext : H'.Extends H)
    (hrot : H'.rotated.length = H.rotated.length) : Recovers E path key H d := by
  refine recovers_of_resumed hext hrot fun config signer ops log hok => ?_
  obtain ⟨log', hopen, hagrees⟩ := h.openInner hseal hle config signer
  obtain ⟨rfl, hlog⟩ := Prod.mk.inj (hopen.symm.trans hok)
  obtain rfl := Except.ok.inj hlog
  exact ⟨h.openSteps hagrees, hagrees⟩

/-- An open that is refused recovers vacuously. -/
theorem recovers_of_refused (hrefused : ∃ e, preflight E d path key = .error e) :
    Recovers E path key H d := by
  intro config signer ops log hok
  obtain ⟨e, he⟩ := hrefused
  simp [openInner, he] at hok

/-! ## The crash states -/

namespace AppendCrash

/-- The log's other files are untouched. -/
theorem file_other (hc : AppendCrash E d log wire hash k refreshed d') {f : LogFile}
    (h1 : f ≠ .live) (h2 : f ≠ .liveSeal) (h3 : f ≠ .sealTmp) :
    file d' log.path f = file d log.path f :=
  hc.others (f.name log.path) (fun h => h1 (LogFile.name_inj (g := .live) |>.mp h))
    (fun h => h2 (LogFile.name_inj (g := .liveSeal) |>.mp h))
    (fun h => h3 (LogFile.name_inj (g := .sealTmp) |>.mp h))

theorem own (hc : AppendCrash E d log wire hash k refreshed d') (h : OwnFiles d log.path) :
    OwnFiles d' log.path := by
  intro name hmem hstem
  by_cases hname : ∃ f : LogFile, name = f.name log.path
  · exact hname
  · have hlookup : d'.lookup name = d.lookup name :=
      hc.others name (fun h => hname ⟨.live, h⟩) (fun h => hname ⟨.liveSeal, h⟩)
        fun h => hname ⟨.sealTmp, h⟩
    rw [Table.mem_keys_iff, hlookup, ← Table.mem_keys_iff] at hmem
    exact h name hmem hstem

/-- The history with the given live segment is stored if its frames are what is left. -/
theorem stored (hc : AppendCrash E d log wire hash k refreshed d') {H' : History E}
    (h : Stored d log.path key H) (hrot : H'.rotated = H.rotated)
    (hlive : encodeFrames E key (H'.liveStart key) H'.live.payloads =
      encodeFrames E key (H.liveStart key) H.live.payloads ++ wire.take k)
    (hlt : H'.live.records.length < 2 ^ 64) : Stored d' log.path key H' := by
  refine h.update hrot (hc.own h.own) ?_ ?_ ?_ hlt
  · intro n; exact hc.file_other (by simp) (by simp) (by simp)
  · intro n; exact hc.file_other (by simp) (by simp) (by simp)
  · rw [hc.live, h.contents, hlive]; rfl

/-- The seal that is left is valid, with the old count or the new one. -/
theorem readSeal (hc : AppendCrash E d log wire hash k refreshed d')
    (h : Represents d log.path log.chainKey H) (hlog : log.Agrees log.path log.chainKey H)
    (hlt : H.live.records.length + 1 < 2 ^ 64) :
    ∃ tip, readSeal E d' log.path log.chainKey =
      .valid (if refreshed then H.live.records.length + 1 else H.live.records.length)
        (H.liveStart log.chainKey) tip := by
  obtain ⟨tip, hold⟩ := h.sealed
  have hseal := hc.liveSeal
  change d'.lookup (sealPath log.path) = _ at hseal
  cases refreshed with
  | true =>
      refine ⟨(log.advanced wire hash).provenance, ?_⟩
      rw [TamperLog.readSeal, hseal, hlog.sequence_eq, hlog.start_eq]
      exact readSealBytes_sealBytes E log.chainKey _ _ hlt
  | false =>
      refine ⟨tip, ?_⟩
      rw [TamperLog.readSeal, hseal, hold]
      exact readSealBytes_sealBytes E log.chainKey _ _ h.count_lt

end AppendCrash

/-- Opening is refused when the file's stream or its seal is not resumable. -/
theorem preflight_refused {contents : Bytes} {v : VerificationResult}
    (hd : d.lookup path = some contents) (hv : verifyChain E d path key = .ok v)
    (hstatus : resumable v.status = false) : ∃ e, preflight E d path key = .error e := by
  refine ⟨.chainCompromised path v.status, ?_⟩
  simp [preflight, hd, hv, hstatus]

/-- A frame cut after its length prefix corrupts the file. -/
theorem verifyChain_of_cut {start : Hash} {ps : List Bytes} {payload : Bytes}
    (hd : d.lookup path = some (encodeFrames E key start ps ++ (frame payload hash).take k))
    (hps : ∀ p ∈ ps, p.length ≤ maxEntryBytes) (hlen : payload.length ≤ maxEntryBytes)
    (h4 : 4 ≤ k) (hk : k < (frame payload hash).length)
    (hstart : resolveStartHash E (readSeal E d path key) key = start) :
    ∃ offset, verifyChain E d path key = .ok ⟨ps.length, .corrupted offset⟩ := by
  have hstream : ∃ offset, stream E key start 0 0
      (encodeFrames E key start ps ++ (frame payload hash).take k) =
      ⟨ps.length, chainEnd E key start ps, some (.corrupted offset)⟩ := by
    rw [stream_encodeFrames _ _ _ _ hps, stream_eq]
    rcases readFrame_take hlen hash h4 hk with hr | hr <;> rw [hr] <;>
      simp only [Nat.zero_add] <;> exact ⟨_, rfl⟩
  obtain ⟨offset, hs⟩ := hstream
  refine ⟨offset, ?_⟩
  simp only [verifyChain, hstart, streamVerify, hd, hs, Option.getD_some]

/-- A seal that claims more than the file holds is not resumed from. -/
theorem not_resumable_of_lt {count entries : Nat} (h : entries < count) (start : Hash)
    (tip : Option TipProvenance) :
    resumable (classifyTerminal (.valid count start tip) entries) = false := by
  have h0 : count ≠ 0 := by omega
  have hne : count ≠ entries := by omega
  have hlt : ¬ count < entries := by omega
  unfold classifyTerminal
  by_cases he : entries = 0
  · simp [he, h0, resumable]
  · simp [he, hne, hlt, resumable]

/-- **Recovery**: unless one to three bytes of the entry are left under the old seal,
whatever a crash leaves is either refused or resumed without loss. -/
theorem AppendCrash.recovers (hc : AppendCrash E d log wire hash k refreshed d')
    (h : Represents d path key H) (hlog : log.Agrees path key H) (r : Record E)
    (hseq : r.entry.sequence = H.live.records.length)
    (hhash : hash = linkHash E key r.payload (H.tip key)) (hwire : wire = frame r.payload hash)
    (hfit : (encodeFrames E key (H.liveStart key) H.live.payloads).length + wire.length ≤
      maxFileLen)
    (hk : ¬ (refreshed = false ∧ 1 ≤ k ∧ k ≤ 3)) : Recovers E path key H d' := by
  obtain ⟨rfl, rfl⟩ := And.intro hlog.path_eq hlog.key_eq
  have hlt : H.live.records.length + 1 < 2 ^ 64 := by
    simpa using count_lt_of_fits ((Nat.le_add_right _ _).trans hfit)
  obtain ⟨tip, hseal⟩ := hc.readSeal h hlog hlt
  have hlive : d'.lookup log.path = some (encodeFrames E log.chainKey (H.liveStart log.chainKey)
      H.live.payloads ++ wire.take k) := by
    have := hc.live
    rw [h.contents] at this
    exact this
  have hstart : resolveStartHash E (TamperLog.readSeal E d' log.path log.chainKey) log.chainKey =
      H.liveStart log.chainKey := by rw [hseal]; rfl
  by_cases hfull : wire.length ≤ k
  · -- the whole entry is there: it is resumed, sealed or not
    have hframes : encodeFrames E log.chainKey ((H.push r hseq).liveStart log.chainKey)
        (H.push r hseq).live.payloads =
        encodeFrames E log.chainKey (H.liveStart log.chainKey) H.live.payloads ++ wire.take k := by
      rw [List.take_of_length_le hfull, hwire, hhash]
      change encodeFrames E log.chainKey (H.liveStart log.chainKey)
        (H.live.push r hseq).payloads = _
      rw [Segment.payloads_push, encodeFrames_append]
      simp only [encodeFrames, List.append_nil]
      rfl
    have hlen : (H.push r hseq).live.records.length = H.live.records.length + 1 := by
      simp [History.push, Segment.push]
    have hstored : Stored d' log.path log.chainKey (H.push r hseq) :=
      hc.stored h.toStored rfl hframes (by omega)
    refine hstored.recovers hseal ?_ (History.extends_push H r hseq) rfl
    rw [hlen]; split <;> omega
  · by_cases h4 : 4 ≤ k
    · -- cut inside the payload or the hash: corrupted
      rw [hwire] at hlive hfull
      obtain ⟨offset, hv⟩ := verifyChain_of_cut hlive H.live.payloads_fit r.fits h4
        (Nat.lt_of_not_le hfull) hstart
      exact recovers_of_refused (preflight_refused hlive hv rfl)
    · cases hr : refreshed with
      | true =>
          -- the seal already counts an entry that is not there
          subst hr
          have hv := verifyChain_of_frames hlive (by simp; omega) H.live.payloads_fit hstart
          refine recovers_of_refused (preflight_refused hlive hv ?_)
          simp only [hseal, if_true, H.live.length_payloads]
          exact not_resumable_of_lt (Nat.lt_succ_self _) _ _
      | false =>
          -- nothing of the entry is there
          subst hr
          have hk0 : k = 0 := by
            by_contra hne
            exact hk ⟨rfl, by omega, by omega⟩
          refine (hc.stored h.toStored rfl (by simp [hk0]) h.count_lt).recovers hseal ?_
            (.refl H) rfl
          simp

/-! ## The case that is not recovered -/

/-- A write that is cut short leaves the old seal. -/
theorem appendCrash_write (d : Directory) (log : Log) (wire : Bytes) (hash : Hash) (k : Nat) :
    AppendCrash E d log wire hash k false ((FsOp.write log.path (wire.take k)).apply d) where
  live := file_write d log.path .live .live (wire.take k)
  liveSeal := file_write d log.path .liveSeal .live (wire.take k)
  others := by
    intro name hname _ _
    rw [FsOp.lookup_write, if_neg hname]

/-- A crash leaves `k` bytes of the entry the open handle appends next; the log is
reopened and appended to.  The result is what the verifier then says, how many entries
the file should hold and how often it rotated. -/
def tearOutcome (k : Nat) (w : World) :
    Option (Except TamperLogError VerificationResult × Nat × Nat) := do
  let log ← w.handle
  let (wire, _) ←
    (encodeEntry sampleCrates ⟨log.sequence, 0, sampleKind⟩ log.prevHash log.chainKey).toOption
  let torn := (FsOp.write log.path (wire.take k)).apply w.dir
  let opened := openInner sampleCrates torn false samplePath default ⟨1000⟩ none
  let log' ← opened.2.toOption
  let w' ← run sampleCrates samplePath default (World.opened (FsOp.applyAll torn opened.1) log')
    [.append sampleKind 0]
  return (verifyChain sampleCrates w'.dir samplePath default, w'.sinceRotation, w'.rotations)

theorem tearOutcome_corrupted {k : Nat} (h1 : 1 ≤ k) (h3 : k ≤ 3) :
    ∃ offset, (sampleWorld 1000 1).bind (tearOutcome k) =
      some (.ok ⟨1, .corrupted offset⟩, 2, 0) := by
  obtain rfl | rfl | rfl : k = 1 ∨ k = 2 ∨ k = 3 := by omega
  · exact ⟨116, by decide +kernel⟩
  · exact ⟨116, by decide +kernel⟩
  · exact ⟨112, by decide +kernel⟩

/-- Up to three bytes of an entry under the old seal: the log is reopened, and the append
after that is acknowledged but not verified. -/
theorem not_recovers_of_torn (h1 : 1 ≤ k) (h3 : k ≤ 3) :
    ∃ (H : History sampleCrates) (d : Directory) (log : Log) (wire : Bytes) (hash : Hash),
      Represents d samplePath default H ∧ log.Agrees samplePath default H ∧
      encodeEntry sampleCrates ⟨log.sequence, 0, sampleKind⟩ log.prevHash log.chainKey =
        .ok (wire, hash) ∧
      ((d.lookup samplePath).getD []).length + wire.length ≤ maxFileLen ∧
      ¬ Recovers sampleCrates samplePath default H
        ((FsOp.write log.path (wire.take k)).apply d) := by
  obtain ⟨offset, hout⟩ := tearOutcome_corrupted h1 h3
  obtain ⟨w, hw, hout⟩ := Option.bind_eq_some_iff.mp hout
  have hsmall : (sampleWorld 1000 1).map (fun w => (w.rotations,
      ((w.dir.lookup samplePath).getD []).length)) = some (0, 112) := by decide +kernel
  rw [hw, Option.map_some, Option.some.injEq, Prod.mk.injEq] at hsmall
  simp only [tearOutcome, Option.bind_eq_bind, Option.bind_eq_some_iff, toOption_eq_some,
    Option.pure_def, Option.some.injEq, Prod.mk.injEq] at hout
  obtain ⟨log, hlog, ⟨wire, hash⟩, henc, log', hopen, w', hrun, hverify, hcount, hrot⟩ := hout
  obtain ⟨H, hH⟩ := sampleWorld_tracks hw (by rw [hsmall.1]; decide)
  have hfit : ((w.dir.lookup samplePath).getD []).length + wire.length ≤ maxFileLen := by
    obtain ⟨cbor, -, hlen, -, hframe⟩ := encodeEntry_eq_ok henc
    rw [hsmall.2, hframe, length_frame]
    simp only [maxEntryBytes] at hlen
    simp only [maxFileLen]
    omega
  refine ⟨H, w.dir, log, wire, hash, hH.represents, hH.handle log hlog, henc, hfit, fun hrec => ?_⟩
  have hbound : H.rotated.length + w'.rotations ≤ maxU32 := by
    rw [hH.rotations, hsmall.1, hrot]; decide
  obtain ⟨hv, -⟩ := hrec _ _ _ log' (Prod.ext rfl hopen) _ w' hrun hbound
  -- two entries were acknowledged, so an intact file would verify as two
  rw [hverify, hcount] at hv
  exact absurd hv (by simp)

/-- **Crash during an append**: for a crash that leaves `k` bytes of the entry and the
old or the refreshed seal, every log recovers unless `k` is 1, 2 or 3 and the seal is
the old one. -/
theorem append_crash_recovers_iff (k : Nat) (refreshed : Bool) :
    (∀ (E : Crates) (path : FileName) (key : ChainKey) (H : History E) (d d' : Directory)
      (log : Log) (kind : LogEntryKind) (now : Int) (wire : Bytes) (hash : Hash),
      Represents d path key H → log.Agrees path key H →
      encodeEntry E ⟨log.sequence, now, kind⟩ log.prevHash log.chainKey = .ok (wire, hash) →
      ((d.lookup path).getD []).length + wire.length ≤ maxFileLen →
      AppendCrash E d log wire hash k refreshed d' → Recovers E path key H d') ↔
    ¬ (refreshed = false ∧ 1 ≤ k ∧ k ≤ 3) := by
  constructor
  · rintro hall ⟨rfl, h1, h3⟩
    obtain ⟨H, d, log, wire, hash, hrep, hagrees, henc, hfit, hnot⟩ := not_recovers_of_torn h1 h3
    exact hnot (hall sampleCrates samplePath default H d _ log sampleKind 0 wire hash hrep hagrees
      henc hfit (appendCrash_write d log wire hash k))
  · intro hk E path key H d d' log kind now wire hash h hlog henc hfit hc
    obtain ⟨r, hseq, hhash, hwire, hfit'⟩ := h.toStored.exists_record hlog henc hfit
    exact hc.recovers h hlog r hseq hhash hwire hfit' hk

/-- One byte of the second entry is left; reopening succeeds, the append after it is
acknowledged, and the file is corrupted behind the first entry. -/
theorem tear_of_one_byte :
    (sampleWorld 1000 1).bind (tearOutcome 1) =
      some (.ok ⟨1, .corrupted 116⟩, 2, 0) := by decide +kernel

end Akroasis.TamperLog
