import Akroasis.Machine
import Akroasis.TamperLog.Binding
import Akroasis.TamperLog.Runs

/-!
# Akroasis.TamperLog.Provenance

Which installation wrote a log (`verify_tip_provenance`, `check_tip`): the signature over
the terminal hash that a handle opened with `open_signed` leaves in every seal.

Only the live file and its seal matter, so the invariant is about these two: `Signed` says
that the file holds whole frames and that the seal carries their number and the signature
over the hash they end at.  It survives every operation, rotations of any number among
them, and `Signed.verifyTipProvenance` reads the answer off: `Verified`, except for a file
without entries, for which the chain status is `Empty` and the answer `NoSeal`.
-/

namespace Akroasis.TamperLog

/-! ## Checking a tip -/

/-- Verifies tip signatures on behalf of an installation. -/
structure TipVerifier where
  keyId : FixedBytes 8
  verifyTip : Bytes → FixedBytes 64 → Bool

/-- Outcome of checking a log's tip signature. -/
inductive TipStatus where
  | noSeal
  | unsigned
  | foreignInstallation
  | signatureInvalid
  | staleTip (signed actual : Hash)
  | verified
  deriving DecidableEq

/-- `check_tip`. -/
def checkTip (sealed : SealState) (verifier : TipVerifier) (terminalHash : Hash) : TipStatus :=
  match sealed with
  | .absent | .invalid => .noSeal
  | .valid _ _ none => .unsigned
  | .valid _ _ (some tip) =>
      if tip.keyId ≠ verifier.keyId then .foreignInstallation
      else if !verifier.verifyTip (tipPayload tip.terminalHash) tip.signature then .signatureInvalid
      else if tip.terminalHash ≠ terminalHash then .staleTip tip.terminalHash terminalHash
      else .verified

section

variable (E : Crates)

/-- `stream_terminal_hash`. -/
def streamTerminalHash (d : Directory) (path : FileName) (key : ChainKey) (sealed : SealState) :
    Except TamperLogError Hash :=
  (streamVerify E d path key (resolveStartHash E sealed key)).map StreamResult.terminalHash

/-- `verify_tip_provenance`. -/
def verifyTipProvenance (d : Directory) (path : FileName) (key : ChainKey)
    (verifier : TipVerifier) :
    Except TamperLogError TipStatus :=
  match verifyChain E d path key with
  | .error e => .error e
  | .ok result =>
      match result.status with
      | .intact | .unsealed _ _ =>
          let sealed := readSeal E d path key
          match streamTerminalHash E d path key sealed with
          | .error e => .error e
          | .ok terminal => .ok (checkTip sealed verifier terminal)
      | .empty | .broken _ _ _ | .corrupted _ | .truncated _ => .ok .noSeal

end

/-- The verifier accepts what the signer signs. -/
structure Matches (verifier : TipVerifier) (signer : TipSigner) : Prop where
  keyId : verifier.keyId = signer.keyId
  accepts : ∀ payload, verifier.verifyTip payload (signer.signTip payload) = true

/-- What `refresh_seal` records for a signer at a tip. -/
def TipSigner.provenance (signer : TipSigner) (tip : Hash) : TipProvenance :=
  ⟨signer.keyId, tip, signer.signTip (tipPayload tip)⟩

variable {E : Crates} {path : FileName} {key : ChainKey} {signer : TipSigner}
  {verifier : TipVerifier}
  {config : TamperLogConfig}

theorem checkTip_provenance (h : Matches verifier signer) (count : Nat) (start tip : Hash) :
    checkTip (.valid count start (some (signer.provenance tip))) verifier tip = .verified := by
  simp [checkTip, TipSigner.provenance, h.keyId, h.accepts]

/-- What a tip that is reported as verified has passed. -/
theorem checkTip_eq_verified {sealed : SealState} {terminal : Hash}
    (h : checkTip sealed verifier terminal = .verified) :
    ∃ count start tip, sealed = .valid count start (some tip) ∧
      verifier.verifyTip (tipPayload terminal) tip.signature = true := by
  unfold checkTip at h
  split at h
  · simp at h
  · simp at h
  · simp at h
  · next count start tip =>
      refine ⟨count, start, tip, rfl, ?_⟩
      split at h
      · simp at h
      · split at h
        · simp at h
        · next hsig =>
            split at h
            · simp at h
            · next hstale =>
                rw [← not_not.mp hstale]
                simpa using hsig

/-- `Verified` is reported of no files but those whose seal carries a valid signature over
the hash the stream reaches. -/
theorem verifyTipProvenance_sound {d : Directory}
    (h : verifyTipProvenance E d path key verifier = .ok .verified) :
    ∃ count start tip s, readSeal E d path key = .valid count start (some tip) ∧
      streamVerify E d path key start = .ok s ∧ s.breakStatus = none ∧
      verifier.verifyTip (tipPayload s.terminalHash) tip.signature = true := by
  cases hfile : d.lookup path with
  | none => simp [verifyTipProvenance, verifyChain, streamVerify, hfile] at h
  | some bs =>
      set start := resolveStartHash E (readSeal E d path key) key with hstart
      have hstream : streamVerify E d path key start = .ok (stream E key start 0 0 bs) := by
        rw [streamVerify, hfile]
      have hterminal : streamTerminalHash E d path key (readSeal E d path key) =
          .ok (stream E key start 0 0 bs).terminalHash := by
        rw [streamTerminalHash, ← hstart, hstream]
        rfl
      simp only [verifyTipProvenance, verifyChain, ← hstart, hstream, hterminal] at h
      cases hbreak : (stream E key start 0 0 bs).breakStatus with
      | some status =>
          -- a broken chain is never looked at further
          have hbad := segmentOk_of_break hbreak true
          rw [hbreak, Option.getD_some] at h
          cases status <;> simp [segmentOk] at hbad h
      | none =>
          rw [hbreak, Option.getD_none] at h
          have hchecked : checkTip (readSeal E d path key) verifier
              (stream E key start 0 0 bs).terminalHash = .verified := by
            split at h <;> first | exact Except.ok.inj h | cases h
          obtain ⟨count, start', tip, hseal, hsig⟩ := checkTip_eq_verified hchecked
          have heq : start = start' := by rw [hstart, hseal, resolveStartHash]
          exact ⟨count, start, tip, _, by rw [hseal, heq], hstream, hbreak, hsig⟩

/-! ## The live file of a signed log -/

section

variable (E : Crates) (path : FileName) (key : ChainKey) (signer : TipSigner)

/-- The live file holds `payloads` in whole frames chained from `start` and a few stray bytes, and
its seal says so over the signature of `signer`. -/
structure Signed (d : Directory) (start : Hash) (payloads : List Bytes) (tail : Bytes) : Prop where
  contents : file d path .live = some (encodeFrames E key start payloads ++ tail)
  stray : tail.length < 4
  sealed : file d path .liveSeal = some (sealBytes E key payloads.length start
    (some (signer.provenance (chainEnd E key start payloads))))
  fits : ∀ p ∈ payloads, p.length ≤ maxEntryBytes
  length_le : (encodeFrames E key start payloads ++ tail).length ≤ maxFileLen

/-- The handle continues the chain of the live file and signs what it seals. -/
structure Log.Continues (log : Log) (start : Hash) (payloads : List Bytes) : Prop
    extends log.At E path key start payloads where
  signer_eq : log.signer = some signer

/-- The directory holds a signed live file, and an open handle continues it. -/
def SignedWorld (tail : Bytes) (w : World) : Prop :=
  ∃ start payloads, Signed E path key signer w.dir start payloads tail ∧
    ∀ log, w.handle = some log → log.Continues E path key signer start payloads

end

variable {d : Directory} {log : Log} {start : Hash} {payloads : List Bytes} {tail : Bytes}

theorem Log.Continues.provenance_eq (h : log.Continues E path key signer start payloads) :
    log.provenance = some (signer.provenance (chainEnd E key start payloads)) := by
  simp [Log.provenance, h.signer_eq, h.prevHash_eq, TipSigner.provenance]

namespace Signed

theorem frames_le (h : Signed E path key signer d start payloads tail) :
    (encodeFrames E key start payloads).length ≤ maxFileLen := by
  have hle := h.length_le
  rw [List.length_append] at hle
  omega

theorem count_lt (h : Signed E path key signer d start payloads tail) : payloads.length < 2 ^ 64 :=
  Nat.lt_of_succ_lt (count_lt_of_fits h.frames_le)

theorem readSeal (h : Signed E path key signer d start payloads tail) :
    readSeal E d path key = .valid payloads.length start
      (some (signer.provenance (chainEnd E key start payloads))) := by
  have hseal : d.lookup (sealPath path) = _ := h.sealed
  rw [TamperLog.readSeal, hseal]
  exact readSealBytes_sealBytes E key start _ h.count_lt

theorem lookup_eq (h : Signed E path key signer d start payloads tail) :
    d.lookup path = some (encodeFrames E key start payloads ++ tail) := h.contents

/-- The live file holds an entry exactly if it is longer than what is stray. -/
theorem four_le_iff (h : Signed E path key signer d start payloads tail) :
    4 ≤ ((d.lookup path).getD []).length ↔ payloads ≠ [] := by
  have hstray := h.stray
  rw [h.lookup_eq, Option.getD_some, List.length_append]
  cases payloads with
  | nil => simpa [encodeFrames] using hstray
  | cons p ps =>
      simp [encodeFrames, frame]
      omega

/-- **Provenance of a signed file**: verified as soon as there is an entry. -/
theorem verifyTipProvenance (h : Signed E path key signer d start payloads tail)
    (hmatch : Matches verifier signer) :
    verifyTipProvenance E d path key verifier =
      .ok (if payloads = [] then .noSeal else .verified) := by
  have hstart : resolveStartHash E (TamperLog.readSeal E d path key) key = start := by
    rw [h.readSeal, resolveStartHash]
  have hverify := verifyChain_of_frames h.lookup_eq h.stray h.fits hstart
  have hstream : streamVerify E d path key start =
      .ok ⟨payloads.length, chainEnd E key start payloads, none⟩ := by
    rw [streamVerify, h.lookup_eq]
    simp only [stream_intact start h.stray h.fits]
  have hterminal : streamTerminalHash E d path key (TamperLog.readSeal E d path key) =
      .ok (chainEnd E key start payloads) := by
    rw [streamTerminalHash, hstart, hstream]
    rfl
  rw [h.readSeal, classifyTerminal_exact] at hverify
  simp only [TamperLog.verifyTipProvenance, hverify, hterminal]
  by_cases hnil : payloads = []
  · simp [hnil]
  · simp [hnil, h.readSeal, checkTip_provenance hmatch]

/-- Steps that leave the live file and its seal alone. -/
theorem congr {d' : Directory} (h : Signed E path key signer d start payloads tail)
    (hlive : file d' path .live = file d path .live)
    (hseal : file d' path .liveSeal = file d path .liveSeal) :
    Signed E path key signer d' start payloads tail :=
  ⟨hlive.trans h.contents, h.stray, hseal.trans h.sealed, h.fits, h.length_le⟩

/-- Appending one entry, with nothing stray before it, signs the tip it leads to. -/
theorem commit (h : Signed E path key signer d start payloads [])
    (hlog : log.Continues E path key signer start payloads) {payload wire : Bytes} {hash : Hash}
    (hlen : payload.length ≤ maxEntryBytes)
    (hhash : hash = linkHash E log.chainKey payload log.prevHash)
    (hwire : wire = frame payload hash)
    (hfit : (encodeFrames E key start payloads).length + wire.length ≤ maxFileLen) :
    Signed E path key signer (FsOp.applyAll d (commitEntry E log wire hash)) start
        (payloads ++ [payload]) [] ∧
      (log.advanced wire hash).Continues E path key signer start (payloads ++ [payload]) := by
  have hframes := hlog.encodeFrames_snoc hhash hwire
  have hnext : (log.advanced wire hash).Continues E path key signer start (payloads ++ [payload]) :=
    ⟨hlog.advanced hhash hwire, hlog.signer_eq⟩
  have hfiles := file_commitEntry (E := E) d log wire hash
  rw [hlog.path_eq] at hfiles
  refine ⟨⟨?_, by simp, ?_, ?_, ?_⟩, hnext⟩
  · rw [hfiles, h.contents, hframes]
    simp
  · rw [hfiles, if_pos rfl, hnext.provenance_eq, hlog.key_eq, hlog.sequence_eq, hlog.start_eq,
      List.length_append, List.length_singleton]
  · intro p hp
    rcases List.mem_append.mp hp with hp | hp
    · exact h.fits p hp
    · rw [List.mem_singleton.mp hp]
      exact hlen
  · rw [List.append_nil, hframes, List.length_append]
    exact hfit

/-- A rotation starts an empty file at the tip, signed again. -/
theorem rotate (h : Signed E path key signer d start payloads tail)
    (hlog : log.Continues E path key signer start payloads) :
    Signed E path key signer (FsOp.applyAll d (TamperLog.rotate E d log))
        (chainEnd E key start payloads) [] [] ∧
      log.rotated.Continues E path key signer (chainEnd E key start payloads) [] := by
  have hnext : log.rotated.Continues E path key signer (chainEnd E key start payloads) [] :=
    ⟨hlog.toAt.rotated, hlog.signer_eq⟩
  have hlive : file d log.path .live = _ := hlog.path_eq ▸ h.contents
  have hseal : file d log.path .liveSeal = _ := hlog.path_eq ▸ h.sealed
  have hfiles := file_rotate (E := E) log hlive hseal
  rw [hlog.path_eq] at hfiles
  refine ⟨⟨?_, by simp, ?_, by simp, by simp [encodeFrames]⟩, hnext⟩
  · rw [hfiles]
    simp [encodeFrames]
  · rw [hfiles]
    simp [hnext.provenance_eq, hlog.key_eq, hlog.prevHash_eq]

/-- Opening a file signs its tip. -/
theorem openSteps
    (hcontents : (file d path .live).getD [] = encodeFrames E key start payloads ++ tail)
    (hstray : tail.length < 4) (hfits : ∀ p ∈ payloads, p.length ≤ maxEntryBytes)
    (hle : (encodeFrames E key start payloads ++ tail).length ≤ maxFileLen)
    (hlog : log.Continues E path key signer start payloads) :
    Signed E path key signer (FsOp.applyAll d (TamperLog.openSteps E log)) start payloads tail := by
  have hfiles := file_openSteps (E := E) d log
  rw [hlog.path_eq] at hfiles
  refine ⟨?_, hstray, ?_, hfits, hle⟩
  · rw [hfiles]
    simp [hcontents]
  · rw [hfiles, if_pos rfl, hlog.provenance_eq, hlog.key_eq, hlog.sequence_eq, hlog.start_eq]

/-- A signed file can be opened again, and is signed again. -/
theorem reopen (h : Signed E path key signer d start payloads tail) (config : TamperLogConfig) :
    ∃ log, openInner E d false path key config (some signer) =
      (TamperLog.openSteps E log, .ok log) ∧
      log.Continues E path key signer start payloads ∧
      Signed E path key signer (FsOp.applyAll d (TamperLog.openSteps E log)) start
        payloads tail := by
  have hstart : resolveStartHash E (TamperLog.readSeal E d path key) key = start := by
    rw [h.readSeal, resolveStartHash]
  have hverify := verifyChain_of_frames h.lookup_eq h.stray h.fits hstart
  have hpre : preflight E d path key = .ok () := by
    simp only [preflight, h.lookup_eq, hverify, h.readSeal,
      resumable_classifyTerminal (Nat.le_refl _), if_true]
  have hopen : openStart E d path key = start := by
    simp only [openStart, h.lookup_eq, hstart]
  obtain ⟨log, heq, hlog⟩ := openInner_of_preflight hpre hopen
    (recoverState_eq h.lookup_eq h.stray h.fits) config (some signer)
  have hcontinues : log.Continues E path key signer start payloads := by
    rw [hlog]
    exact ⟨⟨rfl, rfl, rfl, rfl, rfl, rfl⟩, rfl⟩
  have hcontents : (file d path .live).getD [] = encodeFrames E key start payloads ++ tail := by
    rw [h.contents, Option.getD_some]
  exact ⟨log, heq, hcontinues, openSteps hcontents h.stray h.fits h.length_le hcontinues⟩

end Signed

/-! ## Runs of a signed log -/

/-- Every handle is opened with the same signer. -/
def LogOp.SignedBy (signer : TipSigner) : LogOp → Prop
  | .openLog _ s => s = some signer
  | .append _ _ | .flush | .withMaxFileBytes _ | .dropLog => True

/-- An append finds no stray bytes: the live file is as long as its handle has counted. -/
def LogOp.Tidy (path : FileName) (w : World) : LogOp → Prop
  | .append _ _ => ∀ log, w.handle = some log →
      ((w.dir.lookup path).getD []).length = log.bytesWritten
  | _ => True

variable {w w' : World}

namespace SignedWorld

theorem openLog (h : SignedWorld E path key signer tail w) {config : TamperLogConfig}
    (hstep : completed E path key w (.openLog config (some signer)) = some w') :
    SignedWorld E path key signer tail w' := by
  obtain ⟨start, payloads, hsigned, hhandle⟩ := h
  cases hw : w.handle with
  | some log =>
      obtain rfl := completed_openLog_locked hw hstep
      have hfiles : ∀ f, f ≠ .lock →
          file (FsOp.applyAll w.dir [.openAppend (lockPath path)]) path f = file w.dir path f := by
        intro f hf
        exact (file_openAppend w.dir path f .lock).trans (if_neg hf)
      exact ⟨start, payloads, hsigned.congr (hfiles _ (by simp)) (hfiles _ (by simp)),
        hhandle⟩
  | none =>
      obtain ⟨log, hopen, hcontinues, hnext⟩ := hsigned.reopen config
      obtain rfl := completed_openLog hw hopen hstep
      refine ⟨start, payloads, hnext, fun log' hlog' => ?_⟩
      rw [← Option.some.inj hlog']
      exact hcontinues

theorem append (h : SignedWorld E path key signer tail w) {kind : LogEntryKind} {now : Int}
    (htidy : (LogOp.append kind now).Tidy path w)
    (hstep : completed E path key w (.append kind now) = some w') :
    SignedWorld E path key signer tail w' ∨ SignedWorld E path key signer [] w' := by
  obtain ⟨start, payloads, hsigned, hhandle⟩ := h
  rcases completed_append (fun log hw => (hhandle log hw).path_eq) hstep with
    rfl | ⟨log, payload, wire, hash, hw, -, hlen, hhash, hwire, hfit, rfl⟩
  · exact .inl ⟨start, payloads, hsigned, hhandle⟩
  · have hcounted := htidy log hw
    rw [hsigned.lookup_eq, Option.getD_some, (hhandle log hw).bytes_eq,
      List.length_append] at hcounted
    obtain rfl : tail = [] := List.eq_nil_of_length_eq_zero (by omega)
    rw [hsigned.lookup_eq, List.append_nil, Option.getD_some] at hfit
    obtain ⟨hcommit, hnext⟩ := hsigned.commit (hhandle log hw) hlen hhash hwire hfit
    by_cases hmax : log.maxFileBytes < log.bytesWritten + wire.length
    · rw [if_pos hmax]
      obtain ⟨hrotate, hrotated⟩ := hcommit.rotate hnext
      refine .inr ⟨_, _, hrotate, fun log' hlog' => ?_⟩
      rw [← Option.some.inj hlog']
      exact hrotated
    · rw [if_neg hmax]
      refine .inr ⟨_, _, hcommit, fun log' hlog' => ?_⟩
      rw [← Option.some.inj hlog']
      exact hnext

/-- **Step**: every completed operation that meets the condition leaves a signed live file, with the
same stray bytes or none. -/
theorem step (h : SignedWorld E path key signer tail w) {op : LogOp}
    (hop : op.SignedBy signer) (htidy : op.Tidy path w)
    (hstep : completed E path key w op = some w') :
    SignedWorld E path key signer tail w' ∨ SignedWorld E path key signer [] w' := by
  cases op with
  | openLog config s =>
      obtain rfl : s = some signer := hop
      exact .inl (h.openLog hstep)
  | append kind now => exact h.append htidy hstep
  | flush =>
      obtain rfl := completed_flush hstep
      exact .inl h
  | withMaxFileBytes limit =>
      obtain ⟨start, payloads, hsigned, hhandle⟩ := h
      obtain ⟨log, hw, rfl⟩ := completed_withMaxFileBytes hstep
      have hlog := hhandle log hw
      refine .inl ⟨start, payloads, hsigned, fun log' hlog' => ?_⟩
      rw [← Option.some.inj hlog']
      exact ⟨⟨hlog.path_eq, hlog.key_eq, hlog.prevHash_eq, hlog.start_eq, hlog.sequence_eq,
        hlog.bytes_eq⟩, hlog.signer_eq⟩
  | dropLog =>
      obtain ⟨start, payloads, hsigned, -⟩ := h
      obtain rfl := completed_dropLog hstep
      exact .inl ⟨start, payloads, hsigned, fun log' hlog' => by cases hlog'⟩

end SignedWorld

/-- A file that `open_inner` accepts consists of whole frames and a few stray bytes. -/
theorem frames_of_preflight (hpre : preflight E d path key = .ok ()) :
    ∃ payloads tail,
      (file d path .live).getD [] = encodeFrames E key (openStart E d path key) payloads ++ tail ∧
      tail.length < 4 ∧ (∀ p ∈ payloads, p.length ≤ maxEntryBytes) ∧
      recoverState d path (openStart E d path key) =
        (chainEnd E key (openStart E d path key) payloads, payloads.length,
          (encodeFrames E key (openStart E d path key) payloads).length) := by
  cases hfile : d.lookup path with
  | none =>
      refine ⟨[], [], by simp [file, LogFile.name, hfile, encodeFrames], by simp, by simp, ?_⟩
      simp [recoverState, hfile, encodeFrames]
  | some bs =>
      have hstart : openStart E d path key = resolveStartHash E (readSeal E d path key) key := by
        rw [openStart, hfile]
      rw [hstart]
      have hbreak :
          (stream E key (resolveStartHash E (readSeal E d path key) key) 0 0 bs).breakStatus =
          none := by
        by_contra hne
        obtain ⟨status, hstatus⟩ := Option.ne_none_iff_exists'.mp hne
        have hbad := segmentOk_of_break hstatus true
        simp only [preflight, hfile, verifyChain, streamVerify, hstatus, Option.getD_some] at hpre
        cases status <;> simp [segmentOk, resumable] at hbad hpre
      obtain ⟨payloads, tail, rfl, hstray, hfits, -⟩ := stream_sound hbreak
      refine ⟨payloads, tail, ?_, hstray, hfits, recoverState_eq hfile hstray hfits⟩
      rw [file, LogFile.name, hfile, Option.getD_some]

/-- What an `open` that succeeds did. -/
theorem openInner_eq_ok {s : Option TipSigner} {steps : List FsOp}
    (h : openInner E d false path key config s = (steps, .ok log)) :
    preflight E d path key = .ok () ∧ steps = openSteps E log ∧
      log = { path := path, prevHash := (recoverState d path (openStart E d path key)).1,
              segmentStartHash := openStart E d path key,
              sequence := (recoverState d path (openStart E d path key)).2.1,
              bytesWritten := (recoverState d path (openStart E d path key)).2.2,
              maxFileBytes := config.maxFileBytes, chainKey := key, signer := s } := by
  cases hpre : preflight E d path key with
  | error e => simp [openInner, hpre] at h
  | ok u =>
      obtain ⟨log', hopen, hlog'⟩ := openInner_of_preflight hpre rfl rfl config s
      rw [hopen] at h
      obtain ⟨hsteps, hlog⟩ := Prod.mk.inj h
      obtain rfl := Except.ok.inj hlog
      exact ⟨rfl, hsteps.symm, hlog'⟩

/-- An `open_signed` that succeeds leaves a signed live file. -/
theorem SignedWorld.of_open (hle : ((d.lookup path).getD []).length ≤ maxFileLen)
    {steps : List FsOp}
    (hopen : openInner E d false path key config (some signer) = (steps, .ok log)) :
    ∃ tail, SignedWorld E path key signer tail ⟨FsOp.applyAll d steps, some log, [], 0, 0⟩ := by
  obtain ⟨hpre, rfl, hlog⟩ := openInner_eq_ok hopen
  obtain ⟨payloads, tail, hcontents, hstray, hfits, hrecover⟩ := frames_of_preflight hpre
  have hcontinues : log.Continues E path key signer (openStart E d path key) payloads := by
    rw [hlog, hrecover]
    exact ⟨⟨rfl, rfl, rfl, rfl, rfl, rfl⟩, rfl⟩
  rw [show d.lookup path = file d path .live from rfl, hcontents] at hle
  refine ⟨tail, _, payloads, Signed.openSteps hcontents hstray hfits hle hcontinues,
    fun log' hlog' => ?_⟩
  rw [← Option.some.inj hlog']
  exact hcontinues

/-- **Provenance of a run**: on a handle opened with `open_signed`, after any operations in
which no I/O call fails, every reopen is by the same signer and no append finds stray bytes after
the last entry, the matching verifier reports `Verified` exactly if the live file is longer than
stray bytes can be.  Of any files at all it reports `Verified` only if the seal's signature is valid
over the hash the stream reaches. -/
theorem tip_verified_iff (E : Crates) (path : FileName) (key : ChainKey) (signer : TipSigner)
    (verifier : TipVerifier) (hmatch : Matches verifier signer) {d : Directory}
    (hle : ((d.lookup path).getD []).length ≤ maxFileLen)
    {steps : List FsOp} {log : Log}
    (hopen : openInner E d false path key config (some signer) = (steps, .ok log))
    {ops : List LogOp} (hops : Machine.Meets (completed E path key)
      (fun w op => op.SignedBy signer ∧ op.Tidy path w)
      ⟨FsOp.applyAll d steps, some log, [], 0, 0⟩ ops) {w : World}
    (hrun : run E path key ⟨FsOp.applyAll d steps, some log, [], 0, 0⟩ ops = some w) :
    (verifyTipProvenance E w.dir path key verifier = .ok .verified ↔
      4 ≤ ((w.dir.lookup path).getD []).length) ∧
    ∀ (d' : Directory) (path' : FileName) (key' : ChainKey) (verifier' : TipVerifier),
      verifyTipProvenance E d' path' key' verifier' = .ok .verified →
      ∃ count start tip s, readSeal E d' path' key' = .valid count start (some tip) ∧
        streamVerify E d' path' key' start = .ok s ∧ s.breakStatus = none ∧
        verifier'.verifyTip (tipPayload s.terminalHash) tip.signature = true := by
  refine ⟨?_, fun d' path' key' verifier' h => verifyTipProvenance_sound h⟩
  obtain ⟨tail, hopened⟩ := SignedWorld.of_open hle hopen
  obtain ⟨_, start, payloads, hsigned, -⟩ : ∃ tail, SignedWorld E path key signer tail w :=
    Machine.run_invariant (I := fun w => ∃ tail, SignedWorld E path key signer tail w)
      (fun _ _ _ ⟨_, h⟩ hop hstep => (h.step hop.1 hop.2 hstep).elim (⟨_, ·⟩) (⟨_, ·⟩))
      ⟨tail, hopened⟩ hops hrun
  rw [hsigned.verifyTipProvenance hmatch, hsigned.four_le_iff]
  by_cases hnil : payloads = []
  · simp [hnil]
  · simp [hnil]

/-! ## Two small logs -/

/-- A signature scheme that computes: the signature is the payload's digest. -/
def sampleSigner : TipSigner where
  keyId := default
  signTip payload :=
    ⟨leBytes 64 (payload.foldl (fun acc b => acc * 257 + (b.toNat + 1)) 0), by simp⟩

def sampleVerifier : TipVerifier where
  keyId := default
  verifyTip payload signature := decide (signature = sampleSigner.signTip payload)

theorem sample_matches : Matches sampleVerifier sampleSigner := ⟨rfl, fun _ => decide_eq_true rfl⟩

/-- The handle `open_signed` returns in an empty directory, with a threshold of `limit` bytes. -/
def sampleLog (limit : Nat) : Log where
  path := samplePath
  prevHash := genesisHash sampleCrates default
  segmentStartHash := genesisHash sampleCrates default
  sequence := 0
  bytesWritten := 0
  maxFileBytes := limit
  chainKey := default
  signer := some sampleSigner

theorem openInner_sample (limit : Nat) :
    openInner sampleCrates ∅ false samplePath default ⟨limit⟩ (some sampleSigner) =
      (openSteps sampleCrates (sampleLog limit), .ok (sampleLog limit)) := rfl

/-- The world right after that `open_signed`. -/
def sampleOpened (limit : Nat) : World :=
  ⟨FsOp.applyAll ∅ (openSteps sampleCrates (sampleLog limit)), some (sampleLog limit), [], 0, 0⟩

instance decidableTidy (path : FileName) (w : World) : (op : LogOp) → Decidable (op.Tidy path w)
  | .append _ _ => inferInstanceAs (Decidable (∀ log ∈ w.handle, _ = log.bytesWritten))
  | .openLog _ _ | .flush | .withMaxFileBytes _ | .dropLog => .isTrue trivial

/-- One append below the threshold, and the log is attributed. -/
theorem tip_verified_after_append :
    ∃ w, run sampleCrates samplePath default (sampleOpened 1000) [.append sampleKind 0] = some w ∧
      verifyTipProvenance sampleCrates w.dir samplePath default sampleVerifier = .ok .verified := by
  have hsome : (run sampleCrates samplePath default (sampleOpened 1000) [.append sampleKind 0]).map
      (fun w => decide (4 ≤ ((w.dir.lookup samplePath).getD []).length)) = some true := by
    decide +kernel
  obtain ⟨w, hw, hlong⟩ := Option.map_eq_some_iff.mp hsome
  have htidy : (LogOp.append sampleKind 0).Tidy samplePath (sampleOpened 1000) := by decide +kernel
  have hops : Machine.Meets (completed sampleCrates samplePath default)
      (fun w op => op.SignedBy sampleSigner ∧ op.Tidy samplePath w) (sampleOpened 1000)
      [.append sampleKind 0] := ⟨⟨trivial, htidy⟩, fun _ _ => trivial⟩
  exact ⟨w, hw, (tip_verified_iff sampleCrates samplePath default sampleSigner sampleVerifier
    sample_matches (by simp) (openInner_sample 1000) hops hw).1.mpr (of_decide_eq_true hlong)⟩

/-- A log that was only opened, and one whose single entry was rotated away, are reported as
having no seal, although their seals are valid and signed; and so is one that got its entry after
a stray byte. -/
theorem empty_log_reported_unsealed :
    Matches sampleVerifier sampleSigner ∧
    verifyTipProvenance sampleCrates (sampleOpened 1000).dir samplePath default sampleVerifier =
      .ok .noSeal ∧
    (run sampleCrates samplePath default (sampleOpened 0) [.append sampleKind 0]).map
      (fun w => (w.appended.length, w.rotations,
        verifyTipProvenance sampleCrates w.dir samplePath default sampleVerifier)) =
      some (1, 1, .ok .noSeal) ∧
    (run sampleCrates samplePath default ⟨AList.singleton samplePath [1], none, [], 0, 0⟩
      [.openLog ⟨1000⟩ (some sampleSigner), .append sampleKind 0]).map (fun w =>
        (w.appended.length,
          verifyTipProvenance sampleCrates w.dir samplePath default sampleVerifier)) =
      some (1, .ok .noSeal) := by
  refine ⟨sample_matches, ?_, ?_, ?_⟩
  · decide +kernel
  · decide +kernel
  · decide +kernel

end Akroasis.TamperLog
