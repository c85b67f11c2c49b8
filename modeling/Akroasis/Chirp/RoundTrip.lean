import Akroasis.Chirp.Syntonia

/-!
# Akroasis.Chirp.RoundTrip

A plan that `syntonia` has written to a CHIRP file is read back from it.

Every field has a text that its reader takes for the same value, and the name passes through
`neutralize`, the CSV library, `trim` and `restore`.  The transmit frequency is no column of
its own: it is rebuilt from duplex and offset, so that the two have to agree with it.
-/

namespace Akroasis.Chirp.Syntonia

open Csv Decimal Radio

/-- The offset of a channel is at most 10 GHz and says what the transmit frequency is. -/
def OffsetConsistent (ch : Channel) : Prop :=
  match ch.offset with
  | .none => ch.txFreq = some ch.rxFreq ∨ ch.txFreq = none
  | .plus off => off ≤ 10000000000 ∧ ch.txFreq = some (ch.rxFreq + off)
  | .minus off => off ≤ 10000000000 ∧ off ≤ ch.rxFreq ∧ ch.txFreq = some (ch.rxFreq - off)
  | .split tx => tx ≤ 10000000000 ∧ ch.txFreq = some tx

/-- A channel that a CHIRP file can hold. -/
structure Writable (ch : Channel) : Prop where
  index : ch.index < 2 ^ 16
  positive : 0 < ch.rxFreq
  bounded : ch.rxFreq ≤ 10000000000
  offset : OffsetConsistent ch
  tone : ch.tone.Exact
  starts : StartsClean ch.name
  ends : EndsClean ch.name

variable {ch : Channel}

/-! ## Cells -/

/-- The guard in front of a name keeps it as it is when it is trimmed. -/
theorem trim_neutralize {name : Text} (hstarts : StartsClean name) (hends : EndsClean name) :
    trim (neutralize name) = neutralize name := by
  cases name with
  | nil => rfl
  | cons first rest =>
      rw [trim_eq_self, neutralize]
      split
      · refine ⟨?_, ?_⟩
        · rintro c ⟨⟩
          rfl
        · simpa [EndsClean] using hends
      · exact ⟨hstarts, hends⟩

theorem parseBandwidth_modeText (bandwidth : Bandwidth) (row : Nat) :
    parseBandwidth (modeText bandwidth) row = (bandwidth, []) := by
  cases bandwidth <;> simp [parseBandwidth, modeText]

theorem parsePower_powerText (power : PowerLevel) (row : Nat) :
    parsePower (powerText power) row = (power, []) := by
  cases power <;> simp [parsePower, powerText]

theorem scan_of_skipText (scan : ScanMode) :
    (if skipText scan = "S".toList then ScanMode.skip else .included) = scan := by
  cases scan <;> simp [skipText]

theorem dstarWarnings_backCells (cells : ToneFields) (name duplex : Text) (index row : Nat)
    (rxFreq offset : Frequency) :
    dstarWarnings (frontCells index name rxFreq duplex offset cells ++ backCells ch) row = [] := by
  simp [dstarWarnings, dstarColumns, frontCells, backCells, col, colOr, trim, trimStart, trimEnd]

/-- Duplex and offset give the transmit frequency back. -/
theorem parseDuplex_duplexParts (h : OffsetConsistent ch) (hmax : ch.rxFreq ≤ 10000000000) :
    (duplexParts ch).2 ≤ 10000000000 ∧
      parseDuplex (duplexParts ch).1 ch.rxFreq (duplexParts ch).2 = (ch.txFreq, ch.offset) := by
  rw [OffsetConsistent] at h
  rw [duplexParts]
  cases hoffset : ch.offset with
  | none =>
      rw [hoffset] at h
      obtain htx | htx := h
      · simp [htx, parseDuplex]
      · simp [htx, parseDuplex]
  | plus off =>
      rw [hoffset] at h
      obtain ⟨hle, htx⟩ := h
      have hsum : saturatingAdd ch.rxFreq off = ch.rxFreq + off :=
        Nat.min_eq_right ((Nat.add_le_add hmax hle).trans (by decide))
      simp [htx, hle, parseDuplex, hsum]
  | minus off =>
      rw [hoffset] at h
      obtain ⟨hle, -, htx⟩ := h
      simp [htx, hle, parseDuplex]
  | split tx =>
      rw [hoffset] at h
      obtain ⟨hle, htx⟩ := h
      simp [htx, hle, parseDuplex]

/-! ## Rows and files -/

/-- A row is read back without a warning. -/
theorem parseRecord_channelToRecord (h : Writable ch) (row : Nat) :
    parseRecord (channelToRecord ch) row = (some { ch with busyLock := false }, []) := by
  obtain ⟨hle, hduplex⟩ := parseDuplex_duplexParts h.offset h.bounded
  obtain ⟨warnings, hrecord, hwarnings⟩ :=
    parseRecord_frontCells (neutralize ch.name) (duplexParts ch).2
    ch.tone (backCells ch) row h.index h.positive h.bounded (isPlain_duplexParts ch)
    (show IsPlain "RN".toList by decide) rfl
  have hmode : colOr "FM".toList (backCells ch) 0 = modeText ch.bandwidth :=
    (isPlain_modeText ch.bandwidth).trim
  have hpower : colOr "High".toList (backCells ch) 3 = powerText ch.power :=
    (isPlain_powerText ch.power).trim
  have hskip : colOr [] (backCells ch) 2 = skipText ch.scan := (isPlain_skipText ch.scan).trim
  rw [channelToRecord_eq, hrecord, hwarnings hle h.tone, frontChannel, hmode, hpower, hskip,
    parseBandwidth_modeText, parsePower_powerText, scan_of_skipText, dstarWarnings_backCells,
    if_pos hle, hduplex, writtenTone_of_exact h.tone, trim_neutralize h.starts h.ends,
    restore_neutralize]
  rfl

theorem readRows_channelToRecord {channels : List Channel} (h : ∀ ch ∈ channels, Writable ch)
    (row : Nat) :
    readRows row (channels.map channelToRecord) =
      (channels.map fun ch => { ch with busyLock := false }, []) := by
  induction channels generalizing row with
  | nil => rfl
  | cons ch channels ih =>
      obtain ⟨hfirst, hrest⟩ := List.forall_mem_cons.mp h
      simp only [List.map_cons, readRows, parseRecord_channelToRecord hfirst, ih hrest]
      rfl

/-- **Round trip through a CHIRP file**: a plan is read back channel by channel, without a warning
and with the busy lock off. -/
theorem import_export_chirp_csv {csv : Library} (hcsv : csv.Lawful) {plan : FrequencyPlan}
    (h : ∀ ch ∈ plan.channels, Writable ch) :
    ∃ text, exportChirpCsv csv plan = .ok text ∧
      importChirpCsvReader csv text =
        .ok (⟨plan.channels.map fun ch => { ch with busyLock := false }⟩, []) := by
  obtain ⟨text, hexport, htext⟩ := exportChirpCsv_encodes hcsv plan
  refine ⟨text, hexport, ?_⟩
  rw [importChirpCsvReader_of_encodes hcsv htext (by decide), readRows_channelToRecord h]

/-- A channel with a name that is a formula, in quotes and over two lines. -/
def formulaChannel : Channel where
  index := 7
  name := "=\"A\",\nB".toList
  rxFreq := 146520000
  txFreq := some 145920000
  offset := .minus 600000
  tone := .ctcss ⟨885 / 10, by decide +kernel⟩
  power := .mid
  bandwidth := .narrow
  scan := .skip
  busyLock := true

theorem import_export_chirp_csv_formula :
    Writable formulaChannel ∧ ∃ text, exportChirpCsv plain ⟨[formulaChannel]⟩ = .ok text ∧
      importChirpCsvReader plain text =
        .ok (⟨[{ formulaChannel with busyLock := false }]⟩, []) := by
  have hexact : formulaChannel.tone.Exact := exact_ctcss 885 (by decide +kernel)
  have hwritable : Writable formulaChannel :=
    { index := by decide
      positive := by decide
      bounded := by decide
      offset := ⟨by decide, by decide, rfl⟩
      tone := hexact
      starts := by simp [StartsClean, formulaChannel, isWhitespace]
      ends := by simp [EndsClean, formulaChannel, isWhitespace] }
  have hplan : ∀ ch ∈ (⟨[formulaChannel]⟩ : FrequencyPlan).channels, Writable ch := by
    simpa using hwritable
  exact ⟨hwritable, import_export_chirp_csv plain_lawful hplan⟩

end Akroasis.Chirp.Syntonia
