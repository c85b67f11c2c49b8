import Akroasis.Chirp.Fields
import Akroasis.Results

/-!
# Akroasis.Chirp.Syntonia

CHIRP files as `syntonia` writes and reads them (`syntonia::csv_formula`, `export::csv` and
`import::csv`), over any CSV library.

A reader of untrusted rows, it warns and goes on: a row without a usable frequency is
skipped, every other cell that does not parse has a default.  What a function pushes onto the
list of warnings is the second component of its result.  Only ASCII letters matter in the
lower-case text of a power level.
-/

namespace Akroasis.Chirp

open Csv Decimal Radio

/-! ## Formula markers -/

/-- Characters that begin a formula in a spreadsheet. -/
def formulaLeaders : List Char := ['=', '+', '-', '@', '\t', '\r']

/-- The apostrophe, which makes a cell text. -/
def guardChar : Char := Char.ofNat 0x27

def needsGuard (first : Char) : Bool := first == guardChar || formulaLeaders.contains first

def neutralize : Text → Text
  | first :: rest => if needsGuard first then guardChar :: first :: rest else first :: rest
  | [] => []

def restore : Text → Text
  | c :: first :: rest =>
      if c = guardChar ∧ needsGuard first = true then first :: rest else c :: first :: rest
  | value => value

/-- `restore` undoes `neutralize`. -/
theorem restore_neutralize (value : Text) : restore (neutralize value) = value := by
  cases value with
  | nil => rfl
  | cons first rest =>
      cases hfirst : needsGuard first with
      | true => simp [neutralize, restore, hfirst]
      | false =>
          have hguard : first ≠ guardChar := by
            rintro rfl
            simp [needsGuard] at hfirst
          cases rest <;> simp [neutralize, restore, hfirst, hguard]

/-- No neutralized cell begins a formula. -/
theorem head?_neutralize (value : Text) : ∀ c ∈ (neutralize value).head?, c ∉ formulaLeaders := by
  cases value with
  | nil => simp [neutralize]
  | cons first rest =>
      cases hfirst : needsGuard first with
      | true => simp [neutralize, hfirst, guardChar, formulaLeaders]
      | false =>
          have hleader : first ∉ formulaLeaders := by
            simp only [needsGuard, Bool.or_eq_false_iff] at hfirst
            simpa using hfirst.2
          simpa [neutralize, hfirst] using hleader

namespace Syntonia

/-! ## Writing -/

/-- Errors of the export; the output is kept in memory, where writing does not fail. -/
inductive CsvExportError
  | csvWrite (source : Csv.Error)
  deriving DecidableEq

/-- The columns of the file. -/
def header : List Text :=
  ["Location".toList, "Name".toList, "Frequency".toList, "Duplex".toList, "Offset".toList,
    "Tone".toList, "rToneFreq".toList, "cToneFreq".toList, "DtcsCode".toList, "DtcsPolarity".toList,
    "Mode".toList, "TStep".toList, "Skip".toList, "Power".toList, "Comment".toList, "URCALL".toList,
    "RPT1CALL".toList, "RPT2CALL".toList, "DVCODE".toList]

/-- The duplex and the offset cell. -/
def duplexFields (ch : Channel) : Text × Text :=
  match ch.offset with
  | .none => (if ch.txFreq = none then "off".toList else [], "0.000000".toList)
  | .plus off => ("+".toList, mhzText off)
  | .minus off => ("-".toList, mhzText off)
  | .split tx => ("split".toList, mhzText tx)

def channelToRecord (ch : Channel) : List Text :=
  let tone := toneFields "RN".toList ch.tone
  [Nat.toDigits 10 ch.index, neutralize ch.name, mhzText ch.rxFreq, (duplexFields ch).1,
    (duplexFields ch).2, tone.mode, tone.rTone, tone.cTone, tone.dtcsCode, tone.dtcsPolarity,
    modeText ch.bandwidth, "5.00".toList, skipText ch.scan, powerText ch.power, [], [], [], [], []]

def exportChirpCsv (csv : Library) (plan : FrequencyPlan) : Except CsvExportError Text :=
  (csv.write (header :: plan.channels.map channelToRecord)).mapError .csvWrite

/-! ## Reading -/

inductive ImportWarning
  | unsupportedField (row : Nat) (field value : Text)
  | invalidFrequency (row : Nat) (freq : Text)
  | invalidOffset (row : Nat) (offset : Text)
  | invalidLocation (row : Nat) (value : Text)
  | unknownToneMode (row : Nat) (mode : Text)
  | unknownPowerLevel (row : Nat) (level : Text)
  | skippedEmptyRow (row : Nat)
  deriving DecidableEq

inductive CsvImportError
  | csvParse (source : Csv.Error)
  deriving DecidableEq

/-- A cell, or a default for a row that ends before it, without white space around it. -/
def colOr (default : Text) (record : List Text) (idx : Nat) : Text := trim (record.getD idx default)

def col (record : List Text) (idx : Nat) : Text := colOr [] record idx

/-- The largest frequency and offset in megahertz: 10 GHz. -/
def maxFreqMhz : ℚ := 10000

def mhzToHz (mhz : FloatValue) : Frequency := (mhz.scale 1000000).asU64

def parseLocation (location : Text) (row : Nat) : Nat × List ImportWarning :=
  match parseU16 location with
  | some index => (index, [])
  | none => (0, [.invalidLocation row location])

def parseOffsetHz (offset : Text) (row : Nat) : Frequency × List ImportWarning :=
  if offset = [] then (0, [])
  else
    match parseFloat offset with
    | some value =>
        if value.abs.atMost maxFreqMhz then (mhzToHz value.abs, [])
          else (0, [.invalidOffset row offset])
    | none => (0, [.invalidOffset row offset])

/-- `u64::saturating_add`. -/
def saturatingAdd (a b : Nat) : Nat := min (2 ^ 64 - 1) (a + b)

def parseDuplex (duplex : Text) (rxFreq offsetHz : Frequency) :
    Option Frequency × FrequencyOffset :=
  if duplex = "+".toList then (some (saturatingAdd rxFreq offsetHz), .plus offsetHz)
  else if duplex = "-".toList then (some (rxFreq - offsetHz), .minus offsetHz)
  else if duplex = "split".toList then (some offsetHz, .split offsetHz)
  else if duplex = "off".toList then (none, .none)
  else (some rxFreq, .none)

def parseCtcss (freq label : Text) (row : Nat) : ToneMode × List ImportWarning :=
  match ctcssOfFloat ((parseFloat freq).getD (.finite 0)) with
  | some tone => (.ctcss tone, [])
  | none => (.none, [.unknownToneMode row (label ++ " with invalid freq ".toList ++ freq)])

def parseDcsPolarity (pol : Text) : DcsPolarity :=
  if pol.head? = some 'R' then .inverted else .normal

def parseTone (mode rtone ctone dtcsCode dtcsPol : Text) (row : Nat) :
    ToneMode × List ImportWarning :=
  if mode = [] ∨ mode = "none".toList then (.none, [])
  else if mode = "Tone".toList then parseCtcss rtone "Tone".toList row
  else if mode = "TSQL".toList then parseCtcss ctone "TSQL".toList row
  else if mode = "DTCS".toList then
    match DcsCode.new ((parseU16 dtcsCode).getD 0) with
    | some code => (.dcs code (parseDcsPolarity dtcsPol), [])
    | none => (.none, [.unknownToneMode row ("DTCS with invalid code ".toList ++ dtcsCode)])
  else (.none, [.unknownToneMode row mode])

def parseBandwidth (mode : Text) (row : Nat) : Bandwidth × List ImportWarning :=
  if mode = "NFM".toList then (.narrow, [])
  else if mode = "FM".toList then (.wide, [])
  else (.wide, [.unsupportedField row "Mode".toList mode])

def parsePower (power : Text) (row : Nat) : PowerLevel × List ImportWarning :=
  let lower := power.map Char.toLower
  if lower = "high".toList then (.high, [])
  else if lower = "mid".toList ∨ lower = "medium".toList then (.mid, [])
  else if lower = "low".toList then (.low, [])
  else
    match parseFloat (lower.rdropWhile (· == 'w')) with
    | some watts => (if watts.atLeast 4 then .high else if watts.atLeast 2 then .mid else .low, [])
    | none => (.high, [.unknownPowerLevel row power])

/-- The D-STAR columns. -/
def dstarColumns : List (Nat × Text) :=
  [(15, "URCALL".toList), (16, "RPT1CALL".toList), (17, "RPT2CALL".toList), (18, "DVCODE".toList)]

/-- A warning for every D-STAR column that is used. -/
def dstarWarnings (record : List Text) (row : Nat) : List ImportWarning :=
  dstarColumns.flatMap fun column =>
    if col record column.1 = [] then [] else [.unsupportedField row column.2 (col record column.1)]

/-- A row whose frequency has been read. -/
def parseChannel (record : List Text) (row : Nat) (freqMhz : FloatValue) :
    Channel × List ImportWarning :=
  let rxFreq := mhzToHz freqMhz
  let location := parseLocation (col record 0) row
  let offsetHz := parseOffsetHz (col record 4) row
  let duplex := parseDuplex (col record 3) rxFreq offsetHz.1
  let tone := parseTone (col record 5) (colOr "88.5".toList record 6) (colOr "88.5".toList record 7)
    (colOr "023".toList record 8) (colOr "NN".toList record 9) row
  let bandwidth := parseBandwidth (colOr "FM".toList record 10) row
  let scan := if colOr [] record 12 = "S".toList then ScanMode.skip else .included
  let power := parsePower (colOr "High".toList record 13) row
  ({ index := location.1
     name := restore (col record 1)
     rxFreq := rxFreq
     txFreq := duplex.1
     offset := duplex.2
     tone := tone.1
     power := power.1
     bandwidth := bandwidth.1
     scan := scan
     busyLock := false },
    location.2 ++ offsetHz.2 ++ tone.2 ++ bandwidth.2 ++ power.2 ++ dstarWarnings record row)

def parseRecord (record : List Text) (row : Nat) : Option Channel × List ImportWarning :=
  let freq := col record 2
  if freq = [] ∨ freq = "0.000000".toList then (none, [.skippedEmptyRow row])
  else
    match parseFloat freq with
    | some value =>
        if value.above 0 ∧ value.atMost maxFreqMhz then
          ((parseChannel record row value).1, (parseChannel record row value).2)
        else (none, [.invalidFrequency row freq])
    | none => (none, [.invalidFrequency row freq])

/-- The loop over the records, from the given row on. -/
def importRecords : Nat → List (Except Csv.Error Record) →
    Except CsvImportError (List Channel × List ImportWarning)
  | _, [] => .ok ([], [])
  | row, result :: results => do
      let record ← result.mapError .csvParse
      let (channels, warnings) ← importRecords (row + 1) results
      let (channel, first) := parseRecord record.fields row
      .ok (channel.toList ++ channels, first ++ warnings)

/-- The reader that `import_chirp_csv_reader` builds. -/
def readerOptions : ReaderOptions := ⟨true, true, false⟩

def importChirpCsvReader (csv : Library) (text : Text) :
    Except CsvImportError (FrequencyPlan × List ImportWarning) := do
  let (channels, warnings) ← importRecords 2 (csv.records readerOptions text)
  .ok (⟨channels⟩, warnings)

/-! ## What is read of the first columns -/

theorem asMhz_le_maxFreqMhz {hz : Nat} : asMhz hz ≤ maxFreqMhz ↔ hz ≤ 10000000000 := by
  rw [asMhz, maxFreqMhz, div_le_iff₀ (by norm_num)]
  norm_cast

theorem asMhz_nonneg (hz : Frequency) : 0 ≤ asMhz hz := by
  rw [asMhz]
  positivity

theorem asMhz_pos {hz : Nat} : 0 < asMhz hz ↔ 0 < hz := by
  rw [asMhz, div_pos_iff_of_pos_right (by norm_num), Nat.cast_pos]

theorem mhzToHz_asMhz (hz : Nat) : mhzToHz (.finite (asMhz hz)) = min (2 ^ 64 - 1) hz := by
  rw [mhzToHz, FloatValue.scale, asMhz_mul, FloatValue.asU64_natCast]

theorem mhzText_ne_nil (hz : Frequency) : mhzText hz ≠ [] := by
  simp [mhzText_eq, fixedPoint]

/-- An offset above 10 GHz is read as 0. -/
theorem parseOffsetHz_mhzText (offset row : Nat) :
    parseOffsetHz (mhzText offset) row =
      if offset ≤ 10000000000 then (offset, [])
        else (0, [.invalidOffset row (mhzText offset)]) := by
  have habs : (FloatValue.finite (asMhz offset)).abs = .finite (asMhz offset) := by
    rw [FloatValue.abs, abs_of_nonneg (asMhz_nonneg offset)]
  rw [parseOffsetHz, if_neg (mhzText_ne_nil offset), parseFloat_mhzText]
  simp only [habs, FloatValue.atMost, decide_eq_true_eq, asMhz_le_maxFreqMhz]
  split
  · next hle =>
      rw [mhzToHz_asMhz, Nat.min_eq_right (by omega)]
  · rfl

theorem parseLocation_toDigits {index : Nat} (h : index < 2 ^ 16) (row : Nat) :
    parseLocation (Nat.toDigits 10 index) row = (index, []) := by
  rw [parseLocation, parseU16_toDigits h]

/-- **The tone that is read of the cells of a tone.** -/
theorem parseTone_toneFields {inverted : Text} (hinverted : inverted.head? = some 'R')
    (tone : ToneMode) (row : Nat) : ∃ warnings,
    parseTone (toneFields inverted tone).mode (toneFields inverted tone).rTone
      (toneFields inverted tone).cTone (toneFields inverted tone).dtcsCode
      (toneFields inverted tone).dtcsPolarity row = (writtenTone tone, warnings) ∧
        (tone.Exact → warnings = []) := by
  cases tone with
  | none => exact ⟨[], by simp [parseTone, toneFields, writtenTone], fun _ => rfl⟩
  | ctcss tone =>
      have hparse : parseTone (toneFields inverted (.ctcss tone)).mode
          (toneFields inverted (.ctcss tone)).rTone (toneFields inverted (.ctcss tone)).cTone
          (toneFields inverted (.ctcss tone)).dtcsCode
            (toneFields inverted (.ctcss tone)).dtcsPolarity row =
            parseCtcss (formatFixed 1 tone.hz) "Tone".toList row := by
        simp [parseTone, toneFields]
      rw [hparse, parseCtcss, parseFloat_formatFixed_one, Option.getD_some, ctcssOfFloat,
        writtenTone]
      cases hnew : CtcssTone.new (roundHalfEven (tone.hz * 10) / 10) with
      | some read => exact ⟨[], rfl, fun _ => rfl⟩
      | none =>
          refine ⟨_, rfl, fun hexact => ?_⟩
          have hwritten := writtenTone_of_exact hexact
          simp [writtenTone, hnew] at hwritten
  | dcs code polarity =>
      refine ⟨[], ?_, fun _ => rfl⟩
      have hcode : DcsCode.new ((parseU16 (padded 3 code.code)).getD 0) = some code := by
        rw [parseU16_padded (DcsCode.code_lt code), Option.getD_some, DcsCode.new_code]
      cases polarity <;>
        simp [parseTone, toneFields, writtenTone, hcode, parseDcsPolarity, hinverted]

theorem mhzText_zero : mhzText 0 = "0.000000".toList := by
  rw [mhzText_eq]
  decide

theorem mhzText_eq_zero {hz : Nat} : mhzText hz = "0.000000".toList ↔ hz = 0 := by
  constructor
  · intro h
    have hparsed := congrArg parseFloat (h.trans mhzText_zero.symm)
    rw [parseFloat_mhzText, parseFloat_mhzText] at hparsed
    have hvalue : asMhz hz = asMhz 0 := FloatValue.finite.inj (Option.some.inj hparsed)
    have hmul := congrArg (· * 1000000) hvalue
    simp only [asMhz_mul] at hmul
    exact_mod_cast hmul
  · rintro rfl
    exact mhzText_zero

section Front

variable {index rxFreq offset row : Nat} {name duplex inverted : Text} {tone : ToneMode}
  {rest : List Text}

/-- A row whose frequency is 0 or above 10 GHz is skipped. -/
theorem parseRecord_of_skipped (cells : ToneFields) (h : rxFreq = 0 ∨ 10000000000 < rxFreq) :
    (parseRecord (frontCells index name rxFreq duplex offset cells ++ rest) row).1 = none := by
  have hfreq : col (frontCells index name rxFreq duplex offset cells ++ rest) 2 = mhzText rxFreq :=
    (isPlain_mhzText rxFreq).trim
  rw [parseRecord, hfreq]
  split
  · rfl
  · next hne =>
      have hlarge : ¬ rxFreq ≤ 10000000000 := by
        rw [mhzText_eq_zero] at hne
        omega
      simp [parseFloat_mhzText, FloatValue.atMost, asMhz_le_maxFreqMhz, hlarge]

/-- The channel that is read of a row; the offset is 0 if it is above 10 GHz. -/
def frontChannel (index : Nat) (name : Text) (rxFreq : Frequency) (duplex : Text)
    (offset : Frequency) (tone : ToneMode) (rest : List Text) (row : Nat) : Channel :=
  let duplex := parseDuplex duplex rxFreq (if offset ≤ 10000000000 then offset else 0)
  { index := index
    name := restore (trim name)
    rxFreq := rxFreq
    txFreq := duplex.1
    offset := duplex.2
    tone := writtenTone tone
    power := (parsePower (colOr "High".toList rest 3) row).1
    bandwidth := (parseBandwidth (colOr "FM".toList rest 0) row).1
    scan := if colOr [] rest 2 = "S".toList then .skip else .included
    busyLock := false }

/-- **What is read of a row** depends on the columns behind the first ten in bandwidth, scan
setting, power and warnings only. -/
theorem parseRecord_frontCells (name : Text) (offset : Nat) (tone : ToneMode) (rest : List Text)
    (row : Nat) (hindex : index < 2 ^ 16) (hpos : 0 < rxFreq) (hmax : rxFreq ≤ 10000000000)
    (hduplex : IsPlain duplex) (hplain : IsPlain inverted)
    (hinverted : inverted.head? = some 'R') :
    ∃ warnings,
      parseRecord (frontCells index name rxFreq duplex offset (toneFields inverted tone) ++ rest)
        row =
        (some (frontChannel index name rxFreq duplex offset tone rest row),
          warnings ++ (parseBandwidth (colOr "FM".toList rest 0) row).2 ++
            (parsePower (colOr "High".toList rest 3) row).2 ++
            dstarWarnings
              (frontCells index name rxFreq duplex offset (toneFields inverted tone) ++ rest) row) ∧
      (offset ≤ 10000000000 → tone.Exact → warnings = []) := by
  obtain ⟨warnings, htone, hexact⟩ := parseTone_toneFields hinverted tone row
  have hcells := plain_toneFields hplain tone
  let record := frontCells index name rxFreq duplex offset (toneFields inverted tone) ++ rest
  have hfreq : col record 2 = mhzText rxFreq := (isPlain_mhzText rxFreq).trim
  have hlocation : parseLocation (col record 0) row = (index, []) := by
    rw [show col record 0 = Nat.toDigits 10 index from (isPlain_toDigits index).trim]
    exact parseLocation_toDigits hindex row
  have hduplexCell : col record 3 = duplex := hduplex.trim
  have hoffset : col record 4 = mhzText offset := (isPlain_mhzText offset).trim
  have htoneCells : parseTone (col record 5) (colOr "88.5".toList record 6)
      (colOr "88.5".toList record 7) (colOr "023".toList record 8)
        (colOr "NN".toList record 9) row =
        (writtenTone tone, warnings) := by
    rw [show col record 5 = _ from hcells.mode.trim,
      show colOr _ record 6 = _ from hcells.rTone.trim,
      show colOr _ record 7 = _ from hcells.cTone.trim,
      show colOr _ record 8 = _ from hcells.dtcsCode.trim,
      show colOr _ record 9 = _ from hcells.dtcsPolarity.trim, htone]
  have hvalid : (FloatValue.finite (asMhz rxFreq)).above 0 = true ∧
      (FloatValue.finite (asMhz rxFreq)).atMost maxFreqMhz = true := by
    simp [FloatValue.above, FloatValue.atMost, asMhz_pos, asMhz_le_maxFreqMhz, hpos, hmax]
  have hne : ¬ (mhzText rxFreq = [] ∨ mhzText rxFreq = "0.000000".toList) := by
    rw [mhzText_eq_zero]
    simp [mhzText_ne_nil, hpos.ne']
  have hrx : mhzToHz (.finite (asMhz rxFreq)) = rxFreq := by
    rw [mhzToHz_asMhz, Nat.min_eq_right (by omega)]
  refine ⟨(parseOffsetHz (mhzText offset) row).2 ++ warnings, ?_, fun hle htoneExact => ?_⟩
  · have hread : (parseOffsetHz (mhzText offset) row).1 = if offset ≤ 10000000000 then offset
      else 0 := by
      rw [parseOffsetHz_mhzText]
      split <;> rfl
    show parseRecord record row = _
    simp only [parseRecord, hfreq, hne, if_false, parseFloat_mhzText, hvalid, and_self, if_true,
      parseChannel, hrx, hlocation, hduplexCell, hoffset, hread, htoneCells]
    simp only [List.nil_append, List.append_assoc]
    rfl
  · rw [parseOffsetHz_mhzText, if_pos hle, hexact htoneExact]
    rfl

end Front

/-! ## Files -/

/-- What is read of rows, from the given row number on. -/
def readRows : Nat → List (List Text) → List Channel × List ImportWarning
  | _, [] => ([], [])
  | row, record :: records =>
      ((parseRecord record row).1.toList ++ (readRows (row + 1) records).1,
        (parseRecord record row).2 ++ (readRows (row + 1) records).2)

theorem importRecords_map_ok (row : Nat) (records : List Record) :
    importRecords row (records.map .ok) = .ok (readRows row (records.map Record.fields)) := by
  induction records generalizing row with
  | nil => rfl
  | cons record records ih =>
      simp only [List.map_cons, importRecords, ih, readRows]
      rfl

/-- **A file is read row by row.** -/
theorem importChirpCsvReader_of_encodes {csv : Library} (hcsv : csv.Lawful) {first : Text}
    {columns : List Text} {rows : List (List Text)} {text : Text}
    (htext : Encodes ((first :: columns) :: rows) text)
    (hfirst : first.head? ≠ some byteOrderMark) :
    importChirpCsvReader csv text = .ok (⟨(readRows 2 rows).1⟩, (readRows 2 rows).2) := by
  have hbom : text.head? ≠ some byteOrderMark := head?_ne_of_encodes htext (by decide) hfirst
  obtain ⟨records, hrecords, hfields⟩ := hcsv.reads readerOptions text _ rfl htext hbom
  have hrows : records.map Record.fields = rows := by
    rw [hfields, ReaderOptions.select, readerOptions]
    simp
  rw [importChirpCsvReader, hrecords, importRecords_map_ok, hrows]
  rfl

/-- What is written encodes the header and one row for each channel. -/
theorem exportChirpCsv_encodes {csv : Library} (hcsv : csv.Lawful) (plan : FrequencyPlan) :
    ∃ text, exportChirpCsv csv plan = .ok text ∧
      Encodes (header :: plan.channels.map channelToRecord) text := by
  have hrows : ∀ fields ∈ header :: plan.channels.map channelToRecord,
      fields ≠ [] ∧ fields.length = header.length := by
    intro fields hmem
    obtain rfl | hmem := List.mem_cons.mp hmem
    · exact ⟨by simp [header], rfl⟩
    · obtain ⟨ch, -, rfl⟩ := List.mem_map.mp hmem
      exact ⟨by simp [channelToRecord], rfl⟩
  obtain ⟨text, hwrite, htext⟩ := hcsv.writes _ hrows
  exact ⟨text, by rw [exportChirpCsv, hwrite]; rfl, htext⟩

/-- The text and the amount of the duplex and the offset cell. -/
def duplexParts (ch : Channel) : Text × Frequency :=
  match ch.offset with
  | .none => (if ch.txFreq = none then "off".toList else [], 0)
  | .plus off => ("+".toList, off)
  | .minus off => ("-".toList, off)
  | .split tx => ("split".toList, tx)

theorem duplexFields_eq (ch : Channel) :
    duplexFields ch = ((duplexParts ch).1, mhzText (duplexParts ch).2) := by
  rw [duplexFields, duplexParts]
  cases ch.offset with
  | none => simp only [mhzText_zero]
  | plus off => rfl
  | minus off => rfl
  | split tx => rfl

theorem isPlain_duplexParts (ch : Channel) : IsPlain (duplexParts ch).1 := by
  have hoff : IsPlain "off".toList := by decide
  have hplus : IsPlain "+".toList := by decide
  have hminus : IsPlain "-".toList := by decide
  have hsplit : IsPlain "split".toList := by decide
  rw [duplexParts]
  cases ch.offset with
  | none =>
      show IsPlain (if ch.txFreq = none then _ else _)
      split
      · exact hoff
      · exact fun c hc => absurd hc List.not_mem_nil
  | plus off => exact hplus
  | minus off => exact hminus
  | split tx => exact hsplit

/-- The cells behind the first ten. -/
def backCells (ch : Channel) : List Text :=
  [modeText ch.bandwidth, "5.00".toList, skipText ch.scan, powerText ch.power, [], [], [], [], []]

theorem channelToRecord_eq (ch : Channel) : channelToRecord ch =
    frontCells ch.index (neutralize ch.name) ch.rxFreq (duplexParts ch).1 (duplexParts ch).2
      (toneFields "RN".toList ch.tone) ++ backCells ch := by
  rw [channelToRecord, duplexFields_eq]
  rfl

end Syntonia

end Akroasis.Chirp
