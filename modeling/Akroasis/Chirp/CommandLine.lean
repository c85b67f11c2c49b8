import Akroasis.Chirp.Fields
import Akroasis.Results

/-!
# Akroasis.Chirp.CommandLine

CSV files of the command line (`akroasis::radio::export` and `radio::import`): the native
format and the CHIRP format with 20 columns, and the reader of CHIRP files.

The two writers put their lines together themselves and quote the name where they find it
necessary; the reader is the one of a CSV library.  It stops at the first row that does not
parse, with the line that the library gives for the row.
-/

namespace Akroasis.Chirp.CommandLine

open Csv Decimal Radio

/-! ## Writing -/

def csvEscape (s : Text) : Text :=
  if ',' ∈ s ∨ '"' ∈ s ∨ '\n' ∈ s then quoted s else s

/-- Cells as one line of a file. -/
def csvLine (cells : List Text) : Text := joined cells ++ ['\n']

def formatToneCsv : ToneMode → Text
  | .ctcss tone => formatFixed 1 tone.hz ++ " Hz".toList
  | .dcs code _ => "DCS ".toList ++ padded 3 code.code
  | .none => []

def formatPowerCsv (power : PowerLevel) : Text := powerText power

/-- The columns of the native format. -/
def nativeHeader : List Text :=
  ["Index".toList, "Name".toList, "RX Freq (MHz)".toList, "TX Freq (MHz)".toList, "Tone".toList,
    "Power".toList]

/-- The cells of the native format behind the name. -/
def nativeRest (ch : Channel) : List Text :=
  [mhzText ch.rxFreq, mhzText (ch.txFreq.getD ch.rxFreq), formatToneCsv ch.tone,
    formatPowerCsv ch.power]

/-- The line of a channel in the native format. -/
def nativeLine (ch : Channel) : Text :=
  csvLine (Nat.toDigits 10 ch.index :: csvEscape ch.name :: nativeRest ch)

def exportNativeCsv (plan : FrequencyPlan) : Text :=
  csvLine nativeHeader ++ plan.channels.flatMap nativeLine

/-- `CHIRP_HEADER`. -/
def chirpHeader : List Text :=
  ["Location".toList, "Name".toList, "Frequency".toList, "Duplex".toList, "Offset".toList,
    "Tone".toList, "rToneFreq".toList, "cToneFreq".toList, "DtcsCode".toList, "DtcsPolarity".toList,
    "RxDtcsCode".toList, "Mode".toList, "TStep".toList, "Skip".toList, "Power".toList,
    "Comment".toList, "URCALL".toList, "RPT1CALL".toList, "RPT2CALL".toList, "DVCODE".toList]

/-- The duplex cell and the frequency of the offset cell. -/
def chirpDuplexOffset (ch : Channel) : Text × Frequency :=
  match ch.offset with
  | .plus off => ("+".toList, off)
  | .minus off => ("-".toList, off)
  | .split _ => ("split".toList, ch.txFreq.getD ch.rxFreq)
  | .none => ([], 0)

def chirpToneFields (ch : Channel) : ToneFields := toneFields "RR".toList ch.tone

/-- The cells of the CHIRP format behind the first ten. -/
def chirpTail (ch : Channel) : List Text :=
  [(chirpToneFields ch).dtcsCode, modeText ch.bandwidth, "5.00".toList, skipText ch.scan,
    formatPowerCsv ch.power, [], [], [], [], []]

/-- The cells of the CHIRP format behind the name. -/
def chirpRest (ch : Channel) : List Text :=
  let tone := chirpToneFields ch
  mhzText ch.rxFreq :: (chirpDuplexOffset ch).1 :: mhzText (chirpDuplexOffset ch).2 :: tone.mode ::
    tone.rTone :: tone.cTone :: tone.dtcsCode :: tone.dtcsPolarity :: chirpTail ch

/-- The line of a channel in the CHIRP format. -/
def chirpLine (ch : Channel) : Text :=
  csvLine (Nat.toDigits 10 ch.index :: csvEscape ch.name :: chirpRest ch)

def exportChirpCsv (plan : FrequencyPlan) : Text :=
  csvLine chirpHeader ++ plan.channels.flatMap chirpLine

/-! ## Reading -/

/-- `Display` of a frequency. -/
def displayFrequency (hz : Frequency) : Text :=
  if hz ≥ 1000000000 then formatFixed 3 (hz / 1000000000) ++ " GHz".toList
  else if hz ≥ 1000000 then formatFixed 3 (hz / 1000000) ++ " MHz".toList
  else if hz ≥ 1000 then formatFixed 3 (hz / 1000) ++ " kHz".toList
  else Nat.toDigits 10 hz ++ " Hz".toList

inductive RadioError
  | csvParse (line : Nat) (message : Text)
  deriving DecidableEq

/-- `(mhz * 1_000_000.0).round() as u64`. -/
def roundToHz (mhz : FloatValue) : Frequency := ((mhz.scale 1000000).round).asU64

def parseChirpTone (toneMode rTone dtcsCode dtcsPol : Text) : ToneMode :=
  if toneMode = "Tone".toList ∨ toneMode = "TSQL".toList then
    match ctcssOfFloat ((parseFloat rTone).getD (.finite (885 / 10))) with
    | some tone => .ctcss tone
    | none => .none
  else if toneMode = "DTCS".toList then
    let polarity :=
      if dtcsPol = "RR".toList ∨ dtcsPol = "RN".toList then DcsPolarity.inverted else .normal
    match DcsCode.new ((parseU16 dtcsCode).getD 23) with
    | some code => .dcs code polarity
    | none => .none
  else .none

/-- The offset and the transmit frequency of a row; both operations on `u64` are checked. -/
def parseOffset (line : Nat) (duplex : Text) (rxHz offHz : Frequency) :
    Except RadioError (FrequencyOffset × Option Frequency) :=
  if duplex = "+".toList then
    if rxHz + offHz < 2 ^ 64 then .ok (.plus offHz, some (rxHz + offHz))
    else .error (.csvParse line ("frequency offset overflow: ".toList ++ displayFrequency rxHz ++
      " + ".toList ++ displayFrequency offHz))
  else if duplex = "-".toList then
    if offHz ≤ rxHz then .ok (.minus offHz, some (rxHz - offHz))
    else .error (.csvParse line ("frequency offset underflow: ".toList ++ displayFrequency rxHz ++
      " - ".toList ++ displayFrequency offHz))
  else if duplex = "split".toList then .ok (.split offHz, some offHz)
  else .ok (.none, none)

/-- A row that is not empty. -/
def parseRow (line : Nat) (cols : List Text) : Except RadioError Channel :=
  if cols.length < 15 then
    .error (.csvParse line
      ("expected at least 15 columns, got ".toList ++ Nat.toDigits 10 cols.length))
  else
    match parseU16 (cols.getD 0 []) with
    | none => .error (.csvParse line ("invalid location: '".toList ++ cols.getD 0 [] ++ "'".toList))
    | some index =>
        match parseFloat (cols.getD 2 []) with
        | none =>
            .error (.csvParse line ("invalid frequency: '".toList ++ cols.getD 2 [] ++ "'".toList))
        | some rxMhz => do
            let rxFreq := roundToHz rxMhz
            let offsetFreq := roundToHz ((parseFloat (cols.getD 4 [])).getD (.finite 0))
            let (offset, txFreq) ← parseOffset line (cols.getD 3 []) rxFreq offsetFreq
            .ok {
              index := index
              name := cols.getD 1 []
              rxFreq := rxFreq
              txFreq := txFreq
              offset := offset
              tone := parseChirpTone (cols.getD 5 []) (cols.getD 6 []) (cols.getD 8 [])
                (cols.getD 9 [])
              power :=
                if cols[14]? = some "Low".toList then .low
                else if cols[14]? = some "Mid".toList then .mid else .high
              bandwidth := if cols[11]? = some "NFM".toList then .narrow else .wide
              scan := if cols[13]? = some "S".toList then .skip else .included
              busyLock := false }

/-- The reader that `parse_chirp_csv` builds. -/
def readerOptions : ReaderOptions := ⟨true, true, true⟩

/-- The loop over the records; rows of empty cells are left out. -/
def parseRecords : List (Except Csv.Error Record) → Except RadioError (List Channel)
  | [] => .ok []
  | result :: results => do
      let record ← result.mapError fun source => .csvParse (source.line.getD 0) source.message
      if record.fields.all (· = []) then parseRecords results
      else do
        let channel ← parseRow (record.line.getD 0) record.fields
        let channels ← parseRecords results
        .ok (channel :: channels)

def parseChirpCsv (csv : Library) (text : Text) : Except RadioError FrequencyPlan :=
  (parseRecords (csv.records readerOptions text)).map fun channels => ⟨channels⟩

/-! ## Lines as records -/

/-- A name that is written bare although it has a carriage return, which ends a record. -/
structure BreaksLine (name : Text) : Prop where
  cr : '\r' ∈ name
  comma : ',' ∉ name
  quote : '"' ∉ name
  lf : '\n' ∉ name

instance (name : Text) : Decidable (BreaksLine name) :=
  decidable_of_iff ('\r' ∈ name ∧ ',' ∉ name ∧ '"' ∉ name ∧ '\n' ∉ name)
    ⟨fun h => ⟨h.1, h.2.1, h.2.2.1, h.2.2.2⟩, fun h => ⟨h.cr, h.comma, h.quote, h.lf⟩⟩

theorem encodesField_csvEscape {name : Text} (h : ¬ BreaksLine name) :
    EncodesField name (csvEscape name) := by
  rw [csvEscape]
  split
  · exact .quoted name
  · next hbare =>
      obtain ⟨hcomma, hquote, hlf⟩ : ',' ∉ name ∧ '"' ∉ name ∧ '\n' ∉ name := by tauto
      have hcr : '\r' ∉ name := fun hmem => h ⟨hmem, hcomma, hquote, hlf⟩
      refine .bare fun c hc => isSpecial_eq_false.mpr ⟨?_, ?_, ?_, ?_⟩
      · exact fun heq => hcomma (heq ▸ hc)
      · exact fun heq => hquote (heq ▸ hc)
      · exact fun heq => hcr (heq ▸ hc)
      · exact fun heq => hlf (heq ▸ hc)

theorem csvEscape_of_breaksLine {name : Text} (h : BreaksLine name) : csvEscape name = name :=
  if_neg (by simp [h.comma, h.quote, h.lf])

/-- The first carriage return of a name. -/
theorem BreaksLine.split {name : Text} (h : BreaksLine name) :
    ∃ front back, name = front ++ '\r' :: back ∧ IsBare front ∧
      ∀ c ∈ back, c = '\r' ∨ isSpecial c = false := by
  obtain ⟨front, back, rfl, hfront⟩ := List.eq_append_cons_of_mem h.cr
  have hclear {c : Char} (hc : c ∈ front ++ '\r' :: back) : c = '\r' ∨ isSpecial c = false := by
    by_cases hcr : c = '\r'
    · exact .inl hcr
    · refine .inr (isSpecial_eq_false.mpr ⟨?_, ?_, hcr, ?_⟩)
      · exact fun heq => h.comma (heq ▸ hc)
      · exact fun heq => h.quote (heq ▸ hc)
      · exact fun heq => h.lf (heq ▸ hc)
  refine ⟨front, back, rfl, fun c hc => ?_, fun c hc => hclear (by simp [hc])⟩
  obtain rfl | hc' := hclear (List.mem_append_left _ hc)
  · exact absurd hc hfront
  · exact hc'

section Lines

variable {rest : Channel → List Text} {channels : List Channel} {header : List Text}
  {rows : List (List Text)}

/-- The line of a channel: its index, its name and cells that need no quotes. -/
def lineOf (rest : Channel → List Text) (ch : Channel) : Text :=
  csvLine (Nat.toDigits 10 ch.index :: csvEscape ch.name :: rest ch)

/-- The record that the line of a channel is meant to be. -/
def recordOf (rest : Channel → List Text) (ch : Channel) : List Text :=
  Nat.toDigits 10 ch.index :: ch.name :: rest ch

/-- There is a cell behind the name, and all of them are written bare. -/
structure BareRest (rest : Channel → List Text) : Prop where
  ne_nil : ∀ ch, rest ch ≠ []
  bare : ∀ ch, ∀ cell ∈ rest ch, IsBare cell

theorem BareRest.encodesFields (h : BareRest rest) (ch : Channel) :
    EncodesFields (rest ch) (joined (rest ch)) := by
  apply encodesFields_joined _ (h.ne_nil ch)
  rw [List.forall₂_same]
  exact fun cell hcell => .bare (h.bare ch cell hcell)

theorem lineOf_eq (h : BareRest rest) (ch : Channel) (text : Text) :
    lineOf rest ch ++ text =
      Nat.toDigits 10 ch.index ++ ',' ::
        (csvEscape ch.name ++ ',' :: (joined (rest ch) ++ '\n' :: text)) := by
  obtain ⟨cell, cells, hcells⟩ := List.exists_cons_of_ne_nil (h.ne_nil ch)
  simp [lineOf, csvLine, hcells]

theorem encodes_lineOf (h : BareRest rest) {ch : Channel} (hname : ¬ BreaksLine ch.name)
    {text : Text} (htext : Encodes rows text) :
    Encodes (recordOf rest ch :: rows) (lineOf rest ch ++ text) := by
  have hfields : EncodesFields (recordOf rest ch)
      (Nat.toDigits 10 ch.index ++ ',' :: (csvEscape ch.name ++ ',' :: joined (rest ch))) :=
    .cons (.bare (isPlain_toDigits _).isBare)
      (.cons (encodesField_csvEscape hname) (h.encodesFields ch))
  have hrecord := Encodes.cons hfields (by simp) .lf htext
  rw [lineOf_eq h]
  simpa using hrecord

/-- A name with a bare carriage return leaves a record of two cells. -/
theorem encodes_lineOf_broken (h : BareRest rest) {ch : Channel} (hname : BreaksLine ch.name)
    {text : Text} (htext : Encodes rows text) :
    ∃ front rows',
      Encodes ([Nat.toDigits 10 ch.index, front] :: rows') (lineOf rest ch ++ text) := by
  obtain ⟨front, back, hsplit, hfront, hback⟩ := hname.split
  obtain ⟨rows', hrows⟩ := exists_encodes_of_loose (fun c hc => absurd hc List.not_mem_nil) hback
    (h.encodesFields ch) htext
  have hfields : EncodesFields [Nat.toDigits 10 ch.index, front]
      (Nat.toDigits 10 ch.index ++ ',' :: front) :=
    .cons (.bare (isPlain_toDigits _).isBare) (.single (.bare hfront))
  refine ⟨front, rows', ?_⟩
  have hrecord := Encodes.cons hfields (by simp) .cr hrows
  rw [lineOf_eq h, csvEscape_of_breaksLine hname, hsplit]
  simpa using hrecord

/-- **The lines of channels** whose names do not break them are one record each. -/
theorem encodes_lines (h : BareRest rest) (hnames : ∀ ch ∈ channels, ¬ BreaksLine ch.name) :
    Encodes (channels.map (recordOf rest)) (channels.flatMap (lineOf rest)) := by
  induction channels with
  | nil => exact .nil
  | cons ch channels ih =>
      obtain ⟨hfirst, hrest⟩ := List.forall_mem_cons.mp hnames
      exact encodes_lineOf h hfirst (ih hrest)

/-- **A name that breaks its line** leaves a record of two cells somewhere. -/
theorem exists_encodes_lines (h : BareRest rest) (channels : List Channel) :
    ∃ rows, Encodes rows (channels.flatMap (lineOf rest)) ∧
      ((∃ ch ∈ channels, BreaksLine ch.name) →
      ∃ index front, [Nat.toDigits 10 index, front] ∈ rows) := by
  induction channels with
  | nil => exact ⟨[], .nil, by simp⟩
  | cons ch channels ih =>
      obtain ⟨rows, hrows, hbroken⟩ := ih
      by_cases hfirst : BreaksLine ch.name
      · obtain ⟨front, rows', hrows'⟩ := encodes_lineOf_broken h hfirst hrows
        exact ⟨_, hrows', fun _ => ⟨ch.index, front, List.mem_cons_self⟩⟩
      · refine ⟨_, encodes_lineOf h hfirst hrows, fun hnames => ?_⟩
        have hlater : ∃ ch ∈ channels, BreaksLine ch.name := by simpa [hfirst] using hnames
        obtain ⟨index, front, hmem⟩ := hbroken hlater
        exact ⟨index, front, List.mem_cons_of_mem _ hmem⟩

theorem encodes_header (hheader : header ≠ []) (hbare : ∀ cell ∈ header, IsBare cell)
    (hline : joined header ≠ []) {text : Text} (htext : Encodes rows text) :
    Encodes (header :: rows) (csvLine header ++ text) := by
  have hfields : EncodesFields header (joined header) := by
    apply encodesFields_joined _ hheader
    rw [List.forall₂_same]
    exact fun cell hcell => .bare (hbare cell hcell)
  rw [csvLine, List.append_assoc]
  exact .cons hfields hline .lf htext

end Lines

theorem isBare_formatToneCsv (tone : ToneMode) : IsBare (formatToneCsv tone) := by
  have hunit : IsBare " Hz".toList := by decide
  have hlabel : IsBare "DCS ".toList := by decide
  cases tone with
  | none => exact fun c hc => absurd hc List.not_mem_nil
  | ctcss tone => exact isBare_append (isPlain_fixedPoint 1 _).isBare hunit
  | dcs code polarity => exact isBare_append hlabel (isPlain_padded 3 _).isBare

theorem isPlain_chirpDuplexOffset (ch : Channel) : IsPlain (chirpDuplexOffset ch).1 := by
  have hplus : IsPlain "+".toList := by decide
  have hminus : IsPlain "-".toList := by decide
  have hsplit : IsPlain "split".toList := by decide
  rw [chirpDuplexOffset]
  cases ch.offset with
  | none => exact isPlain_nil
  | plus off => exact hplus
  | minus off => exact hminus
  | split tx => exact hsplit

theorem bareRest_nativeRest : BareRest nativeRest where
  ne_nil ch := by simp [nativeRest]
  bare ch := by
    simp only [nativeRest, List.forall_mem_cons, List.not_mem_nil, false_implies,
      implies_true, and_true]
    exact ⟨(isPlain_mhzText _).isBare, (isPlain_mhzText _).isBare, isBare_formatToneCsv _,
      (isPlain_powerText _).isBare⟩

/-- Every cell of the CHIRP format behind the name is plain. -/
theorem isPlain_chirpRest (ch : Channel) : ∀ cell ∈ chirpRest ch, IsPlain cell := by
  have htone : (chirpToneFields ch).Plain := plain_toneFields (by decide) ch.tone
  have hstep : IsPlain "5.00".toList := by decide
  simp only [chirpRest, chirpTail, List.forall_mem_cons, List.not_mem_nil, false_implies,
    implies_true, and_true]
  exact ⟨isPlain_mhzText _, isPlain_chirpDuplexOffset ch, isPlain_mhzText _, htone.mode,
    htone.rTone, htone.cTone, htone.dtcsCode, htone.dtcsPolarity, htone.dtcsCode,
    isPlain_modeText _, hstep,
    isPlain_skipText _, isPlain_powerText _, isPlain_nil, isPlain_nil, isPlain_nil, isPlain_nil,
    isPlain_nil⟩

theorem bareRest_chirpRest : BareRest chirpRest where
  ne_nil ch := by simp [chirpRest]
  bare ch cell hcell := (isPlain_chirpRest ch cell hcell).isBare

theorem encodes_chirpHeader {rows : List (List Text)} {text : Text} (htext : Encodes rows text) :
    Encodes (chirpHeader :: rows) (csvLine chirpHeader ++ text) :=
  encodes_header (by decide) (by decide) (by decide) htext

/-- A CHIRP file is one record for each channel if no name breaks its line. -/
theorem exportChirpCsv_encodes {plan : FrequencyPlan}
    (hnames : ∀ ch ∈ plan.channels, ¬ BreaksLine ch.name) :
    Encodes (chirpHeader :: plan.channels.map (recordOf chirpRest)) (exportChirpCsv plan) :=
  encodes_chirpHeader (encodes_lines bareRest_chirpRest hnames)

/-! ## What is read of a row -/

theorem roundToHz_asMhz (hz : Nat) : roundToHz (.finite (asMhz hz)) = min (2 ^ 64 - 1) hz := by
  rw [roundToHz, FloatValue.scale, asMhz_mul, FloatValue.round_natCast, FloatValue.asU64_natCast]

theorem parseOffset_minus (line rxHz offHz : Nat) :
    parseOffset line "-".toList rxHz offHz =
      if offHz ≤ rxHz then .ok (.minus offHz, some (rxHz - offHz))
      else .error (.csvParse line ("frequency offset underflow: ".toList ++ displayFrequency rxHz ++
        " - ".toList ++ displayFrequency offHz)) := by
  simp [parseOffset]

theorem parseChirpTone_toneFields {inverted : Text}
    (h : inverted = "RR".toList ∨ inverted = "RN".toList) (tone : ToneMode) :
    parseChirpTone (toneFields inverted tone).mode (toneFields inverted tone).rTone
      (toneFields inverted tone).dtcsCode (toneFields inverted tone).dtcsPolarity =
        writtenTone tone := by
  cases tone with
  | none => simp [parseChirpTone, toneFields, writtenTone]
  | ctcss tone =>
      have hmode : (toneFields inverted (.ctcss tone)).mode = "Tone".toList := rfl
      have htext : (toneFields inverted (.ctcss tone)).rTone = formatFixed 1 tone.hz := rfl
      rw [parseChirpTone, hmode, htext, parseFloat_formatFixed_one]
      simp only [true_or, if_true, Option.getD_some, ctcssOfFloat]
      rfl
  | dcs code polarity =>
      have hcode : DcsCode.new ((parseU16 (padded 3 code.code)).getD 23) = some code := by
        rw [parseU16_padded (DcsCode.code_lt code), Option.getD_some, DcsCode.new_code]
      cases polarity with
      | normal => simp [parseChirpTone, toneFields, writtenTone, hcode]
      | inverted =>
          obtain rfl | rfl := h <;> simp [parseChirpTone, toneFields, writtenTone, hcode]

section Rows

variable {index line : Nat} {rxFreq offset : Nat} {name duplex inverted : Text} {tone : ToneMode}
  {rest : List Text}

theorem map_trim_of_isPlain {cells : List Text} (h : ∀ cell ∈ cells, IsPlain cell) :
    cells.map trim = cells := by
  conv => rhs; rw [← List.map_id cells]
  exact List.map_congr_left fun cell hcell => (h cell hcell).trim

/-- Only the name is changed when the cells are trimmed. -/
theorem map_trim_frontCells (hduplex : IsPlain duplex) {cells : ToneFields} (hcells : cells.Plain) :
    (frontCells index name rxFreq duplex offset cells).map trim =
      frontCells index (trim name) rxFreq duplex offset cells := by
  simp only [frontCells, List.map_cons, List.map_nil, (isPlain_toDigits _).trim,
    (isPlain_mhzText _).trim, hduplex.trim, hcells.mode.trim, hcells.rTone.trim, hcells.cTone.trim,
    hcells.dtcsCode.trim,
    hcells.dtcsPolarity.trim]

/-- The channel of a row whose duplex and offset have been read. -/
def rowChannel (index : Nat) (name : Text) (rxFreq : Frequency) (tone : ToneMode) (rest : List Text)
    (offset : FrequencyOffset × Option Frequency) : Channel where
  index := index
  name := name
  rxFreq := rxFreq
  txFreq := offset.2
  offset := offset.1
  tone := writtenTone tone
  power :=
    if rest[4]? = some "Low".toList then .low
      else if rest[4]? = some "Mid".toList then .mid else .high
  bandwidth := if rest[1]? = some "NFM".toList then .narrow else .wide
  scan := if rest[3]? = some "S".toList then .skip else .included
  busyLock := false

/-- **What is read of a row**: only the checked arithmetic on the frequencies can fail. -/
theorem parseRow_frontCells (line : Nat) (name duplex : Text) (rxFreq offset : Nat)
    (tone : ToneMode) (hindex : index < 2 ^ 16) (hrest : 5 ≤ rest.length)
    (hinverted : inverted = "RR".toList ∨ inverted = "RN".toList) :
    parseRow line (frontCells index name rxFreq duplex offset (toneFields inverted tone) ++ rest) =
      (parseOffset line duplex (min (2 ^ 64 - 1) rxFreq) (min (2 ^ 64 - 1) offset)).map
        (rowChannel index name (min (2 ^ 64 - 1) rxFreq) tone rest) := by
  let cols := frontCells index name rxFreq duplex offset (toneFields inverted tone) ++ rest
  have hlen : ¬ cols.length < 15 := by
    rw [List.length_append]
    simp only [frontCells, List.length_cons, List.length_nil]
    omega
  have hlocation : parseU16 (cols.getD 0 []) = some index := parseU16_toDigits hindex
  have hfreq : parseFloat (cols.getD 2 []) = some (.finite (asMhz rxFreq)) :=
    parseFloat_mhzText rxFreq
  have hoffset : parseFloat (cols.getD 4 []) = some (.finite (asMhz offset)) :=
    parseFloat_mhzText offset
  have htone : parseChirpTone (cols.getD 5 []) (cols.getD 6 []) (cols.getD 8 []) (cols.getD 9 []) =
      writtenTone tone := parseChirpTone_toneFields hinverted tone
  show parseRow line cols = _
  simp only [parseRow, hlen, if_false, hlocation, hfreq, hoffset, Option.getD_some,
    roundToHz_asMhz, htone]
  show (parseOffset line duplex _ _).bind _ = _
  cases parseOffset line duplex (min (2 ^ 64 - 1) rxFreq) (min (2 ^ 64 - 1) offset) <;> rfl

theorem recordOf_chirpRest (ch : Channel) : recordOf chirpRest ch =
    frontCells ch.index ch.name ch.rxFreq (chirpDuplexOffset ch).1 (chirpDuplexOffset ch).2
      (toneFields "RR".toList ch.tone) ++ chirpTail ch := rfl

/-- The reader finds the settings where the writer has put them. -/
theorem rowChannel_chirpTail (ch : Channel) (offset : FrequencyOffset × Option Frequency) :
    rowChannel ch.index ch.name ch.rxFreq ch.tone (chirpTail ch) offset =
      { ch with
        txFreq := offset.2
        offset := offset.1
        tone := writtenTone ch.tone
        busyLock := false } := by
  have hpower : (if (chirpTail ch)[4]? = some "Low".toList then PowerLevel.low
      else if (chirpTail ch)[4]? = some "Mid".toList then .mid else .high) = ch.power := by
    cases hlevel : ch.power <;> simp [chirpTail, formatPowerCsv, powerText, hlevel]
  have hbandwidth : (if (chirpTail ch)[1]? = some "NFM".toList then Bandwidth.narrow else .wide) =
      ch.bandwidth := by
    cases hwidth : ch.bandwidth <;> simp [chirpTail, modeText, hwidth]
  have hscan : (if (chirpTail ch)[3]? = some "S".toList then ScanMode.skip else .included) =
      ch.scan := by
    cases hsetting : ch.scan <;> simp [chirpTail, skipText, hsetting]
  rw [rowChannel, hpower, hbandwidth, hscan]

/-- A row of two cells is too short. -/
theorem parseRow_pair (line : Nat) (first second : Text) (ch : Channel) :
    parseRow line [first, second] ≠ .ok ch := by
  simp [parseRow]

end Rows

/-! ## Files -/

/-- The row is no empty one, and it is read as the channel wherever it stands. -/
structure Reads (fields : List Text) (ch : Channel) : Prop where
  used : ∃ cell ∈ fields, cell ≠ []
  row : ∀ line, parseRow line fields = .ok ch

/-- The row is no empty one, and it is read as no channel. -/
structure Fails (fields : List Text) : Prop where
  used : ∃ cell ∈ fields, cell ≠ []
  row : ∀ line ch, parseRow line fields ≠ .ok ch

theorem all_eq_nil {fields : List Text} (h : ∃ cell ∈ fields, cell ≠ []) :
    fields.all (· = []) = false := by
  simpa using h

theorem parseRecords_cons (record : Record) (results : List (Except Csv.Error Record)) :
    parseRecords (.ok record :: results) =
      if record.fields.all (· = []) then parseRecords results
      else (parseRow (record.line.getD 0) record.fields).bind fun ch =>
        (parseRecords results).bind fun channels => .ok (ch :: channels) := rfl

theorem parseRecords_of_reads {records : List Record} {channels : List Channel}
    (h : List.Forall₂ Reads (records.map Record.fields) channels) :
    parseRecords (records.map .ok) = .ok channels := by
  induction records generalizing channels with
  | nil =>
      cases h
      rfl
  | cons record records ih =>
      cases h with
      | cons hfirst hrest =>
          rw [List.map_cons, parseRecords_cons, all_eq_nil hfirst.used, if_neg Bool.false_ne_true,
            hfirst.row, ih hrest]
          rfl

theorem parseRecords_of_fails {records : List Record}
    (h : ∃ fields ∈ records.map Record.fields, Fails fields) (channels : List Channel) :
    parseRecords (records.map .ok) ≠ .ok channels := by
  induction records generalizing channels with
  | nil => simp at h
  | cons record records ih =>
      rw [List.map_cons, parseRecords_cons]
      intro hok
      by_cases hfirst : Fails record.fields
      · rw [all_eq_nil hfirst.used, if_neg Bool.false_ne_true] at hok
        obtain ⟨ch, hrow, -⟩ := bind_eq_ok.mp hok
        exact hfirst.row _ _ hrow
      · have hlater : ∃ fields ∈ records.map Record.fields,
          Fails fields := by simpa [hfirst] using h
        split at hok
        · exact ih hlater _ hok
        · obtain ⟨ch, -, hok⟩ := bind_eq_ok.mp hok
          obtain ⟨rest, hrest, -⟩ := bind_eq_ok.mp hok
          exact ih hlater _ hrest

/-- **A file is read row by row**, with the cells trimmed. -/
theorem parseChirpCsv_of_encodes {csv : Library} (hcsv : csv.Lawful) {first : Text}
    {columns : List Text} {rows : List (List Text)} {text : Text}
    (htext : Encodes ((first :: columns) :: rows) text)
    (hfirst : first.head? ≠ some byteOrderMark) :
    ∃ records : List Record, records.map Record.fields = rows.map (·.map trim) ∧
      parseChirpCsv csv text = (parseRecords (records.map .ok)).map fun channels => ⟨channels⟩ := by
  have hbom : text.head? ≠ some byteOrderMark := head?_ne_of_encodes htext (by decide) hfirst
  obtain ⟨records, hrecords, hfields⟩ := hcsv.reads readerOptions text _ rfl htext hbom
  refine ⟨records, ?_, by rw [parseChirpCsv, hrecords]⟩
  rw [hfields, ReaderOptions.select, readerOptions]
  simp

section Encoded

variable {csv : Library} (hcsv : csv.Lawful) {first : Text} {columns : List Text}
  {rows : List (List Text)} {text : Text} (htext : Encodes ((first :: columns) :: rows) text)
  (hfirst : first.head? ≠ some byteOrderMark)

include hcsv htext hfirst

theorem parseChirpCsv_of_reads {channels : List Channel}
    (h : List.Forall₂ (fun fields ch => Reads (fields.map trim) ch) rows channels) :
    parseChirpCsv csv text = .ok ⟨channels⟩ := by
  obtain ⟨records, hrecords, hparse⟩ := parseChirpCsv_of_encodes hcsv htext hfirst
  have hreads : List.Forall₂ Reads (records.map Record.fields) channels := by
    rwa [hrecords, List.forall₂_map_left_iff]
  rw [hparse, parseRecords_of_reads hreads]
  rfl

/-- One row that does not parse is the end of the whole file. -/
theorem parseChirpCsv_of_fails (h : ∃ fields ∈ rows, Fails (fields.map trim))
    (plan : FrequencyPlan) :
    parseChirpCsv csv text ≠ .ok plan := by
  obtain ⟨records, hrecords, hparse⟩ := parseChirpCsv_of_encodes hcsv htext hfirst
  obtain ⟨fields, hmem, hfails⟩ := h
  rw [hparse]
  intro hok
  obtain ⟨channels, hchannels, -⟩ := map_eq_ok.mp hok
  refine parseRecords_of_fails ⟨_, ?_, hfails⟩ channels hchannels
  rw [hrecords]
  exact List.mem_map_of_mem hmem

end Encoded

end Akroasis.Chirp.CommandLine
