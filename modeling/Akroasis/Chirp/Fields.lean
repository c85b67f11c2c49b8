import Akroasis.Csv
import Akroasis.Decimal
import Akroasis.Radio.Decode

/-!
# Akroasis.Chirp.Fields

The cells of a CHIRP file that do not depend on who writes it: frequencies in megahertz,
tones, and the texts of bandwidth, scan setting and power.

Frequencies and tones are `f64` and `f32` on the way; their decimal text is taken to be
exact.  None of these cells has to be quoted or is changed by trimming (`IsPlain`).
-/

namespace Akroasis.Chirp

open Csv Decimal Radio

/-! ## Numbers -/

/-- `Frequency::as_mhz_f64`. -/
def asMhz (hz : Frequency) : ℚ := hz / 1000000

/-- A frequency in megahertz, with six places. -/
def mhzText (hz : Frequency) : Text := formatFixed 6 (asMhz hz)

/-- `str::parse::<u16>`. -/
def parseU16 (s : Text) : Option Nat := parseUnsigned (2 ^ 16 - 1) s

theorem mhzText_eq (hz : Frequency) : mhzText hz = fixedPoint 6 hz := by
  have hmhz : asMhz hz = (hz : ℚ) / 10 ^ 6 := by
    rw [asMhz]
    norm_num
  rw [mhzText, hmhz, formatFixed_div]

theorem parseFloat_mhzText (hz : Frequency) :
    parseFloat (mhzText hz) = some (.finite (asMhz hz)) := by
  rw [mhzText_eq, parseFloat_fixedPoint (by decide), asMhz]
  norm_num

theorem asMhz_mul (hz : Frequency) : asMhz hz * 1000000 = hz := by
  rw [asMhz, div_mul_cancel₀]
  norm_num

theorem parseU16_toDigits {n : Nat} (h : n < 2 ^ 16) : parseU16 (Nat.toDigits 10 n) = some n :=
  parseUnsigned_toDigits (Nat.le_sub_one_of_lt h)

theorem parseU16_padded {width n : Nat} (h : n < 2 ^ 16) : parseU16 (padded width n) = some n :=
  parseUnsigned_padded (Nat.le_sub_one_of_lt h)

theorem isPlain_toDigits (n : Nat) : IsPlain (Nat.toDigits 10 n) :=
  isPlain_of_isDigit fun _ hc => .inl (isDigit_of_mem_toDigits hc)

theorem isPlain_padded (width n : Nat) : IsPlain (padded width n) :=
  isPlain_of_isDigit fun _ hc => .inl (isDigit_of_mem_padded hc)

theorem isPlain_fixedPoint (places n : Nat) : IsPlain (fixedPoint places n) := by
  apply isPlain_of_isDigit
  intro c hc
  obtain hc | hc := List.mem_append.mp hc
  · exact .inl (isDigit_of_mem_toDigits hc)
  · obtain rfl | hc := List.mem_cons.mp hc
    · exact .inr rfl
    · exact .inl (isDigit_of_mem_padded hc)

theorem isPlain_mhzText (hz : Frequency) : IsPlain (mhzText hz) := isPlain_fixedPoint 6 _

/-! ## Settings -/

/-- The text of a bandwidth. -/
def modeText : Bandwidth → Text
  | .narrow => "NFM".toList
  | .wide => "FM".toList

/-- The text of a scan setting. -/
def skipText : ScanMode → Text
  | .skip => "S".toList
  | .included => []

/-- The text of a power level. -/
def powerText : PowerLevel → Text
  | .mid => "Mid".toList
  | .low => "Low".toList
  | .high => "High".toList

theorem isPlain_modeText (bandwidth : Bandwidth) : IsPlain (modeText bandwidth) := by
  cases bandwidth <;> decide

theorem isPlain_skipText (scan : ScanMode) : IsPlain (skipText scan) := by
  cases scan <;> decide

theorem isPlain_powerText (power : PowerLevel) : IsPlain (powerText power) := by
  cases power <;> decide

/-! ## Tones -/

/-- The cells of a tone. -/
structure ToneFields where
  mode : Text
  rTone : Text
  cTone : Text
  dtcsCode : Text
  dtcsPolarity : Text

/-- The cells of a tone, with the writer's text for inverted polarity. -/
def toneFields (inverted : Text) : ToneMode → ToneFields
  | .none => ⟨[], "88.5".toList, "88.5".toList, "023".toList, "NN".toList⟩
  | .ctcss tone =>
      ⟨"Tone".toList, formatFixed 1 tone.hz, formatFixed 1 tone.hz, "023".toList, "NN".toList⟩
  | .dcs code polarity =>
      ⟨"DTCS".toList, "88.5".toList, "88.5".toList, padded 3 code.code,
        if polarity = .inverted then inverted else "NN".toList⟩

/-- `CtcssTone::new` of a number that has been read; no infinite value rounds to a tone. -/
def ctcssOfFloat : FloatValue → Option CtcssTone
  | .finite hz => CtcssTone.new hz
  | _ => none

/-- The tone as the one-place text has it.  The value is only changed if it is no whole number
of tenths; it may then round to a value that is no standard tone. -/
def writtenTone : ToneMode → ToneMode
  | .ctcss tone =>
      match CtcssTone.new (roundHalfEven (tone.hz * 10) / 10) with
      | some tone => .ctcss tone
      | none => .none
  | tone => tone

theorem parseFloat_formatFixed_one (q : ℚ) :
    parseFloat (formatFixed 1 q) = some (.finite (roundHalfEven (q * 10) / 10)) := by
  rw [formatFixed, parseFloat_fixedPoint (by decide)]
  norm_num

theorem DcsCode.code_lt (code : DcsCode) : code.code < 2 ^ 16 := by
  have hall : ∀ c ∈ allDcsCodes, c < 2 ^ 16 := by decide
  exact hall _ code.standard

theorem writtenTone_of_exact {tone : ToneMode} (h : tone.Exact) : writtenTone tone = tone := by
  cases tone with
  | none => rfl
  | dcs code polarity => rfl
  | ctcss tone =>
      have htenths : tone.hz * 10 = roundedTenths tone.hz := (eq_div_iff (by norm_num)).mp h
      have hvalue : (roundHalfEven (tone.hz * 10) : ℚ) / 10 = tone.hz := by
        rw [htenths, roundHalfEven_natCast]
        exact h.symm
      rw [writtenTone, hvalue, CtcssTone.new, dif_pos tone.standard]

/-- All cells of a tone are plain if the text for inverted polarity is. -/
structure ToneFields.Plain (cells : ToneFields) : Prop where
  mode : IsPlain cells.mode
  rTone : IsPlain cells.rTone
  cTone : IsPlain cells.cTone
  dtcsCode : IsPlain cells.dtcsCode
  dtcsPolarity : IsPlain cells.dtcsPolarity

theorem plain_toneFields {inverted : Text} (h : IsPlain inverted) (tone : ToneMode) :
    (toneFields inverted tone).Plain := by
  have htone : IsPlain "88.5".toList := by decide
  have hcode : IsPlain "023".toList := by decide
  have hnormal : IsPlain "NN".toList := by decide
  have hctcss : IsPlain "Tone".toList := by decide
  have hdcs : IsPlain "DTCS".toList := by decide
  cases tone with
  | none => exact ⟨fun c hc => absurd hc List.not_mem_nil, htone, htone, hcode, hnormal⟩
  | ctcss tone => exact ⟨hctcss, isPlain_fixedPoint 1 _, isPlain_fixedPoint 1 _, hcode, hnormal⟩
  | dcs code polarity =>
      refine ⟨hdcs, htone, htone, isPlain_padded 3 _, ?_⟩
      cases polarity with
      | normal => exact hnormal
      | inverted => exact h

/-! ## The first columns -/

/-- The first ten cells of a row, which all writers and readers have in the same places: from
the location to the polarity. -/
def frontCells (index : Nat) (name : Text) (rxFreq : Frequency) (duplex : Text) (offset : Frequency)
    (tone : ToneFields) : List Text :=
  [Nat.toDigits 10 index, name, mhzText rxFreq, duplex, mhzText offset, tone.mode, tone.rTone,
    tone.cTone, tone.dtcsCode, tone.dtcsPolarity]

/-- A simplex channel with the given name. -/
def namedChannel (name : Text) : Channel where
  index := 0
  name := name
  rxFreq := 146520000
  txFreq := some 146520000
  offset := .none
  tone := .none
  power := .high
  bandwidth := .wide
  scan := .included
  busyLock := false

/-- A channel that transmits 600 kHz above its receive frequency. -/
def plusChannel : Channel :=
  { namedChannel "CALL".toList with txFreq := some 147120000, offset := .plus 600000 }

end Akroasis.Chirp
