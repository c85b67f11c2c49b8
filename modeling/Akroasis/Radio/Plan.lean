import Akroasis.Bytes
import Mathlib.Data.Rat.Floor

/-!
# Akroasis.Radio.Plan

Channels, frequency plans and their validation against the limits of a radio
(`syntonia::channel`, `tone`, `types`, `plan` and `validate`).

Frequencies count hertz.  The value of a CTCSS tone, an `f32` in the source, is an exact
rational.  A name is the list of its characters; its length in the source is that of its
UTF-8 bytes.
-/

namespace Akroasis.Radio

/-! ## Channels -/

/-- A frequency in hertz, a `u64`. -/
abbrev Frequency := Nat

/-- Hertz in a megahertz. -/
def mhz (value : Nat) : Frequency := value * 1000000

/-- How the transmit frequency relates to the receive frequency. -/
inductive FrequencyOffset
  | none
  | plus (offset : Frequency)
  | minus (offset : Frequency)
  | split (transmit : Frequency)
  deriving DecidableEq, Repr

inductive PowerLevel
  | high
  | mid
  | low
  deriving DecidableEq, Repr

inductive Bandwidth
  | wide
  | narrow
  deriving DecidableEq, Repr

inductive ScanMode
  | included
  | skip
  deriving DecidableEq, Repr

/-- `ALL_CTCSS_TONES` in tenths of a hertz. -/
def allCtcssTones : List Nat :=
  [670, 693, 719, 744, 770, 797, 825, 854, 885, 915, 948, 974, 1000, 1035, 1072,
    1109, 1148, 1188, 1230, 1273, 1318, 1365, 1413, 1462, 1514, 1567, 1598, 1622,
    1655, 1679, 1713, 1738, 1773, 1799, 1835, 1862, 1899, 1928, 1966, 1995, 2035,
    2065, 2107, 2181, 2257, 2291, 2336, 2418, 2503, 2541]

/-- `ALL_DCS_CODES`. -/
def allDcsCodes : List Nat :=
  [23, 25, 26, 31, 32, 36, 43, 47, 51, 53, 54, 65, 71, 72, 73, 74, 114, 115, 116, 122, 125, 131,
    132, 134, 143, 145, 152, 155, 156, 162, 165, 172, 174, 205, 212, 223, 225, 226, 243, 244, 245,
    246, 251, 252, 255, 261, 263, 265, 266, 271, 274, 306, 311, 315, 325, 331, 332, 343, 346, 351,
    356, 364, 365, 371, 411, 412, 413, 423, 431, 432, 445, 446, 452, 454, 455, 462, 464, 465, 466,
    503, 506, 516, 523, 526, 532, 546, 565, 606, 612, 624, 627, 631, 632, 654, 662, 664, 703, 712,
    723, 731, 732, 734, 743, 754]

/-- `(value * 10.0).round() as u32`. -/
def roundedTenths (hz : ℚ) : Nat := (hz * 10 + 1 / 2).floor.toNat

/-- A tone that `CtcssTone::new` accepts: one that rounds to the tenths of a standard tone. -/
structure CtcssTone where
  hz : ℚ
  standard : roundedTenths hz ∈ allCtcssTones
  deriving DecidableEq

/-- A code that `DcsCode::new` accepts. -/
structure DcsCode where
  code : Nat
  standard : code ∈ allDcsCodes
  deriving DecidableEq

inductive DcsPolarity
  | normal
  | inverted
  deriving DecidableEq, Repr

inductive ToneMode
  | none
  | ctcss (tone : CtcssTone)
  | dcs (code : DcsCode) (polarity : DcsPolarity)
  deriving DecidableEq

/-- A memory slot of a radio. -/
structure Channel where
  index : Nat
  name : List Char
  rxFreq : Frequency
  txFreq : Option Frequency
  offset : FrequencyOffset
  tone : ToneMode
  power : PowerLevel
  bandwidth : Bandwidth
  scan : ScanMode
  busyLock : Bool
  deriving DecidableEq

/-- The UTF-8 bytes of a name. -/
def nameBytes (name : List Char) : Bytes := name.flatMap String.utf8EncodeChar

/-- A frequency plan; only its channels reach the radio. -/
structure FrequencyPlan where
  channels : List Channel
  deriving DecidableEq

/-! ## Validation -/

/-- The limits of a radio. -/
structure RadioConstraints where
  maxNameLength : Nat
  validBands : List (Frequency × Frequency)
  powerLevels : List PowerLevel
  maxChannels : Nat

/-- VHF and UHF. -/
def baofengBands : List (Frequency × Frequency) := [(mhz 136, mhz 174), (mhz 400, mhz 520)]

def baofengUv5rConstraints : RadioConstraints := ⟨7, baofengBands, [.high, .low], 128⟩

def baofengF8hpConstraints : RadioConstraints := ⟨7, baofengBands, [.high, .mid, .low], 128⟩

namespace RadioConstraints

def allowsFrequency (constraints : RadioConstraints) (freq : Frequency) : Bool :=
  constraints.validBands.any fun band => decide (band.1 ≤ freq ∧ freq ≤ band.2)

def allowsPowerLevel (constraints : RadioConstraints) (level : PowerLevel) : Bool :=
  constraints.powerLevels.contains level

end RadioConstraints

/-- What a validation issue is about. -/
inductive Finding
  | rxOutsideBands (index : Nat) (freq : Frequency)
  | txOutsideBands (index : Nat) (freq : Frequency)
  | nameTooLong (index : Nat) (name : List Char) (max : Nat)
  | powerNotSupported (index : Nat) (level : PowerLevel)
  | indexTooLarge (index max : Nat)
  | tooManyChannels (count max : Nat)
  | duplicateRx (index : Nat) (freq : Frequency)
  deriving DecidableEq

/-- A hard failure or a soft issue. -/
inductive ValidationIssue
  | error (finding : Finding)
  | warning (finding : Finding)
  deriving DecidableEq

def ValidationIssue.isError : ValidationIssue → Bool
  | .error _ => true
  | .warning _ => false

variable (constraints : RadioConstraints)

def validateChannel (channel : Channel) : List ValidationIssue :=
  (if constraints.allowsFrequency channel.rxFreq then []
    else [.error (.rxOutsideBands channel.index channel.rxFreq)]) ++
  (match channel.txFreq with
    | some tx =>
        if constraints.allowsFrequency tx then [] else [.error (.txOutsideBands channel.index tx)]
    | none => []) ++
  (if (nameBytes channel.name).length > constraints.maxNameLength then
    [.warning (.nameTooLong channel.index channel.name constraints.maxNameLength)] else []) ++
  (if constraints.allowsPowerLevel channel.power then []
    else [.error (.powerNotSupported channel.index channel.power)]) ++
  (if channel.index ≥ constraints.maxChannels then
    [.error (.indexTooLarge channel.index (constraints.maxChannels - 1))] else [])

/-- Channels with a receive frequency seen before. -/
def duplicateIssues : List Frequency → List Channel → List ValidationIssue
  | _, [] => []
  | seen, channel :: channels =>
      if channel.rxFreq ∈ seen then
        .warning (.duplicateRx channel.index channel.rxFreq) :: duplicateIssues seen channels
      else duplicateIssues (channel.rxFreq :: seen) channels

def validatePlan (plan : FrequencyPlan) : List ValidationIssue :=
  (if plan.channels.length > constraints.maxChannels then
    [.error (.tooManyChannels plan.channels.length constraints.maxChannels)] else []) ++
  plan.channels.flatMap (validateChannel constraints) ++
  duplicateIssues [] plan.channels

end Akroasis.Radio
