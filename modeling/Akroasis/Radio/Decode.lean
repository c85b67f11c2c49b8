import Akroasis.Decimal
import Akroasis.Radio.Codec

/-!
# Akroasis.Radio.Decode

The channels of a memory image (the decoding half of `syntonia::baofeng::bcd`, `tone_codec`
and `codec`), and what each field of a channel is after it has been encoded and decoded.

A channel is decoded from its two slots, 16 bytes of settings and 16 bytes of name.  Fields
read past the end of a slice are zero, as `get(i).copied().unwrap_or_default()` has them.
-/

namespace Akroasis.Radio

open Decimal (floor_eq)

/-! ## Frequencies -/

/-- One byte of packed decimal, in the loop of `lbcd4_decode`. -/
def bcdStep (result : Nat) (byte : UInt8) : Except BcdError Nat :=
  let hi := ((byte >>> 4) &&& 0x0F).toNat
  let lo := (byte &&& 0x0F).toNat
  if hi > 9 ∨ lo > 9 then .error (.invalidBcd byte) else .ok (result * 100 + hi * 10 + lo)

/-- The number that little-endian packed decimal denotes. -/
def bcdValue (bytes : Bytes) : Except BcdError Nat := bytes.reverse.foldlM bcdStep 0

def lbcd4Decode (bytes : FixedBytes 4) : Except BcdError Nat :=
  if bytes = noFrequency then .ok 0 else (bcdValue bytes.val).map (· * 10)

theorem bcdValue_cons (byte : UInt8) (bytes : Bytes) :
    bcdValue (byte :: bytes) = (bcdValue bytes).bind fun result => bcdStep result byte := by
  rw [bcdValue, List.reverse_cons, List.foldlM_append]
  simp only [List.foldlM_cons, List.foldlM_nil, bind_pure]
  rfl

variable {value : Nat}

theorem bcdStep_lt {result : Nat} {byte : UInt8} (h : bcdStep result byte = .ok value) :
    value < result * 100 + 100 := by
  obtain ⟨hdigits, hvalue⟩ := ite_error_eq_ok.mp h
  have := Except.ok.inj hvalue
  omega

theorem bcdValue_lt {bytes : Bytes} (h : bcdValue bytes = .ok value) :
    value < 100 ^ bytes.length := by
  induction bytes generalizing value with
  | nil =>
      obtain rfl : 0 = value := Except.ok.inj h
      decide
  | cons byte bytes ih =>
      rw [bcdValue_cons] at h
      obtain ⟨result, hresult, hstep⟩ := bind_eq_ok.mp h
      have hlt := ih hresult
      have := bcdStep_lt hstep
      rw [List.length_cons, Nat.pow_succ]
      omega

/-- A byte of two decimal digits. -/
theorem bcdStep_digits {hi lo : Nat} (hhi : hi < 10) (hlo : lo < 10) (result : Nat) :
    bcdStep result (UInt8.ofNat hi <<< 4 ||| UInt8.ofNat lo) =
      .ok (result * 100 + hi * 10 + lo) := by
  have hnibbles : ∀ h < 10, ∀ l < 10,
      (((UInt8.ofNat h <<< 4 ||| UInt8.ofNat l) >>> 4) &&& 0x0F).toNat = h ∧
        ((UInt8.ofNat h <<< 4 ||| UInt8.ofNat l) &&& 0x0F).toNat = l := by decide
  obtain ⟨h1, h2⟩ := hnibbles hi hhi lo hlo
  rw [bcdStep, h1, h2, if_neg (by omega)]

theorem digits_ne {hi lo : Nat} (hhi : hi < 10) (hlo : lo < 10) :
    UInt8.ofNat hi <<< 4 ||| UInt8.ofNat lo ≠ 0xFF := by
  have hall : ∀ h < 10, ∀ l < 10, UInt8.ofNat h <<< 4 ||| UInt8.ofNat l ≠ 0xFF := by decide
  exact hall hi hhi lo hlo

theorem bcdValue_bcdBytes (n value : Nat) :
    bcdValue (bcdBytes n value) = .ok (value % 100 ^ n) := by
  induction n generalizing value with
  | zero => simp [bcdBytes, bcdValue, Nat.mod_one, pure, Except.pure]
  | succ n ih =>
      have hmod : value % (100 * 100 ^ n) = value % 100 + 100 * (value / 100 % 100 ^ n) :=
        Nat.mod_mul
      rw [bcdBytes, bcdValue_cons, ih, Except.bind,
        bcdStep_digits (Nat.mod_lt _ (by decide)) (Nat.mod_lt _ (by decide)), Nat.pow_succ', hmod]
      congr 1
      omega

variable {bytes : FixedBytes 4} {freqHz : Nat}

theorem lbcd4Decode_lt (h : lbcd4Decode bytes = .ok freqHz) :
    freqHz < 1000000000 ∧ 10 ∣ freqHz := by
  rw [lbcd4Decode] at h
  split at h
  · obtain rfl := Except.ok.inj h
    decide
  · obtain ⟨value, hvalue, rfl⟩ := map_eq_ok.mp h
    have hlt := bcdValue_lt hvalue
    rw [bytes.length_val] at hlt
    exact ⟨by omega, Nat.dvd_mul_left 10 value⟩

/-- A byte is read as its two digits. -/
theorem bcdStep_eq_ok {result : Nat} {byte : UInt8} : bcdStep result byte = .ok value ↔
    byte.toNat / 16 ≤ 9 ∧ byte.toNat % 16 ≤ 9 ∧
      result * 100 + byte.toNat / 16 * 10 + byte.toNat % 16 = value := by
  have hnibbles : (byte >>> 4 &&& 0x0F).toNat = byte.toNat / 16 ∧
      (byte &&& 0x0F).toNat = byte.toNat % 16 := by
    have hlt := byte.toNat_lt
    refine ⟨?_, by simpa using Nat.and_two_pow_sub_one_eq_mod byte.toNat 4⟩
    have h := Nat.and_two_pow_sub_one_eq_mod (byte.toNat / 16) 4
    simp [Nat.shiftRight_eq_div_pow] at h ⊢
    omega
  simp only [bcdStep, hnibbles, ite_error_eq_ok, Except.ok.injEq]
  omega

theorem bcdStep_eq_zero {result : Nat} {byte : UInt8} :
    bcdStep result byte = .ok 0 ↔ result = 0 ∧ byte = 0 := by
  have hzero : (0 : UInt8).toNat = 0 := rfl
  rw [bcdStep_eq_ok, ← UInt8.toNat_inj]
  omega

/-- Only zero bytes denote zero. -/
theorem bcdValue_eq_zero {bytes : Bytes} : bcdValue bytes = .ok 0 ↔ ∀ byte ∈ bytes, byte = 0 := by
  induction bytes with
  | nil => simp [bcdValue, pure, Except.pure]
  | cons byte bytes ih =>
      rw [bcdValue_cons, bind_eq_ok, List.forall_mem_cons, ← ih]
      simp only [bcdStep_eq_zero]
      constructor
      · rintro ⟨result, hresult, rfl, hbyte⟩
        exact ⟨hbyte, hresult⟩
      · rintro ⟨hbyte, hresult⟩
        exact ⟨0, hresult, rfl, hbyte⟩

/-- Packed decimal of one length denotes a number in one way only. -/
theorem bcdValue_inj {bytes bytes' : Bytes} (hlen : bytes.length = bytes'.length)
    (h : bcdValue bytes = .ok value) (h' : bcdValue bytes' = .ok value) : bytes = bytes' := by
  induction bytes generalizing bytes' value with
  | nil => exact (List.length_eq_zero_iff.mp hlen.symm).symm
  | cons byte bytes ih =>
      cases bytes' with
      | nil => simp at hlen
      | cons byte' bytes' =>
          rw [bcdValue_cons] at h h'
          obtain ⟨result, hresult, hstep⟩ := bind_eq_ok.mp h
          obtain ⟨result', hresult', hstep'⟩ := bind_eq_ok.mp h'
          obtain ⟨hhi, hlo, hvalue⟩ := bcdStep_eq_ok.mp hstep
          obtain ⟨hhi', hlo', hvalue'⟩ := bcdStep_eq_ok.mp hstep'
          have hbyte : byte = byte' := UInt8.toNat_inj.mp (by omega)
          obtain rfl : result = result' := by omega
          rw [hbyte, ih (Nat.succ.inj hlen) hresult hresult']

/-- A frequency is read from one pattern of bytes only, apart from the erased one. -/
theorem lbcd4Decode_inj {bytes' : FixedBytes 4} (hne : bytes ≠ noFrequency)
    (hne' : bytes' ≠ noFrequency) (h : lbcd4Decode bytes = .ok freqHz)
    (h' : lbcd4Decode bytes' = .ok freqHz) : bytes = bytes' := by
  rw [lbcd4Decode, if_neg hne] at h
  rw [lbcd4Decode, if_neg hne'] at h'
  obtain ⟨value, hvalue, rfl⟩ := map_eq_ok.mp h
  obtain ⟨value', hvalue', hten⟩ := map_eq_ok.mp h'
  obtain rfl : value' = value := Nat.eq_of_mul_eq_mul_right (by decide) hten
  exact FixedBytes.ext (bcdValue_inj (bytes.length_val.trans bytes'.length_val.symm) hvalue hvalue')

/-- Two ways to write no frequency are read as 0 Hz: erased bytes and zero bytes. -/
theorem lbcd4Decode_eq_zero :
    lbcd4Decode bytes = .ok 0 ↔ bytes = noFrequency ∨ bytes = .replicate 4 0 := by
  have hzeros : bcdValue bytes.val = .ok 0 ↔ bytes = .replicate 4 0 := by
    rw [bcdValue_eq_zero, FixedBytes.ext_iff]
    show _ ↔ bytes.val = List.replicate 4 0
    rw [List.eq_replicate_iff, and_iff_right bytes.length_val]
  rw [lbcd4Decode]
  split
  · next h => simp [h]
  · next h =>
      rw [← hzeros, map_eq_ok]
      constructor
      · rintro ⟨value, hvalue, hten⟩
        obtain rfl : value = 0 := by omega
        exact .inr hvalue
      · rintro (heq | hvalue)
        · exact absurd heq h
        · exact ⟨0, hvalue, rfl⟩

theorem eq_zero_iff_of_lbcd4Decode (h : lbcd4Decode bytes = .ok freqHz)
    (hne : bytes ≠ noFrequency) : freqHz = 0 ↔ bytes = .replicate 4 0 := by
  have hzero : lbcd4Decode bytes = .ok 0 ↔ _ := lbcd4Decode_eq_zero
  rwa [h, Except.ok.injEq, or_iff_right hne] at hzero

/-- A frequency that four bytes of packed decimal can hold. -/
structure Encodable (freqHz : Nat) : Prop where
  lt : freqHz < 1000000000
  aligned : 10 ∣ freqHz

/-- Encoding fails exactly off the 10 Hz raster. -/
theorem lbcd4Encode_ok_iff : (∃ bytes, lbcd4Encode freqHz = .ok bytes) ↔ 10 ∣ freqHz := by
  rw [lbcd4Encode]
  by_cases hzero : freqHz = 0
  · simp [hzero]
  · by_cases haligned : freqHz % 10 = 0
    · rw [if_neg hzero, if_neg (not_not_intro haligned)]
      exact iff_of_true ⟨_, rfl⟩ (Nat.dvd_of_mod_eq_zero haligned)
    · simp [hzero, haligned, Nat.dvd_iff_mod_eq_zero]

theorem lbcd4Encode_of_ne_zero (hpos : freqHz ≠ 0)
    (h : lbcd4Encode freqHz = .ok bytes) : 10 ∣ freqHz ∧ bytes.val = bcdBytes 4 (freqHz / 10) := by
  refine ⟨lbcd4Encode_ok_iff.mp ⟨bytes, h⟩, ?_⟩
  rw [lbcd4Encode, if_neg hpos] at h
  split at h
  · cases h
  · exact (congrArg Subtype.val (Except.ok.inj h)).symm

theorem ne_noFrequency_of_lbcd4Encode (hpos : freqHz ≠ 0)
    (h : lbcd4Encode freqHz = .ok bytes) : bytes.val.getD 0 0 ≠ 0xFF ∧ bytes ≠ noFrequency := by
  have hfirst : bytes.val.getD 0 0 ≠ 0xFF := by
    rw [(lbcd4Encode_of_ne_zero hpos h).2]
    exact digits_ne (Nat.mod_lt _ (by decide)) (Nat.mod_lt _ (by decide))
  refine ⟨hfirst, ?_⟩
  rintro rfl
  exact hfirst rfl

/-- Eight digits are written, whatever the number of digits is: those above are lost. -/
theorem lbcd4Decode_of_lbcd4Encode
    (h : lbcd4Encode freqHz = .ok bytes) : lbcd4Decode bytes = .ok (freqHz % 1000000000) := by
  by_cases hzero : freqHz = 0
  · rw [lbcd4Encode, if_pos hzero] at h
    obtain rfl := Except.ok.inj h
    rw [lbcd4Decode, if_pos rfl, hzero]
  · obtain ⟨haligned, hval⟩ := lbcd4Encode_of_ne_zero hzero h
    rw [lbcd4Decode, if_neg (ne_noFrequency_of_lbcd4Encode hzero h).2, hval,
      bcdValue_bcdBytes, Except.map]
    congr 1
    omega

/-- A frequency other than zero is read back, and its bytes are not those of an erased slot. -/
theorem lbcd4Decode_lbcd4Encode (h : Encodable freqHz)
    (hpos : freqHz ≠ 0) (hencode : lbcd4Encode freqHz = .ok bytes) :
    lbcd4Decode bytes = .ok freqHz ∧ bytes.val.getD 0 0 ≠ 0xFF := by
  refine ⟨?_, (ne_noFrequency_of_lbcd4Encode hpos hencode).1⟩
  rw [lbcd4Decode_of_lbcd4Encode hencode, Nat.mod_eq_of_lt h.lt]

/-- **Faithful encoding**: of the frequencies that `lbcd4_encode` accepts, those below 1 GHz are
read back as they were, and no other is.  Two of these never share their bytes. -/
theorem lbcd4_faithful_iff (h : lbcd4Encode freqHz = .ok bytes) :
    (lbcd4Decode bytes = .ok freqHz ↔ freqHz < 1000000000) ∧
      ∀ other, lbcd4Encode other = .ok bytes → freqHz < 1000000000 → other < 1000000000 →
        other = freqHz := by
  have hread := lbcd4Decode_of_lbcd4Encode h
  constructor
  · rw [hread, Except.ok.injEq]
    omega
  · intro other hother hlt hlt'
    have hsame := (lbcd4Decode_of_lbcd4Encode hother).symm.trans hread
    rwa [Except.ok.injEq, Nat.mod_eq_of_lt hlt, Nat.mod_eq_of_lt hlt'] at hsame

/-- 145.5 MHz. -/
theorem lbcd4_faithful_two_metres : ∃ bytes, lbcd4Encode 145500000 = .ok bytes ∧
    lbcd4Decode bytes = .ok 145500000 := by
  have hencode : lbcd4Encode 145500000 = .ok ⟨bcdBytes 4 14550000, length_bcdBytes 4 _⟩ := rfl
  exact ⟨_, hencode, (lbcd4_faithful_iff hencode).1.mpr (by decide)⟩

/-- 1 GHz has a ninth digit, which is lost: it is read as 0 Hz and shares its bytes with 2 GHz. -/
theorem lbcd4_loses_gigahertz : ∃ bytes, lbcd4Encode 1000000000 = .ok bytes ∧
    lbcd4Decode bytes = .ok 0 ∧ lbcd4Encode 2000000000 = .ok bytes :=
  ⟨_, rfl, rfl, rfl⟩

/-! ## Tones -/

def CtcssTone.new (hz : ℚ) : Option CtcssTone :=
  if h : roundedTenths hz ∈ allCtcssTones then some ⟨hz, h⟩ else none

def DcsCode.new (code : Nat) : Option DcsCode :=
  if h : code ∈ allDcsCodes then some ⟨code, h⟩ else none

def decodeDcs (raw lo hi : Nat) (polarity : DcsPolarity) : Option ToneMode :=
  if lo ≤ raw ∧ raw ≤ hi then do
    let value ← allDcsCodes[raw - lo]?
    let code ← DcsCode.new value
    some (.dcs code polarity)
  else none

def decodeTone (raw : Nat) : ToneMode :=
  if raw = 0 ∨ raw = 0xFFFF then .none
  else if 600 ≤ raw then
    match CtcssTone.new (raw / 10) with
    | some tone => .ctcss tone
    | none => .none
  else
    match decodeDcs raw 1 104 .normal with
    | some mode => mode
    | none =>
        match decodeDcs raw 106 209 .inverted with
        | some mode => mode
        | none => .none

/-- The value of a CTCSS tone is a whole number of tenths. -/
def ToneMode.Exact : ToneMode → Prop
  | .ctcss tone => tone.hz = roundedTenths tone.hz / 10
  | _ => True

theorem roundedTenths_div (n : Nat) : roundedTenths (n / 10) = n := by
  have hfloor : ((n : ℚ) / 10 * 10 + 1 / 2).floor = n := floor_eq (by linarith) (by linarith)
  rw [roundedTenths, hfloor, Int.toNat_natCast]

theorem exact_ctcss (n : Nat) (hstandard : roundedTenths (n / 10) ∈ allCtcssTones) :
    (ToneMode.ctcss ⟨n / 10, hstandard⟩).Exact := by
  show (n : ℚ) / 10 = roundedTenths (n / 10) / 10
  rw [roundedTenths_div]

theorem CtcssTone.new_div {n : Nat} (h : n ∈ allCtcssTones) :
    ∃ hstandard, CtcssTone.new (n / 10) = some ⟨n / 10, hstandard⟩ := by
  have hstandard : roundedTenths ((n : ℚ) / 10) ∈ allCtcssTones := by rwa [roundedTenths_div]
  exact ⟨hstandard, by rw [CtcssTone.new, dif_pos hstandard]⟩

theorem ctcssTones_range : ∀ n ∈ allCtcssTones, 600 ≤ n ∧ n < 0xFFFF := by
  decide

theorem DcsCode.new_code (code : DcsCode) : DcsCode.new code.code = some code := by
  rw [DcsCode.new, dif_pos code.standard]

variable {tone : CtcssTone}

theorem encodeTone_ctcss (h : (ToneMode.ctcss tone).Exact) :
    encodeTone (.ctcss tone) = roundedTenths tone.hz := by
  have htenths : tone.hz * 10 = roundedTenths tone.hz :=
    (eq_div_iff (by norm_num)).mp h
  rw [encodeTone, floor_eq htenths.ge (by linarith), Int.toNat_natCast]

theorem idxOf?_dcsCode (code : DcsCode) :
    ∃ i < 104, allDcsCodes.idxOf? code.code = some i ∧ allDcsCodes[i]? = some code.code := by
  cases hi : allDcsCodes.idxOf? code.code with
  | none => exact absurd code.standard (List.idxOf?_eq_none_iff.mp hi)
  | some i =>
      obtain ⟨hlt, hget, -⟩ := List.idxOf?_eq_some_iff.mp hi
      exact ⟨i, hlt, rfl, by rw [List.getElem?_eq_getElem hlt, hget]⟩

theorem decodeDcs_of_getElem? {code : DcsCode} {i lo hi : Nat} {polarity : DcsPolarity}
    (hcode : allDcsCodes[i]? = some code.code) (hhi : lo + i ≤ hi) :
    decodeDcs (lo + i) lo hi polarity = some (.dcs code polarity) := by
  rw [decodeDcs, if_pos ⟨Nat.le_add_right lo i, hhi⟩, Nat.add_sub_cancel_left, hcode]
  simp [DcsCode.new_code]

/-- **An exact tone is read back.** -/
theorem decodeTone_encodeTone {tone : ToneMode} (h : tone.Exact) :
    decodeTone (encodeTone tone) = tone ∧ encodeTone tone < 0x10000 := by
  cases tone with
  | none => exact ⟨rfl, by decide⟩
  | ctcss tone =>
      obtain ⟨hlow, hhigh⟩ := ctcssTones_range _ tone.standard
      obtain ⟨hstandard, hnew⟩ := CtcssTone.new_div tone.standard
      have htone : (⟨roundedTenths tone.hz / 10, hstandard⟩ : CtcssTone) = tone := by
        cases tone
        simp only [CtcssTone.mk.injEq]
        exact h.symm
      rw [encodeTone_ctcss h, decodeTone, if_neg (by omega), if_pos hlow, hnew, htone]
      exact ⟨rfl, by omega⟩
  | dcs code polarity =>
      obtain ⟨i, hi, hindex, hcode⟩ := idxOf?_dcsCode code
      cases polarity with
      | normal =>
          have hraw : encodeTone (.dcs code .normal) = 1 + i := by
            simp only [encodeTone, hindex]
            omega
          rw [hraw, decodeTone, if_neg (by omega), if_neg (by omega),
            decodeDcs_of_getElem? hcode (by omega)]
          exact ⟨rfl, by omega⟩
      | inverted =>
          have hraw : encodeTone (.dcs code .inverted) = 106 + i := by
            simp only [encodeTone, hindex]
            omega
          have hnormal : decodeDcs (106 + i) 1 104 .normal = none := if_neg (by omega)
          rw [hraw, decodeTone, if_neg (by omega), if_neg (by omega), hnormal,
            decodeDcs_of_getElem? hcode (by omega)]
          exact ⟨rfl, by omega⟩

theorem exact_of_decodeDcs {raw lo hi : Nat} {polarity : DcsPolarity} {mode : ToneMode}
    (h : decodeDcs raw lo hi polarity = some mode) : mode.Exact := by
  rw [decodeDcs] at h
  split at h
  · simp only [Option.bind_eq_bind, Option.bind_eq_some_iff] at h
    obtain ⟨_, _, code, _, hmode⟩ := h
    obtain rfl := Option.some.inj hmode
    trivial
  · simp at h

/-- Tones that come from the memory of a radio are exact. -/
theorem exact_decodeTone (raw : Nat) : (decodeTone raw).Exact := by
  rw [decodeTone]
  split
  · trivial
  · split
    · split
      · next tone hnew =>
          rw [CtcssTone.new] at hnew
          split at hnew
          · obtain rfl := Option.some.inj hnew
            simp only [ToneMode.Exact, roundedTenths_div]
          · simp at hnew
      · trivial
    · split
      · next mode hmode => exact exact_of_decodeDcs hmode
      · split
        · next mode hmode => exact exact_of_decodeDcs hmode
        · trivial

/-- The standard tone that `CtcssTone::new` found for a value. -/
def CtcssTone.matched (tone : CtcssTone) : CtcssTone where
  hz := roundedTenths tone.hz / 10
  standard := by rw [roundedTenths_div]; exact tone.standard

/-- Tenths of a hertz around a standard tone. -/
theorem CtcssTone.tenths_bounds (tone : CtcssTone) :
    (roundedTenths tone.hz : ℚ) ≤ tone.hz * 10 + 1 / 2 ∧
    tone.hz * 10 + 1 / 2 < roundedTenths tone.hz + 1 := by
  have hpos := (ctcssTones_range _ tone.standard).1
  have hfloor : (tone.hz * 10 + 1 / 2).floor = roundedTenths tone.hz := by
    rw [roundedTenths] at hpos ⊢
    omega
  exact ⟨by exact_mod_cast Rat.le_floor_iff.mp hfloor.ge,
    by exact_mod_cast Rat.floor_lt_iff.mp (Int.lt_add_one_iff.mpr hfloor.le)⟩

/-- Not below the standard tone: the tenths that are cut off are the standard ones. -/
theorem encodeTone_of_fract_lt (h : Int.fract (tone.hz * 10) < 1 / 2) :
    encodeTone (.ctcss tone) = roundedTenths tone.hz := by
  obtain ⟨hlow, hhigh⟩ := tone.tenths_bounds
  have hfloor := Int.floor_add_fract (tone.hz * 10)
  have hle : (roundedTenths tone.hz : ℤ) ≤ ⌊tone.hz * 10⌋ := by
    have hlt : ((roundedTenths tone.hz : ℤ) : ℚ) < ⌊tone.hz * 10⌋ + 1 := by push_cast; linarith
    exact Int.lt_add_one_iff.mp (by exact_mod_cast hlt)
  have hge : (roundedTenths tone.hz : ℚ) ≤ tone.hz * 10 := by
    exact_mod_cast Int.le_floor.mp hle
  rw [encodeTone, floor_eq hge (by linarith), Int.toNat_natCast]

/-- Below the standard tone: one tenth is lost. -/
theorem encodeTone_of_le_fract (h : 1 / 2 ≤ Int.fract (tone.hz * 10)) :
    encodeTone (.ctcss tone) = roundedTenths tone.hz - 1 := by
  obtain ⟨hlow, hhigh⟩ := tone.tenths_bounds
  have hpos := (ctcssTones_range _ tone.standard).1
  have hfloor := Int.floor_add_fract (tone.hz * 10)
  have hone : Int.fract (tone.hz * 10) < 1 := Int.fract_lt_one _
  have hle : (⌊tone.hz * 10⌋ : ℤ) ≤ roundedTenths tone.hz - 1 := by
    have hlt : (⌊tone.hz * 10⌋ : ℚ) < ((roundedTenths tone.hz : ℤ) : ℚ) := by push_cast; linarith
    exact Int.le_sub_one_of_lt (by exact_mod_cast hlt)
  have hge : (roundedTenths tone.hz : ℤ) - 1 ≤ ⌊tone.hz * 10⌋ := by
    rw [Int.le_floor]
    push_cast
    linarith
  have heq : (tone.hz * 10).floor = (roundedTenths tone.hz : ℤ) - 1 := le_antisymm hle hge
  rw [encodeTone, heq]
  omega

/-- No two standard tones are a tenth apart. -/
theorem ctcssTones_apart : ∀ n ∈ allCtcssTones, 601 ≤ n ∧ n - 1 ∉ allCtcssTones := by
  decide

/-- What an accepted value is read back as: its standard tone, or no tone. -/
theorem decodeTone_encodeTone_ctcss (tone : CtcssTone) : decodeTone (encodeTone (.ctcss tone)) =
    if Int.fract (tone.hz * 10) < 1 / 2 then .ctcss tone.matched else .none := by
  obtain ⟨hlow, hhigh⟩ := ctcssTones_range _ tone.standard
  split
  · next h =>
    obtain ⟨hstandard, hnew⟩ := CtcssTone.new_div tone.standard
    rw [encodeTone_of_fract_lt h, decodeTone, if_neg (by omega), if_pos hlow, hnew]
    rfl
  · next h =>
    obtain ⟨hmin, hapart⟩ := ctcssTones_apart _ tone.standard
    have hnew : CtcssTone.new ((roundedTenths tone.hz - 1 : Nat) / 10) = none :=
      dif_neg (by rwa [roundedTenths_div])
    rw [encodeTone_of_le_fract (not_lt.mp h), decodeTone, if_neg (by omega),
      if_pos (by omega), hnew]

/-- **Accepted tones**: a value that `CtcssTone::new` accepts is read back as the standard tone it
was matched to exactly if it is not below that tone, that is, if its tenths are rounded down. -/
theorem ctcss_read_back_iff {hz : ℚ} (h : CtcssTone.new hz = some tone) :
    decodeTone (encodeTone (.ctcss tone)) = .ctcss tone.matched ↔ Int.fract (hz * 10) < 1 / 2 := by
  have hvalue : tone.hz = hz := by
    rw [CtcssTone.new] at h
    split at h
    · rw [← Option.some.inj h]
    · cases h
  rw [decodeTone_encodeTone_ctcss, hvalue]
  split
  · next hfract => exact iff_of_true rfl hfract
  · next hfract => exact iff_of_false (by simp) hfract

/-- 67.04 Hz is read back as 67.0 Hz. -/
theorem ctcss_read_back_above : ∃ tone, CtcssTone.new (6704 / 100) = some tone ∧
    decodeTone (encodeTone (.ctcss tone)) = .ctcss tone.matched := by
  have hnew : CtcssTone.new (6704 / 100) = some ⟨6704 / 100, by decide +kernel⟩ := by decide +kernel
  exact ⟨_, hnew, (ctcss_read_back_iff hnew).mpr (by decide +kernel)⟩

/-- 66.96 Hz is accepted as 67.0 Hz, encoded as 66.9 Hz, and read back as no tone. -/
theorem ctcss_below_lost : ∃ tone, CtcssTone.new (6696 / 100) = some tone ∧ tone.matched.hz = 67 ∧
    decodeTone (encodeTone (.ctcss tone)) = .none :=
  ⟨⟨6696 / 100, by decide +kernel⟩, by decide +kernel⟩

/-! ## Channels -/

def powerFromBits (byte14 : UInt8) : PowerLevel :=
  if byte14 &&& 0x03 = 1 then .low else if byte14 &&& 0x03 = 2 then .mid else .high

def bandwidthFromBit (byte15 : UInt8) : Bandwidth := if byte15 &&& 0x40 ≠ 0 then .wide else .narrow

def scanFromBit (byte15 : UInt8) : ScanMode := if byte15 &&& 0x04 ≠ 0 then .included else .skip

def bclFromBit (byte15 : UInt8) : Bool := decide (byte15 &&& 0x08 ≠ 0)

/-- The offset that a transmit frequency amounts to. -/
def offsetBetween (rxHz txHz : Frequency) : FrequencyOffset :=
  if txHz = rxHz then .none
  else if txHz > rxHz then .plus (txHz - rxHz) else .minus (rxHz - txHz)

/-- The transmit frequency and the offset; erased bytes are a channel that does not transmit. -/
def decodeTx (index rxHz : Nat) (bytes : FixedBytes 4) :
    Except CodecError (Option Frequency × FrequencyOffset) :=
  if bytes = noFrequency then .ok (none, .none)
  else do
    let txHz ← (lbcd4Decode bytes).mapError (.bcdDecode index)
    .ok (some txHz, offsetBetween rxHz txHz)

/-- One tone for both directions: that of the transmitter, or else that of the receiver. -/
def decodeTones (rxRaw txRaw : Nat) : ToneMode :=
  if decodeTone txRaw ≠ .none then decodeTone txRaw else decodeTone rxRaw

def decodeName (bytes : Bytes) : List Char :=
  trim (latin1 (bytes.takeWhile fun b => b ≠ 0xFF ∧ b ≠ 0x00))

/-- A channel from the bytes of its settings and those of its name. -/
def decodeSlot (index : Nat) (ch name : Bytes) : Except CodecError (Option Channel) :=
  if ch.getD 0 0 = 0xFF then .ok none
  else do
    let rx ← (lbcd4Decode (.slice 4 0 ch)).mapError (.bcdDecode index)
    let (txFreq, offset) ← decodeTx index rx (.slice 4 4 ch)
    .ok (some {
      index := index
      name := decodeName name
      rxFreq := rx
      txFreq := txFreq
      offset := offset
      tone := decodeTones (ofLeBytes [ch.getD 8 0, ch.getD 9 0])
        (ofLeBytes [ch.getD 10 0, ch.getD 11 0])
      power := powerFromBits (ch.getD 14 0)
      bandwidth := bandwidthFromBit (ch.getD 15 0)
      scan := scanFromBit (ch.getD 15 0)
      busyLock := bclFromBit (ch.getD 15 0) })

def decodeChannel (image : MemoryImage) (index : Nat) : Except CodecError (Option Channel) :=
  decodeSlot index (image.readBytes (channelBase + index * channelStride) 16)
    (image.readBytes (nameBase + index * nameStride) nameLength)

/-- The loop of `decode_all_channels`: the first slot that does not decode ends it. -/
def decodeEach (image : MemoryImage) : List Nat → Except CodecError (List Channel)
  | [] => .ok []
  | i :: indices => do
      let channel ← decodeChannel image i
      let channels ← decodeEach image indices
      .ok (channel.toList ++ channels)

def decodeAllChannels (image : MemoryImage) : Except CodecError FrequencyPlan :=
  (decodeEach image (List.range channelCount)).map fun channels => ⟨channels⟩

end Akroasis.Radio
