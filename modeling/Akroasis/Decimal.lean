import Akroasis.Text
import Mathlib.Algebra.Order.Floor.Ring
import Mathlib.Data.Rat.Floor
import Mathlib.Tactic.FieldSimp
import Mathlib.Tactic.Linarith

/-!
# Akroasis.Decimal

Numbers as decimal text: unsigned integers, and floating-point numbers whose values are
taken to be exact.

`formatFixed` writes a number with a fixed number of places and `parseFloat` reads what
`f64::from_str` accepts; `formatFixed_div` and `parseFloat_fixedPoint` say that a number with
no more places is read back.  The module names nothing of the repository.
-/

namespace Akroasis.Decimal

/-! ## Unsigned integers -/

/-- `str::parse` of an unsigned integer: an optional plus sign, at least one digit and no more
than the largest value. -/
def parseUnsigned (largest : Nat) (s : Text) : Option Nat :=
  let digits := if s.head? = some '+' then s.tail else s
  if digits = [] then none
  else if digits.all Char.isDigit then
    if Nat.ofDigitChars 10 digits 0 ≤ largest then some (Nat.ofDigitChars 10 digits 0) else none
  else none

/-- An integer with leading zeros, as `{:0width}` writes it. -/
def padded (width n : Nat) : Text := (Nat.toDigits 10 n).leftpad width '0'

variable {n : Nat}

theorem isDigit_of_mem_toDigits {c : Char} (h : c ∈ Nat.toDigits 10 n) : c.isDigit = true :=
  Nat.isDigit_of_mem_toDigits (by decide) (by decide) h

theorem isDigit_of_mem_padded {width : Nat} {c : Char} (h : c ∈ padded width n) :
    c.isDigit = true := by
  obtain h | h := List.mem_append.mp h
  · rw [(List.mem_replicate.mp h).2]
    rfl
  · exact isDigit_of_mem_toDigits h

theorem padded_ne_nil (width n : Nat) : padded width n ≠ [] := by
  simp [padded, List.leftpad]

theorem ofDigitChars_padded (width n : Nat) : Nat.ofDigitChars 10 (padded width n) 0 = n := by
  simp [padded, List.leftpad, Nat.ofDigitChars_append]

theorem length_padded {width : Nat} (hpos : 0 < width) (h : n < 10 ^ width) :
    (padded width n).length = width := by
  have hle := (Nat.length_toDigits_le_iff (by decide) hpos).mpr h
  rw [padded, List.leftpad, List.length_append, List.length_replicate]
  omega

theorem toDigits_eq_padded (n : Nat) : Nat.toDigits 10 n = padded 0 n := by
  simp [padded, List.leftpad]

/-- An integer that has been written is read back. -/
theorem parseUnsigned_padded {largest width : Nat} (h : n ≤ largest) :
    parseUnsigned largest (padded width n) = some n := by
  have hall : (padded width n).all Char.isDigit = true :=
    List.all_eq_true.mpr fun c hc => isDigit_of_mem_padded hc
  have hplus : (padded width n).head? ≠ some '+' := by
    intro hhead
    exact absurd (isDigit_of_mem_padded (List.mem_of_mem_head? hhead)) (by decide)
  rw [parseUnsigned, if_neg hplus, if_neg (padded_ne_nil width n), if_pos hall, ofDigitChars_padded,
    if_pos h]

theorem parseUnsigned_toDigits {largest : Nat} (h : n ≤ largest) :
    parseUnsigned largest (Nat.toDigits 10 n) = some n :=
  toDigits_eq_padded n ▸ parseUnsigned_padded h

/-! ## Values -/

theorem floor_eq {q : ℚ} (hlow : n ≤ q) (hhigh : q < n + 1) : q.floor = n := by
  have hle : (n : ℤ) ≤ q.floor := Rat.le_floor_iff.mpr (by exact_mod_cast hlow)
  have hlt : q.floor < (n : ℤ) + 1 := Rat.floor_lt_iff.mpr (by exact_mod_cast hhigh)
  omega

/-- The value of a floating-point number. -/
inductive FloatValue
  | finite (value : ℚ)
  | infinite (negative : Bool)
  | nan
  deriving DecidableEq

namespace FloatValue

/-- `f64::abs`. -/
def abs : FloatValue → FloatValue
  | .finite value => .finite |value|
  | .infinite _ => .infinite false
  | .nan => .nan

/-- The product with a positive number. -/
def scale (factor : ℚ) : FloatValue → FloatValue
  | .finite value => .finite (value * factor)
  | other => other

/-- `f64::round`, which rounds halves away from zero. -/
def round : FloatValue → FloatValue
  | .finite value => .finite (if value < 0 then -(-value + 1 / 2).floor else (value + 1 / 2).floor)
  | other => other

/-- `value > bound`. -/
def above (bound : ℚ) : FloatValue → Bool
  | .finite value => bound < value
  | .infinite negative => !negative
  | .nan => false

/-- `value >= bound`. -/
def atLeast (bound : ℚ) : FloatValue → Bool
  | .finite value => bound ≤ value
  | .infinite negative => !negative
  | .nan => false

/-- `value <= bound`. -/
def atMost (bound : ℚ) : FloatValue → Bool
  | .finite value => value ≤ bound
  | .infinite negative => negative
  | .nan => false

/-- `value as u64`, which cuts off the fraction and saturates. -/
def asU64 : FloatValue → Nat
  | .finite value => min (2 ^ 64 - 1) value.floor.toNat
  | .infinite negative => if negative then 0 else 2 ^ 64 - 1
  | .nan => 0

theorem asU64_natCast (n : Nat) : asU64 (.finite n) = min (2 ^ 64 - 1) n := by
  rw [asU64, floor_eq le_rfl (by linarith), Int.toNat_natCast]

theorem round_natCast (n : Nat) : round (.finite n) = .finite n := by
  have hfloor : ((n : ℚ) + 1 / 2).floor = n := floor_eq (by linarith) (by linarith)
  rw [round, if_neg (not_lt.mpr n.cast_nonneg), hfloor, Int.cast_natCast]

end FloatValue

/-! ## Fixed places -/

/-- The nearest integer of a number that is not negative, and the even one of two. -/
def roundHalfEven (q : ℚ) : Nat :=
  let whole := q.floor.toNat
  if q - whole < 1 / 2 ∨ (q - whole = 1 / 2 ∧ whole % 2 = 0) then whole else whole + 1

/-- `n / 10 ^ places` with its last places behind the point. -/
def fixedPoint (places n : Nat) : Text :=
  Nat.toDigits 10 (n / 10 ^ places) ++ '.' :: padded places (n % 10 ^ places)

/-- `{:.places}` of a number that is not negative, for at least one place. -/
def formatFixed (places : Nat) (q : ℚ) : Text := fixedPoint places (roundHalfEven (q * 10 ^ places))

theorem roundHalfEven_natCast (n : Nat) : roundHalfEven n = n := by
  have hfloor : ((n : ℚ).floor).toNat = n := by
    rw [floor_eq le_rfl (by linarith), Int.toNat_natCast]
  simp [roundHalfEven, hfloor]

/-- A number with no more places is written exactly. -/
theorem formatFixed_div (places n : Nat) :
    formatFixed places (n / 10 ^ places) = fixedPoint places n := by
  have hpow : (10 : ℚ) ^ places ≠ 0 := by positivity
  rw [formatFixed, div_mul_cancel₀ _ hpow, roundHalfEven_natCast]

/-! ## Reading numbers -/

/-- The sign in front of a number, and the number. -/
def splitSign : Text → Bool × Text
  | '-' :: s => (true, s)
  | '+' :: s => (false, s)
  | s => (false, s)

/-- The exponent behind a number: nothing, or an `e`, a sign and at least one digit. -/
def parseExponent : Text → Option ℤ
  | [] => some 0
  | c :: s =>
      let (negative, digits) := splitSign s
      if (c = 'e' ∨ c = 'E') ∧ digits ≠ [] ∧ digits.all Char.isDigit then
        some (if negative then -Nat.ofDigitChars 10 digits 0 else Nat.ofDigitChars 10 digits 0)
      else none

/-- Digits, at most one point before, between or behind them, and an exponent. -/
def parseNumber (s : Text) : Option ℚ :=
  let whole := s.takeWhile Char.isDigit
  let rest := s.dropWhile Char.isDigit
  let fraction := if rest.head? = some '.' then rest.tail.takeWhile Char.isDigit else []
  let behind := if rest.head? = some '.' then rest.tail.dropWhile Char.isDigit else rest
  if whole = [] ∧ fraction = [] then none
  else (parseExponent behind).map fun exponent : ℤ =>
    (Nat.ofDigitChars 10 (whole ++ fraction) 0 : ℚ) * 10 ^ (exponent - fraction.length)

/-- `str::parse` of a floating-point number. -/
def parseFloat (s : Text) : Option FloatValue :=
  let (negative, body) := splitSign s
  let word := body.map Char.toLower
  if word = "inf".toList ∨ word = "infinity".toList then some (.infinite negative)
  else if word = "nan".toList then some .nan
  else (parseNumber body).map fun value => .finite (if negative then -value else value)

theorem splitSign_of_isDigit {c : Char} {s : Text} (h : c.isDigit = true) :
    splitSign (c :: s) = (false, c :: s) := by
  unfold splitSign
  split
  · next heq =>
      obtain ⟨rfl, -⟩ := List.cons.inj heq
      simp at h
  · next heq =>
      obtain ⟨rfl, -⟩ := List.cons.inj heq
      simp at h
  · rfl

theorem takeWhile_digits {digits s : Text} (h : ∀ c ∈ digits, c.isDigit = true) :
    (digits ++ '.' :: s).takeWhile Char.isDigit = digits ∧
      (digits ++ '.' :: s).dropWhile Char.isDigit = '.' :: s := by
  rw [List.takeWhile_append_of_pos h, List.dropWhile_append_of_pos h]
  simp

theorem parseNumber_fixedPoint {places : Nat} (hpos : 0 < places) (n : Nat) :
    parseNumber (fixedPoint places n) = some ((n : ℚ) / 10 ^ places) := by
  have hwhole : ∀ c ∈ Nat.toDigits 10 (n / 10 ^ places), c.isDigit = true :=
    fun c hc => isDigit_of_mem_toDigits hc
  have hfraction : ∀ c ∈ padded places (n % 10 ^ places), c.isDigit = true :=
    fun c hc => isDigit_of_mem_padded hc
  have htake : (padded places (n % 10 ^ places)).takeWhile Char.isDigit =
      padded places (n % 10 ^ places) :=
    List.takeWhile_eq_self_iff.mpr hfraction
  have hdrop : (padded places (n % 10 ^ places)).dropWhile Char.isDigit = [] :=
    List.dropWhile_eq_nil_iff.mpr hfraction
  have hlen : (padded places (n % 10 ^ places)).length = places :=
    length_padded hpos (Nat.mod_lt _ (by positivity))
  have hvalue : Nat.ofDigitChars 10
      (Nat.toDigits 10 (n / 10 ^ places) ++ padded places (n % 10 ^ places)) 0 = n := by
    rw [Nat.ofDigitChars_append, Nat.ofDigitChars_eq_ofDigitChars_zero, hlen, ofDigitChars_padded,
      Nat.ofDigitChars_ten_toDigits, Nat.div_add_mod]
  simp only [parseNumber, fixedPoint, takeWhile_digits hwhole, List.head?_cons, List.tail_cons,
    if_true, htake, hdrop, hlen, hvalue, parseExponent, padded_ne_nil, and_false, if_false,
    Option.map_some,
    zero_sub, zpow_neg, zpow_natCast, div_eq_mul_inv]

/-- **A number that has been written is read back**, if it has no more places. -/
theorem parseFloat_fixedPoint {places : Nat} (hpos : 0 < places) (n : Nat) :
    parseFloat (fixedPoint places n) = some (.finite (n / 10 ^ places)) := by
  have hpoint : '.' ∈ (fixedPoint places n).map Char.toLower :=
    List.mem_map.mpr ⟨'.', by simp [fixedPoint], rfl⟩
  have hsign : splitSign (fixedPoint places n) = (false, fixedPoint places n) := by
    obtain ⟨c, digits, hdigits⟩ := List.exists_cons_of_ne_nil
      (Nat.toDigits_ne_nil : Nat.toDigits 10 (n / 10 ^ places) ≠ [])
    rw [fixedPoint, hdigits, List.cons_append]
    exact splitSign_of_isDigit (isDigit_of_mem_toDigits (hdigits ▸ List.mem_cons_self))
  have hword (word : Text) (hclear : '.' ∉ word) : (fixedPoint places n).map Char.toLower ≠ word :=
    fun h => hclear (h ▸ hpoint)
  rw [parseFloat, hsign]
  simp only [hword _ (show '.' ∉ "inf".toList by simp),
    hword _ (show '.' ∉ "infinity".toList by simp), hword _ (show '.' ∉ "nan".toList by simp),
    or_self, if_false, parseNumber_fixedPoint hpos,
    Option.map_some, Bool.false_eq_true]

end Akroasis.Decimal
