import Akroasis.Semaino.Pipeline
import Akroasis.Stoicheion.Baseline
import Mathlib.Analysis.Real.Sqrt

/-!
# Akroasis.Semaino.Aggregation

The pipeline with the baselines it really has (`semaino/src/aggregator.rs`,
`stoicheion/src/baseline.rs`): for each domain, the 168 buckets of a week, in exact arithmetic.

`aggregate` says what an aggregate is about without any baseline: the values of the earlier
signals of the same domain and the same hour of the week, their mean and their standard
deviation.  `bucket_observeAll` is the invariant of the aggregator, `score_summary` is the score of
a bucket, and `handled_eq_outliers` puts them into every run of the pipeline.
-/

namespace Akroasis

open Decimal (FloatValue)

/-! ## Scores -/

/-- The bits of the floating-point numbers that are reported; no decision reads them. -/
structure FloatBits where
  ofRat : ℚ → UInt64
  -- the root of a variance
  sqrt : ℚ → UInt64
  -- the z-score of a value, from the mean and the variance
  zScore : FloatValue → ℚ → ℚ → UInt64
  -- `f64::INFINITY.copysign(value - mean)`
  infinity : FloatValue → FloatValue → UInt64

namespace Stoicheion

open Semaino (AnomalyScore)
open Moments

/-- `ScoringConfig`. -/
structure ScoringConfig where
  elevatedThreshold : ℚ
  anomalousThreshold : ℚ
  minObservations : Nat

/-- `ScoringConfig::default`. -/
def ScoringConfig.default : ScoringConfig := ⟨2, 3, 10⟩

/-- A z-score, by the numbers it is computed from. -/
structure ZScore where
  value : FloatValue
  mean : ℚ
  variance : ℚ

/-- `z.abs() >= threshold`, without the root.  NaN is not at least anything. -/
def ZScore.atLeast (z : ZScore) (threshold : ℚ) : Bool :=
  match z.value with
  | .finite value => decide (threshold ^ 2 * z.variance ≤ (value - z.mean) ^ 2)
  | .infinite _ => true
  | .nan => false

/-- `==` of floating-point numbers. -/
def floatEq : FloatValue → FloatValue → Bool
  | .nan, _ => false
  | value, other => decide (value = other)

namespace Baseline

/-- `z_score`: none without variance. -/
def zScore (b : Baseline) (value : FloatValue) : Option ZScore :=
  b.mean?.bind fun mean => b.variance?.bind fun variance =>
    if 0 < variance then some ⟨value, mean, variance⟩ else none

/-- `score`. -/
def score (bits : FloatBits) (b : Baseline) (value : FloatValue) : AnomalyScore :=
  let config := ScoringConfig.default
  if b.count < config.minObservations then .insufficientData
  else
    match b.zScore value with
    | none =>
        let mean := (b.mean?.map .finite).getD value
        if floatEq value mean then .normal else .anomalous (bits.infinity value mean)
    | some z =>
        if z.atLeast config.anomalousThreshold then
          .anomalous (bits.zScore z.value z.mean z.variance)
        else if z.atLeast config.elevatedThreshold then
          .elevated (bits.zScore z.value z.mean z.variance)
        else .normal

theorem observe_accepted (xs : Multiset ℚ) (value : FloatValue) :
    (summary xs).observe value = summary (xs + (accepted [value] : List ℚ)) := by
  cases value with
  | finite value => exact observe_summary xs value
  | infinite negative => exact congrArg summary (add_zero _).symm
  | nan => exact congrArg summary (add_zero _).symm

end Baseline

namespace TemporalBucketedBaseline

/-- `bucket`. -/
def bucket (t : TemporalBucketedBaseline) (dayOfWeek hour : UInt8) : Option Baseline :=
  (slot dayOfWeek hour).map fun k => t.buckets k.1 k.2

/-- `score`: out of range, there is no data. -/
def score (bits : FloatBits) (t : TemporalBucketedBaseline) (dayOfWeek hour : UInt8)
    (value : FloatValue) :
    AnomalyScore :=
  (t.bucket dayOfWeek hour).elim .insufficientData fun b => b.score bits value

theorem slot_injective {hour hour' : UInt8 × UInt8} {k : Fin 7 × Fin 24}
    (h : slot hour.1 hour.2 = some k) (h' : slot hour'.1 hour'.2 = some k) : hour = hour' := by
  have hparts : ∀ {hour : UInt8 × UInt8}, slot hour.1 hour.2 = some k →
      hour.1.toNat = k.1.val ∧ hour.2.toNat = k.2.val := by
    intro hour h
    unfold slot at h
    split at h
    · split at h
      · obtain rfl := Option.some.inj h
        exact ⟨rfl, rfl⟩
      · cases h
    · cases h
  obtain ⟨hday, hhour⟩ := hparts h
  obtain ⟨hday', hhour'⟩ := hparts h'
  exact Prod.ext (UInt8.toNat_inj.mp (hday.trans hday'.symm))
    (UInt8.toNat_inj.mp (hhour.trans hhour'.symm))

end TemporalBucketedBaseline

/-! ## What a score says -/

/-- The variance of a sample. -/
def variance (xs : Multiset ℚ) : ℚ := sumSqDev xs / (xs.card - 1 : Nat)

/-- The standard deviation of a sample. -/
noncomputable def stddev (xs : Multiset ℚ) : ℝ := √(variance xs : ℚ)

/-- The value is `t` standard deviations or more away from the mean.  Where there is no
deviation, this is any other value, and NaN counts as one. -/
def Deviates (xs : Multiset ℚ) (t : ℚ) : FloatValue → Prop
  | .finite value => value ≠ mean xs ∧ t * stddev xs ≤ |(value : ℝ) - mean xs|
  | .infinite _ => True
  | .nan => stddev xs = 0

theorem variance_nonneg (xs : Multiset ℚ) : 0 ≤ variance xs := by
  refine div_nonneg (Multiset.sum_nonneg fun y hy => ?_) (Nat.cast_nonneg _)
  obtain ⟨x, _, rfl⟩ := Multiset.mem_map.mp hy
  exact sq_nonneg _

variable {xs : Multiset ℚ}

theorem stddev_eq_zero_iff : stddev xs = 0 ↔ variance xs = 0 := by
  rw [stddev, Real.sqrt_eq_zero (Rat.cast_nonneg.mpr (variance_nonneg xs)), Rat.cast_eq_zero]

/-- Where there is some deviation, the comparison without the root is the one with it. -/
theorem atLeast_iff_deviates (hvariance : 0 < variance xs) {t : ℚ} (ht : 0 < t)
    (value : FloatValue) :
    ZScore.atLeast ⟨value, mean xs, variance xs⟩ t = true ↔ Deviates xs t value := by
  have hpos : 0 < stddev xs := Real.sqrt_pos.mpr (Rat.cast_pos.mpr hvariance)
  cases value with
  | infinite negative => simp [ZScore.atLeast, Deviates]
  | nan => simp [ZScore.atLeast, Deviates, hpos.ne']
  | finite value =>
      have hscaled : 0 < (t : ℝ) * stddev xs := mul_pos (Rat.cast_pos.mpr ht) hpos
      have hsq : t ^ 2 * variance xs ≤ (value - mean xs) ^ 2 ↔
          t * stddev xs ≤ |(value : ℝ) - mean xs| := by
        rw [← abs_of_pos hscaled, ← sq_le_sq, mul_pow, stddev,
          Real.sq_sqrt (Rat.cast_nonneg.mpr (variance_nonneg xs))]
        exact_mod_cast Iff.rfl
      simp only [ZScore.atLeast, Deviates, decide_eq_true_eq, hsq]
      refine ⟨fun h => ⟨fun heq => ?_, h⟩, And.right⟩
      rw [heq, sub_self, abs_zero] at h
      exact absurd h (not_le.mpr hscaled)

/-- Without deviation, only the mean itself is near it. -/
theorem floatEq_iff_not_deviates (hvariance : variance xs = 0) (t : ℚ) (value : FloatValue) :
    floatEq value (.finite (mean xs)) = true ↔ ¬Deviates xs t value := by
  have hstddev := stddev_eq_zero_iff.mpr hvariance
  cases value <;> simp [floatEq, Deviates, hstddev]

open Classical in
/-- The score that a value should get after others. -/
noncomputable def verdict (bits : FloatBits) (xs : Multiset ℚ) (value : FloatValue) :
    AnomalyScore :=
  let z := if 0 < variance xs then bits.zScore value (mean xs) (variance xs)
    else bits.infinity value (.finite (mean xs))
  if xs.card < 10 then .insufficientData
  else if Deviates xs 3 value then .anomalous z
  else if Deviates xs 2 value then .elevated z
  else .normal

/-- Three deviations are two. -/
theorem Deviates.mono {t t' : ℚ} {value : FloatValue} (h : Deviates xs t value)
    (ht : t' ≤ t) : Deviates xs t' value := by
  cases value with
  | infinite | nan => exact h
  | finite value =>
      exact ⟨h.1, (mul_le_mul_of_nonneg_right (Rat.cast_le.mpr ht) (Real.sqrt_nonneg _)).trans h.2⟩

/-- **Notable** is what is two deviations or more away from ten values or more. -/
theorem isNotable_verdict (bits : FloatBits) (xs : Multiset ℚ) (value : FloatValue) :
    Semaino.SignalAggregator.isNotable (verdict bits xs value) = true ↔ 10 ≤ xs.card ∧
    Deviates xs 2 value := by
  unfold verdict
  by_cases hcount : xs.card < 10
  · simp [hcount, Semaino.SignalAggregator.isNotable]
  by_cases hthree : Deviates xs 3 value
  · simp [hcount, hthree, Semaino.SignalAggregator.isNotable,
      hthree.mono (show (2 : ℚ) ≤ 3 by norm_num)]
    omega
  by_cases htwo : Deviates xs 2 value
  · simp [hcount, hthree, htwo, Semaino.SignalAggregator.isNotable]
    omega
  · simp [hcount, hthree, htwo, Semaino.SignalAggregator.isNotable]

theorem score_summary (bits : FloatBits) (xs : Multiset ℚ) (value : FloatValue) :
    (Baseline.summary xs).score bits value = verdict bits xs value := by
  unfold Baseline.score verdict
  by_cases hcount : xs.card < 10
  · rw [if_pos hcount]
    exact if_pos hcount
  rw [if_neg hcount]
  refine (if_neg (show ¬(Baseline.summary xs).count < _ from hcount)).trans ?_
  obtain ⟨hmean, hvar⟩ := Baseline.accessors_summary (s := xs) (by omega)
  have hz : (Baseline.summary xs).zScore value =
      if 0 < variance xs then some ⟨value, mean xs, variance xs⟩ else none := by
    rw [Baseline.zScore, hmean, hvar]
    rfl
  by_cases hvariance : 0 < variance xs
  · rw [hz, if_pos hvariance, if_pos hvariance]
    have hthree := atLeast_iff_deviates hvariance (show (0 : ℚ) < 3 by norm_num) value
    have htwo := atLeast_iff_deviates hvariance (show (0 : ℚ) < 2 by norm_num) value
    classical exact if_congr hthree rfl (if_congr htwo rfl rfl)
  · have hzero : variance xs = 0 := le_antisymm (not_lt.mp hvariance) (variance_nonneg xs)
    rw [hz, if_neg hvariance, if_neg hvariance]
    simp only [hmean, Option.map_some, Option.getD_some]
    by_cases heq : floatEq value (.finite (mean xs)) = true
    · rw [if_pos heq, if_neg ((floatEq_iff_not_deviates hzero 3 value).mp heq),
        if_neg ((floatEq_iff_not_deviates hzero 2 value).mp heq)]
    · rw [if_neg heq, if_pos (not_not.mp (mt (floatEq_iff_not_deviates hzero 3 value).mpr heq))]

end Stoicheion

namespace Semaino

open Stoicheion

/-! ## Features -/

/-- What a signal carries besides its domain, as far as a feature is taken from it.  The
altitude of a fix is that of its coordinates. -/
inductive SignalDetail where
  | transmission (power : FloatValue)
  | jamming (estimatedPower : FloatValue)
  | beacon
  | nodeSeen (hopCount : UInt8)
  | message
  | position
  | wifi (rssi : Int8)
  | ble (rssi : Int8)
  | tracker
  | fix (altitude : Option FloatValue)
  | spoofingSuspected
  | temperature (celsius : FloatValue)
  | humidity (percent : FloatValue)
  | barometric (hpa : FloatValue)
  | other
  deriving DecidableEq

/-- `extract_feature`. -/
def extractFeature (signal : GeoSignal) (detail : SignalDetail) : Option FloatValue :=
  match signal.kind, detail with
  | .rf, .transmission power => some power
  | .rf, .jamming estimatedPower => some estimatedPower
  | .mesh, .nodeSeen hopCount => some (.finite hopCount.toNat)
  | .proximity, .wifi rssi => some (.finite rssi.toInt)
  | .proximity, .ble rssi => some (.finite rssi.toInt)
  | .gps, .fix altitude => signal.location.bind fun _ => altitude
  | .environmental, .temperature celsius => some celsius
  | .environmental, .humidity percent => some percent
  | .environmental, .barometric hpa => some hpa
  | _, _ => none

/-- Milliseconds of an hour. -/
def hourMillis : ℤ := 3600000

/-- `day_hour_from_timestamp`.  The first of January 1970 was a Thursday; a time that has no
civil date counts as the first hour of a Monday. -/
def dayHourFromTimestamp (fromUnixMillis : ℤ → Option Timestamp) (ts : Timestamp) : UInt8 × UInt8 :=
  if (fromUnixMillis ts.millis).isNone then (0, 0)
  else
    let hours := ts.millis / hourMillis
    (UInt8.ofNat ((hours / 24 + 3) % 7).toNat, UInt8.ofNat (hours % 24).toNat)

theorem exists_slot (fromUnixMillis : ℤ → Option Timestamp) (ts : Timestamp) :
    ∃ k, TemporalBucketedBaseline.slot (dayHourFromTimestamp fromUnixMillis ts).1
      (dayHourFromTimestamp fromUnixMillis ts).2 = some k := by
  unfold dayHourFromTimestamp
  split
  · exact ⟨(0, 0), rfl⟩
  · have hday : (UInt8.ofNat ((ts.millis / hourMillis / 24 + 3) % 7).toNat).toNat < 7 := by
      rw [UInt8.toNat_ofNat']
      omega
    have hhour : (UInt8.ofNat (ts.millis / hourMillis % 24).toNat).toNat < 24 := by
      rw [UInt8.toNat_ofNat']
      omega
    exact ⟨(⟨_, hday⟩, ⟨_, hhour⟩), by
      simp only [TemporalBucketedBaseline.slot, dif_pos hday, dif_pos hhour]⟩

/-- The baselines of the source. -/
abbrev exactBaselines (bits : FloatBits) (fromUnixMillis : ℤ → Option Timestamp) : Baselines where
  Detail := SignalDetail
  Feature := FloatValue
  Baseline := TemporalBucketedBaseline
  default := .new
  dayHour := dayHourFromTimestamp fromUnixMillis
  score t bucket value := t.score bits bucket.1 bucket.2 value
  bucketStats t bucket := (t.bucket bucket.1 bucket.2).elim (none, none) fun b =>
    (b.mean?.map bits.ofRat, b.variance?.map bits.sqrt)
  observe t bucket value := t.observe bucket.1 bucket.2 value
  extractFeature := extractFeature
  fromUnixMillis := fromUnixMillis

theorem SignalAggregator.observe_snd {B : Baselines} (agg : SignalAggregator B) {s : Signal B}
    {feature : B.Feature} {score : AnomalyScore} {stats : Option UInt64 × Option UInt64}
    (hfeature : B.extractFeature s.geo s.detail = some feature)
    (hscore : B.score ((agg.baselines.lookup s.geo.kind).getD B.default) (B.dayHour s.geo.timestamp)
      feature = score)
    (hstats : B.bucketStats ((agg.baselines.lookup s.geo.kind).getD B.default)
      (B.dayHour s.geo.timestamp) = stats) :
    (agg.observe s).2 = if isNotable score then some ⟨s.geo, s.signalId, score, stats.1, stats.2⟩
    else none := by
  simp [observe, hfeature, hscore, hstats]

/-! ## Outliers -/

section Outliers

variable {bits : FloatBits} {fromUnixMillis : ℤ → Option Timestamp}

/-- The hour of the week of a signal. -/
def Signal.hour (s : Signal (exactBaselines bits fromUnixMillis)) : UInt8 × UInt8 :=
  dayHourFromTimestamp fromUnixMillis s.geo.timestamp

/-- The finite features of the signals of a domain and an hour of the week. -/
def peers (signals : List (Signal (exactBaselines bits fromUnixMillis))) (kind : SignalKind)
    (hour : UInt8 × UInt8) : List ℚ :=
  Baseline.accepted
    ((signals.filter fun s => decide (s.geo.kind = kind ∧ s.hour = hour)).filterMap fun s =>
    extractFeature s.geo s.detail)

open Classical in
/-- What becomes of a signal after others: an aggregate, if it is an outlier among the earlier
ones of its domain and hour. -/
noncomputable def aggregate (earlier : List (Signal (exactBaselines bits fromUnixMillis)))
    (s : Signal (exactBaselines bits fromUnixMillis)) : Option AggregatedSignal :=
  (extractFeature s.geo s.detail).bind fun value =>
    let xs : Multiset ℚ := peers earlier s.geo.kind s.hour
    if 10 ≤ xs.card ∧ Deviates xs 2 value then
      some ⟨s.geo, s.signalId, verdict bits xs value, some (bits.ofRat (Moments.mean xs)),
        some (bits.sqrt (variance xs))⟩
    else none

/-- The outliers of a sequence of signals, each among those before it. -/
noncomputable def outliers (signals : List (Signal (exactBaselines bits fromUnixMillis))) :
    List AggregatedSignal :=
  (List.range signals.length).filterMap fun i => signals[i]?.bind (aggregate (signals.take i))

theorem peers_concat (signals : List (Signal (exactBaselines bits fromUnixMillis)))
    (s : Signal (exactBaselines bits fromUnixMillis)) (kind : SignalKind) (hour : UInt8 × UInt8) :
    peers (signals ++ [s]) kind hour = peers signals kind hour ++
      if s.geo.kind = kind ∧ s.hour = hour then
        Baseline.accepted (extractFeature s.geo s.detail).toList
      else [] := by
  simp only [peers, List.filter_append, List.filterMap_append, Baseline.accepted]
  congr 1
  by_cases hpeer : s.geo.kind = kind ∧ s.hour = hour
  · cases hfeature : extractFeature s.geo s.detail <;> simp [hpeer, hfeature]
  · simp [hpeer]

theorem outliers_concat (signals : List (Signal (exactBaselines bits fromUnixMillis)))
    (s : Signal (exactBaselines bits fromUnixMillis)) :
    outliers (signals ++ [s]) = outliers signals ++ (aggregate signals s).toList := by
  have hearlier : ∀ i ∈ List.range signals.length,
      (signals ++ [s])[i]?.bind (aggregate ((signals ++ [s]).take i)) =
        signals[i]?.bind (aggregate (signals.take i)) := by
    intro i hi
    have hlt := List.mem_range.mp hi
    rw [List.getElem?_append_left hlt, List.take_append_of_le_length hlt.le]
  rw [outliers, List.length_append, List.length_singleton, List.range_succ, List.filterMap_append,
    List.filterMap_congr hearlier, ← outliers]
  congr 1
  cases haggregate : aggregate signals s <;> simp [haggregate]

/-- What the aggregator holds for a domain. -/
def baselineOf (agg : SignalAggregator (exactBaselines bits fromUnixMillis)) (kind : SignalKind) :
    TemporalBucketedBaseline :=
  (agg.baselines.lookup kind).getD .new

/-- A signal with a feature changes one bucket of its domain. -/
theorem buckets_baselineOf_observe (agg : SignalAggregator (exactBaselines bits fromUnixMillis))
    (s : Signal (exactBaselines bits fromUnixMillis)) (kind : SignalKind) {hour : UInt8 × UInt8}
    {k : Fin 7 × Fin 24} (hk : TemporalBucketedBaseline.slot hour.1 hour.2 = some k) :
    (baselineOf (agg.observe s).1 kind).buckets k.1 k.2 =
      if s.geo.kind = kind ∧ s.hour = hour then
        ((extractFeature s.geo s.detail).toList.foldl Baseline.observe
          ((baselineOf agg kind).buckets k.1 k.2))
      else (baselineOf agg kind).buckets k.1 k.2 := by
  cases hfeature : extractFeature s.geo s.detail with
  | none => simp [SignalAggregator.observe, hfeature]
  | some value =>
      have hobserve : baselineOf (agg.observe s).1 kind =
          if kind = s.geo.kind then (baselineOf agg s.geo.kind).observe s.hour.1 s.hour.2 value
          else baselineOf agg kind := by
        simp only [SignalAggregator.observe, hfeature, baselineOf, Table.lookup_insert_ite]
        split <;> rfl
      rw [hobserve]
      by_cases hkind : kind = s.geo.kind
      · have hslot : TemporalBucketedBaseline.slot s.hour.1 s.hour.2 = some k ↔ s.hour = hour :=
          ⟨fun h => TemporalBucketedBaseline.slot_injective h hk, fun h => h ▸ hk⟩
        simp [hkind, TemporalBucketedBaseline.buckets_observe, hslot]
      · simp [hkind, Ne.symm hkind]

/-- **The aggregator** holds summaries of the features of each domain and hour. -/
theorem bucket_observeAll (signals : List (Signal (exactBaselines bits fromUnixMillis)))
    (kind : SignalKind) {hour : UInt8 × UInt8} {k : Fin 7 × Fin 24}
    (hk : TemporalBucketedBaseline.slot hour.1 hour.2 = some k) :
    (baselineOf (SignalAggregator.new.observeAll signals).1 kind).buckets k.1 k.2 =
      .summary (peers signals kind hour) := by
  induction signals using List.reverseRecOn with
  | nil => exact Baseline.summary_zero.symm
  | append_singleton signals s ih =>
      rw [SignalAggregator.observeAll_concat, buckets_baselineOf_observe _ _ _ hk, ih, peers_concat,
        ← Multiset.coe_add]
      split
      · cases extractFeature s.geo s.detail with
        | none => exact congrArg Baseline.summary (add_zero _).symm
        | some value => exact Baseline.observe_accepted _ value
      · rw [Multiset.coe_nil, add_zero]

/-- A round of the aggregator judges a signal by its peers. -/
theorem observe_eq_aggregate (signals : List (Signal (exactBaselines bits fromUnixMillis)))
    (s : Signal (exactBaselines bits fromUnixMillis)) :
    ((SignalAggregator.new.observeAll signals).1.observe s).2 = aggregate signals s := by
  unfold aggregate
  cases hfeature : extractFeature s.geo s.detail with
  | none => simp [SignalAggregator.observe, hfeature]
  | some value =>
      obtain ⟨k, hk⟩ := exists_slot fromUnixMillis s.geo.timestamp
      let xs : Multiset ℚ := peers signals s.geo.kind s.hour
      let baseline := baselineOf (SignalAggregator.new.observeAll signals).1 s.geo.kind
      have hbucket : baseline.bucket s.hour.1 s.hour.2 = some (.summary xs) := by
        rw [TemporalBucketedBaseline.bucket, Signal.hour, hk, Option.map_some,
          bucket_observeAll signals s.geo.kind hk]
        rfl
      have hscore : (exactBaselines bits fromUnixMillis).score baseline s.hour value =
          verdict bits xs value := by
        rw [← score_summary]
        exact congrArg (fun b => Option.elim b AnomalyScore.insufficientData _) hbucket
      have hstats : (exactBaselines bits fromUnixMillis).bucketStats baseline s.hour =
          ((Baseline.summary xs).mean?.map bits.ofRat,
            (Baseline.summary xs).variance?.map bits.sqrt) :=
        congrArg (fun b => Option.elim b (none, none) _) hbucket
      have hobserve : ((SignalAggregator.new.observeAll signals).1.observe s).2 =
          if SignalAggregator.isNotable (verdict bits xs value) then
            some ⟨s.geo, s.signalId, verdict bits xs value,
              (Baseline.summary xs).mean?.map bits.ofRat,
              (Baseline.summary xs).variance?.map bits.sqrt⟩
          else none :=
        SignalAggregator.observe_snd _ hfeature hscore hstats
      rw [hobserve, Option.bind_some]
      by_cases hnotable : 10 ≤ xs.card ∧ Deviates xs 2 value
      · obtain ⟨hmean, hvariance⟩ := Baseline.accessors_summary (s := xs) (by omega)
        rw [if_pos ((isNotable_verdict bits xs value).mpr hnotable), hmean, hvariance]
        exact (if_pos hnotable).symm
      · rw [if_neg (mt (isNotable_verdict bits xs value).mp hnotable)]
        exact (if_neg hnotable).symm

theorem notable_eq_outliers (signals : List (Signal (exactBaselines bits fromUnixMillis))) :
    SignalAggregator.notable signals = outliers signals := by
  induction signals using List.reverseRecOn with
  | nil => rfl
  | append_singleton signals s ih =>
      rw [SignalAggregator.notable, SignalAggregator.observeAll_concat, outliers_concat, ← ih,
        observe_eq_aggregate, SignalAggregator.notable]

/-- **Outliers**: in every interleaving of the tasks, what is handled are outliers among the
signals ingested so far, in order, each judged by the earlier signals of its domain and hour of the
week alone; when the pipeline returns, all outliers of the stream have been handled. -/
theorem handled_eq_outliers (config : SemainoConfig)
    (stream : List (StreamItem (exactBaselines bits fromUnixMillis))) (actions : List Action)
    (s : PipelineState (exactBaselines bits fromUnixMillis))
    (hrun : Machine.run PipelineState.step (.start config stream) actions = some s) :
    s.history.handled <+: outliers s.history.ingested ∧
      (s.main.hasReturned = true →
      s.history.handled = outliers (PipelineState.signalsOf stream)) := by
  have h : PipelineState.Lossless stream s := Machine.run_preserves (fun _ _ _ h hs => h.step hs)
    (PipelineState.lossless_start config stream) hrun
  constructor
  · rw [← notable_eq_outliers]
    exact h.handled_isPrefix
  · intro hreturned
    rw [← notable_eq_outliers]
    exact (h.complete hreturned).2.2.2.2

end Outliers

/-! ## A sample run -/

/-- Baselines that report no bits. -/
abbrev sampleBaselines : Baselines :=
  exactBaselines ⟨fun _ => 0, fun _ => 0, fun _ _ _ => 0, fun _ _ => 0⟩ fun _ =>
    some PipelineState.epoch

/-- Transmissions at two levels, and a stronger one. -/
def sampleTransmissions : List (StreamItem sampleBaselines) :=
  [-50, -52, -50, -52, -50, -52, -50, -52, -50, -52, -30].map fun power : ℚ =>
    .signal ⟨⟨.rf, PipelineState.epoch, none⟩, 1, .transmission (.finite power)⟩

/-- Each signal goes through before the next is received. -/
def sampleTurns : List Action :=
  (List.replicate 11
    [.fanRecv, .fanSend, .mainSignal PipelineState.epoch, .mainForward, .aggRecv,
      .aggScore]).flatten ++
  [.fanRecv, .mainSignal PipelineState.epoch, .aggRecv, .mainAggregated PipelineState.epochInput,
    .mainAggregated PipelineState.epochInput, .mainJoin, .mainJoin]

theorem handled_eq_outliers_stronger :
    ∃ s, Machine.run PipelineState.step (.start PipelineState.sampleConfig sampleTransmissions)
      sampleTurns = some s ∧
      s.main.hasReturned = true ∧ s.history.handled.length = 1 ∧
      s.history.handled = outliers (PipelineState.signalsOf sampleTransmissions) := by
  have hreturns :
      (Machine.run PipelineState.step (.start PipelineState.sampleConfig sampleTransmissions)
      sampleTurns).map (fun s => (s.main.hasReturned, s.history.handled.length)) =
        some (true, 1) := by
    decide +kernel
  obtain ⟨s, hrun, heq⟩ := Option.map_eq_some_iff.mp hreturns
  obtain ⟨hreturned, hlength⟩ := Prod.mk.inj heq
  obtain ⟨-, hcomplete⟩ :=
    handled_eq_outliers PipelineState.sampleConfig sampleTransmissions sampleTurns s hrun
  exact ⟨s, hrun, hreturned, hlength, hcomplete hreturned⟩

end Semaino

end Akroasis
