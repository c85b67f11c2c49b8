import Akroasis.Decimal
import Akroasis.Moments
import Mathlib.Algebra.BigOperators.Fin
import Mathlib.Data.Fintype.BigOperators

/-!
# Akroasis.Stoicheion.Baseline

Running statistics (`stoicheion/src/baseline.rs`): a baseline that takes one observation at a
time, the merge of two baselines, and the 168 buckets of a week, in exact arithmetic.

`summary` is what a baseline is for, in closed form.  An observation and a merge take
summaries to summaries (`observe_summary`, `merge_summary`), so however a baseline came about
it is the summary of what it was told, and the order of observations and merges is lost.
-/

namespace Akroasis.Stoicheion

open Decimal (FloatValue)
open Moments

/-- `Baseline`, with exact numbers.  The infinities stand for no observation. -/
@[ext] structure Baseline where
  count : Nat
  mean : ℚ
  m2 : ℚ
  min : WithTop ℚ
  max : WithBot ℚ

namespace Baseline

/-- `new`. -/
def new : Baseline := ⟨0, 0, 0, ⊤, ⊥⟩

/-- `observe`: a value that is not finite is rejected. -/
def observe (b : Baseline) : FloatValue → Baseline
  | .finite value =>
      let count := b.count + 1
      let delta := value - b.mean
      let mean := b.mean + delta / count
      let delta2 := value - mean
      { count := count
        mean := mean
        m2 := delta * delta2 + b.m2
        min := if (value : WithTop ℚ) < b.min then value else b.min
        max := if b.max < (value : WithBot ℚ) then value else b.max }
  | .infinite _ | .nan => b

/-- `mean()`. -/
def mean? (b : Baseline) : Option ℚ := if b.count = 0 then none else some b.mean

/-- `variance()`, of a sample. -/
def variance? (b : Baseline) : Option ℚ :=
  if b.count < 2 then none else some (b.m2 / (b.count - 1 : Nat))

/-- `merge`. -/
def merge (b other : Baseline) : Baseline :=
  if other.count = 0 then b
  else if b.count = 0 then other
  else
    let combinedCount := b.count + other.count
    let delta := other.mean - b.mean
    { count := combinedCount
      mean := delta * (other.count / combinedCount) + b.mean
      m2 := b.m2 + (delta * delta * (b.count * other.count / combinedCount) + other.m2)
      min := if other.min < b.min then other.min else b.min
      max := if b.max < other.max then other.max else b.max }

/-- The baseline that observed a sequence of values. -/
def observeAll (values : List FloatValue) : Baseline := values.foldl observe new

/-! ## Summaries -/

/-- What a baseline should hold of its observations. -/
def summary (s : Multiset ℚ) : Baseline where
  count := s.card
  mean := Moments.mean s
  m2 := sumSqDev s
  min := (s.map (↑)).inf
  max := (s.map (↑)).sup

theorem summary_zero : summary 0 = new := by simp [summary, new]

/-- **Merge**: two summaries give the summary of all. -/
theorem merge_summary (s t : Multiset ℚ) : (summary s).merge (summary t) = summary (s + t) := by
  unfold merge
  by_cases ht : t = 0
  · rw [if_pos (show (summary t).count = 0 by simp [summary, ht]), ht, add_zero]
  rw [if_neg (show (summary t).count ≠ 0 by simpa [summary] using ht)]
  by_cases hs : s = 0
  · rw [if_pos (show (summary s).count = 0 by simp [summary, hs]), hs, zero_add]
  rw [if_neg (show (summary s).count ≠ 0 by simpa [summary] using hs)]
  ext1
  · exact (Multiset.card_add s t).symm
  · simp only [summary, mean_add hs]
    push_cast
    ring
  · simp only [summary, sumSqDev_add hs]
    push_cast
    ring
  · simp only [summary, Multiset.map_add, Multiset.inf_add]
    exact ite_lt_eq_min _ _
  · simp only [summary, Multiset.map_add, Multiset.sup_add]
    exact ite_lt_eq_max _ _

/-- **Observe**: the online update is the merge with a single observation. -/
theorem observe_summary (s : Multiset ℚ) (value : ℚ) :
    (summary s).observe (.finite value) = summary (s + {value}) := by
  unfold observe
  ext1
  · simp [summary]
  · by_cases hs : s = 0
    · simp [summary, hs]
    · simp only [summary, mean_add hs, mean_singleton, Multiset.card_singleton]
      push_cast
      ring
  · by_cases hs : s = 0
    · simp [summary, hs]
    · have hcard := cast_card_add_ne_zero (t := ({value} : Multiset ℚ)) hs
      simp only [summary, sumSqDev_add hs, mean_singleton, sumSqDev_singleton,
        Multiset.card_singleton]
      push_cast at hcard ⊢
      field_simp
      ring
  · simp only [summary, Multiset.map_add, Multiset.inf_add, Multiset.map_singleton,
      Multiset.inf_singleton]
    exact ite_lt_eq_min _ _
  · simp only [summary, Multiset.map_add, Multiset.sup_add, Multiset.map_singleton,
      Multiset.sup_singleton]
    exact ite_lt_eq_max _ _

/-- The values that a baseline does not reject. -/
def accepted (values : List FloatValue) : List ℚ :=
  values.filterMap fun
    | .finite value => some value
    | .infinite _ | .nan => none

theorem accepted_finite (xs : List ℚ) : accepted (xs.map .finite) = xs := by
  rw [accepted, List.filterMap_map]
  exact List.filterMap_some

/-- **A baseline is the summary of what it has accepted.** -/
theorem observeAll_eq_summary (values : List FloatValue) :
    observeAll values = summary (accepted values) := by
  induction values using List.reverseRecOn with
  | nil => exact summary_zero.symm
  | append_singleton values value ih =>
      have haccepted : accepted (values ++ [value]) = accepted values ++ accepted [value] :=
        List.filterMap_append
      rw [observeAll, List.foldl_append, List.foldl_cons, List.foldl_nil, ← observeAll, ih,
        haccepted, ← Multiset.coe_add]
      cases value with
      | finite value => exact observe_summary _ value
      | infinite negative => exact congrArg summary (add_zero _).symm
      | nan => exact congrArg summary (add_zero _).symm

theorem observeAll_finite (xs : List ℚ) : observeAll (xs.map .finite) = summary xs := by
  rw [observeAll_eq_summary, accepted_finite]

/-- The extremes of a sequence are among its values. -/
theorem summary_extremes {xs : List ℚ} (h : xs ≠ []) :
    (∃ lo ∈ xs, (summary xs).min = lo ∧ ∀ x ∈ xs, lo ≤ x) ∧
      ∃ hi ∈ xs, (summary xs).max = hi ∧ ∀ x ∈ xs, x ≤ hi := by
  have hne : (xs : Multiset ℚ) ≠ 0 := mt (Multiset.coe_eq_zero xs).mp h
  exact ⟨exists_inf_coe hne, exists_sup_coe hne⟩

/-- The accessors of a summary of two or more observations. -/
theorem accessors_summary {s : Multiset ℚ} (h : 2 ≤ s.card) :
    (summary s).mean? = some (Moments.mean s) ∧
      (summary s).variance? = some (sumSqDev s / (s.card - 1 : Nat)) :=
  ⟨if_neg (show s.card ≠ 0 by omega), if_neg (show ¬s.card < 2 by omega)⟩

end Baseline

/-! ## Ways to come by a baseline -/

/-- How a baseline came about: observations and merges in any order, with the other side of a
merge built in any way. -/
inductive History where
  | new
  | observe (h : History) (value : ℚ)
  | merge (h other : History)

namespace History

def baseline : History → Baseline
  | new => .new
  | observe h value => h.baseline.observe (.finite value)
  | merge h other => h.baseline.merge other.baseline

/-- All that was observed, on either side of every merge. -/
def observations : History → Multiset ℚ
  | new => 0
  | observe h value => h.observations + {value}
  | merge h other => h.observations + other.observations

theorem baseline_eq_summary (h : History) : h.baseline = .summary h.observations := by
  induction h with
  | new => exact Baseline.summary_zero.symm
  | observe h value ih => rw [baseline, ih, Baseline.observe_summary, observations]
  | merge h other ih ih' => rw [baseline, ih, ih', Baseline.merge_summary, observations]

end History

/-! ## The buckets of a week -/

/-- `TemporalBucketedBaseline`. -/
structure TemporalBucketedBaseline where
  buckets : Fin 7 → Fin 24 → Baseline

namespace TemporalBucketedBaseline

def new : TemporalBucketedBaseline := ⟨fun _ _ => .new⟩

/-- The bucket of a day and an hour. -/
def slot (dayOfWeek hour : UInt8) : Option (Fin 7 × Fin 24) :=
  if hday : dayOfWeek.toNat < 7 then
    if hhour : hour.toNat < 24 then some (⟨dayOfWeek.toNat, hday⟩, ⟨hour.toNat, hhour⟩) else none
  else none

/-- `observe`: out of range, nothing happens. -/
def observe (t : TemporalBucketedBaseline) (dayOfWeek hour : UInt8) (value : FloatValue) :
    TemporalBucketedBaseline :=
  match slot dayOfWeek hour with
  | some (day, hour) =>
      ⟨Function.update t.buckets day
        (Function.update (t.buckets day) hour ((t.buckets day hour).observe value))⟩
  | none => t

/-- `global_baseline`. -/
def globalBaseline (t : TemporalBucketedBaseline) : Baseline :=
  (List.finRange 7).foldl
    (fun merged day => (List.finRange 24).foldl
      (fun merged hour => merged.merge (t.buckets day hour)) merged)
    .new

/-- An observation for a day and an hour. -/
structure Observation where
  dayOfWeek : UInt8
  hour : UInt8
  value : ℚ

/-- The observations that fall into a bucket, with the bucket. -/
def placed (observations : List Observation) : List ((Fin 7 × Fin 24) × ℚ) :=
  observations.filterMap fun o => (slot o.dayOfWeek o.hour).map fun k => (k, o.value)

def observeAll (observations : List Observation) : TemporalBucketedBaseline :=
  observations.foldl (fun t o => t.observe o.dayOfWeek o.hour (.finite o.value)) new

/-- What a bucket is told. -/
def told (observations : List Observation) (k : Fin 7 × Fin 24) : List ℚ :=
  ((placed observations).filter fun x => decide (x.1 = k)).map Prod.snd

theorem told_append (os os' : List Observation) (k : Fin 7 × Fin 24) :
    told (os ++ os') k = told os k ++ told os' k := by
  simp only [told, placed, List.filterMap_append, List.filter_append, List.map_append]

/-- An observation goes to one bucket, or to none. -/
theorem buckets_observe (t : TemporalBucketedBaseline) (dayOfWeek hour : UInt8) (value : FloatValue)
    (k : Fin 7 × Fin 24) : (t.observe dayOfWeek hour value).buckets k.1 k.2 =
      if slot dayOfWeek hour = some k then (t.buckets k.1 k.2).observe value
        else t.buckets k.1 k.2 := by
  unfold observe
  cases slot dayOfWeek hour with
  | none => rfl
  | some other =>
      by_cases hday : k.1 = other.1
      · by_cases hhour : k.2 = other.2
        · obtain rfl : k = other := Prod.ext hday hhour
          simp
        · have hne : other ≠ k := fun h => hhour (by rw [h])
          simp [hday, hhour, hne]
      · have hne : other ≠ k := fun h => hday (by rw [h])
        simp [hday, hne]

/-- **Buckets**: each one is the summary of what it was told. -/
theorem buckets_observeAll (observations : List Observation) (k : Fin 7 × Fin 24) :
    (observeAll observations).buckets k.1 k.2 = .summary (told observations k) := by
  induction observations using List.reverseRecOn with
  | nil => exact Baseline.summary_zero.symm
  | append_singleton os o ih =>
      rw [observeAll, List.foldl_append, List.foldl_cons, List.foldl_nil, ← observeAll, told_append,
        ← Multiset.coe_add, buckets_observe, ih]
      split
      · next hslot =>
        have htold : told [o] k = [o.value] := by simp [told, placed, hslot]
        rw [Baseline.observe_summary, htold, Multiset.coe_singleton]
      · next hslot =>
        have htold : told [o] k = [] := by
          cases h : slot o.dayOfWeek o.hour with
          | none => simp [told, placed, h]
          | some other =>
              have hne : other ≠ k := fun heq => hslot (by rw [h, heq])
              simp [told, placed, h, hne]
        rw [htold, Multiset.coe_nil, add_zero]

/-- A loop whose rounds add to a summary. -/
theorem foldl_summary {κ : Type} {step : Baseline → κ → Baseline} {f : κ → Multiset ℚ}
    (h : ∀ s k, step (.summary s) k = .summary (s + f k)) (ks : List κ) (s : Multiset ℚ) :
    ks.foldl step (.summary s) = .summary (s + (ks.map f).sum) := by
  induction ks generalizing s with
  | nil => simp
  | cons k ks ih => rw [List.foldl_cons, h, ih, List.map_cons, List.sum_cons, add_assoc]

/-- The loops over days and hours merge all buckets. -/
theorem globalBaseline_eq_summary {t : TemporalBucketedBaseline} {f : Fin 7 × Fin 24 → Multiset ℚ}
    (h : ∀ k, t.buckets k.1 k.2 = .summary (f k)) : t.globalBaseline = .summary (∑ k, f k) := by
  have hhour : ∀ (day : Fin 7) (s : Multiset ℚ) (hour : Fin 24),
      (Baseline.summary s).merge (t.buckets day hour) = .summary (s + f (day, hour)) :=
    fun day s hour => by rw [h (day, hour), Baseline.merge_summary]
  have hday : ∀ (s : Multiset ℚ) (day : Fin 7),
      (List.finRange 24).foldl (fun (merged : Baseline) hour => merged.merge (t.buckets day hour))
        (.summary s) =
        Baseline.summary (s + ∑ hour, f (day, hour)) :=
    fun s day => by rw [foldl_summary (hhour day), Fin.sum_univ_def]
  rw [globalBaseline, ← Baseline.summary_zero, foldl_summary hday, zero_add, ← Fin.sum_univ_def,
    Fintype.sum_prod_type]

/-- The merged buckets are the summary of all that fell into one. -/
theorem globalBaseline_observeAll (observations : List Observation) :
    (observeAll observations).globalBaseline =
      .summary ((placed observations).map Prod.snd : List ℚ) := by
  rw [globalBaseline_eq_summary (buckets_observeAll observations)]
  exact congrArg Baseline.summary (sum_filter_key Prod.fst Prod.snd (placed observations))

end TemporalBucketedBaseline

/-- **Exact statistics**: a baseline that observed a sequence holds its length, its mean, the sum
of its squared deviations from the mean, its least and its greatest value.  A baseline that
came about in any other way from the same observations is equal to it, and so is the merge of
the 168 buckets of a week over which they were distributed. -/
theorem observeAll_exact (xs : List ℚ) :
    (xs ≠ [] →
      let b := Baseline.observeAll (xs.map .finite)
      b.count = xs.length ∧ b.mean = xs.sum / xs.length ∧
      b.m2 = (xs.map fun x => (x - xs.sum / xs.length) ^ 2).sum ∧
      (∃ lo ∈ xs, b.min = lo ∧ ∀ x ∈ xs, lo ≤ x) ∧ ∃ hi ∈ xs, b.max = hi ∧ ∀ x ∈ xs, x ≤ hi) ∧
    (∀ h : History, h.observations = xs → h.baseline = Baseline.observeAll (xs.map .finite)) ∧
    ∀ os : List TemporalBucketedBaseline.Observation,
      ((TemporalBucketedBaseline.placed os).map Prod.snd).Perm xs →
      (TemporalBucketedBaseline.observeAll os).globalBaseline =
        Baseline.observeAll (xs.map .finite) := by
  have hmean : Moments.mean (xs : Multiset ℚ) = xs.sum / xs.length := by
    rw [Moments.mean, Multiset.sum_coe, Multiset.coe_card]
  rw [Baseline.observeAll_finite]
  refine ⟨fun hne => ⟨Multiset.coe_card xs, hmean, ?_, Baseline.summary_extremes hne⟩, ?_, ?_⟩
  · simp only [Baseline.summary, sumSqDev, hmean, Multiset.map_coe, Multiset.sum_coe]
  · intro h hobservations
    rw [h.baseline_eq_summary, hobservations]
  · intro os hperm
    rw [TemporalBucketedBaseline.globalBaseline_observeAll, Multiset.coe_eq_coe.mpr hperm]

/-- 1, 2, 6: one baseline for the ends and one for the middle, merged, and the buckets of Monday
noon and Sunday midnight. -/
theorem observeAll_exact_three :
    (Baseline.observeAll ([1, 2, 6].map .finite)).mean = 3 ∧
    (Baseline.observeAll ([1, 2, 6].map .finite)).m2 = 14 ∧
    (History.merge ((History.new.observe 6).observe 1) (History.new.observe 2)).baseline =
      Baseline.observeAll ([1, 2, 6].map .finite) ∧
    (TemporalBucketedBaseline.observeAll [⟨0, 12, 2⟩, ⟨6, 0, 6⟩, ⟨0, 12, 1⟩]).globalBaseline =
      Baseline.observeAll ([1, 2, 6].map .finite) := by
  obtain ⟨hexact, hmerge, hbuckets⟩ := observeAll_exact [1, 2, 6]
  obtain ⟨-, hmean, hm2, -⟩ := hexact (by simp)
  refine ⟨hmean.trans (by norm_num), hm2.trans (by norm_num), hmerge _ ?_, hbuckets _ ?_⟩
  · decide +kernel
  · decide +kernel

end Akroasis.Stoicheion
