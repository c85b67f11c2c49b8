import Akroasis.Semaino.Grid

/-!
# Akroasis.Semaino.Alert

Alert deduplication and classification (`semaino::alert`).

An alert is suppressed while one with the same fingerprint was emitted less than a window
ago.  The pipeline keeps the last emission of a fingerprint in a map that is swept only when
it has grown to a threshold, which a sweep sets to twice what it left.

`Tracks` relates the map to the list of all emissions: what it holds is the last emission of
a fingerprint, and what it does not hold is too old to matter.  It holds for any way of
sweeping that drops expired entries only, so that sweeping is invisible.
-/

namespace Akroasis.Semaino

/-! ## Signals and alerts -/

/-- `AnomalyScore`, with the bits of a z-score. -/
inductive AnomalyScore where
  | normal
  | elevated (z : UInt64)
  | anomalous (z : UInt64)
  | insufficientData
  deriving DecidableEq

/-- A signal with its id and the score of its baseline comparison. -/
structure AggregatedSignal where
  signal : GeoSignal
  signalId : Nat
  score : AnomalyScore
  baselineMean : Option UInt64
  baselineStddev : Option UInt64
  deriving DecidableEq

/-- `AlertSeverity`. -/
inductive AlertSeverity where
  | low | medium | high | critical
  deriving DecidableEq

/-- `AlertFingerprint`. -/
structure AlertFingerprint where
  kindDiscriminant : UInt8
  cell : Option GridCell
  severityDiscriminant : UInt8
  deriving DecidableEq

/-- A reading of the clock in Unix milliseconds.  The time stamps of `jiff` end with the year
9999, so that the difference of two of them is an `i64`. -/
structure ClockReading where
  millis : ℤ
  fits : -2 ^ 62 < millis ∧ millis < 2 ^ 62
  deriving DecidableEq

/-- `Alert`; `id` is a ULID. -/
structure Alert where
  id : Nat
  severity : AlertSeverity
  sourceSignals : List Nat
  timestamp : ClockReading
  cell : Option GridCell
  summary : String
  fingerprint : AlertFingerprint
  deriving DecidableEq

/-! ## Classification -/

/-- `classify`. -/
def classify (score : AnomalyScore) (convergence : Option Convergence) : Option AlertSeverity :=
  match score with
  | .anomalous _ =>
      if convergence.any fun c => decide (3 ≤ c.domainCount) then some .critical else some .high
  | .elevated _ => if convergence.isSome then some .medium else some .low
  | _ => none

namespace AlertFingerprint

/-- `kind_discriminant`. -/
def kindDisc : SignalKind → UInt8
  | .rf => 0
  | .mesh => 1
  | .network => 2
  | .proximity => 3
  | .gps => 4
  | .environmental => 5
  | .osint => 6

/-- `severity_discriminant`. -/
def severityDisc : AlertSeverity → UInt8
  | .low => 0
  | .medium => 1
  | .high => 2
  | .critical => 3

end AlertFingerprint

/-- The name of a domain in a summary. -/
def SignalKind.label : SignalKind → String
  | .rf => "RF"
  | .mesh => "Mesh"
  | .network => "Network"
  | .proximity => "Proximity"
  | .gps => "GPS"
  | .environmental => "Environmental"
  | .osint => "OSINT"

/-- The `Debug` text of a severity. -/
def AlertSeverity.label : AlertSeverity → String
  | .low => "Low"
  | .medium => "Medium"
  | .high => "High"
  | .critical => "Critical"

/-- `build_summary`. -/
def buildSummary (kind : SignalKind) (severity : AlertSeverity) (convergence : Option Convergence) :
    String :=
  match convergence with
  | none => severity.label ++ " " ++ kind.label ++ " anomaly detected"
  | some c => severity.label ++ " " ++ kind.label ++ " alert with " ++ toString c.domainCount ++
      "-domain convergence"

/-! ## The pipeline -/

/-- `MIN_PRUNE_THRESHOLD`. -/
def minPruneThreshold : Nat := 64

/-- `AlertPipeline`, without its sinks. -/
structure AlertPipeline where
  suppression : Table AlertFingerprint ℤ
  pruneThreshold : Nat
  suppressionWindowMs : ℤ
  gridResolution : Nat

/-- A call of `process`, with what it reads of the clock (twice) and the id it generates. -/
structure AlertCall where
  aggregated : AggregatedSignal
  convergence : Option Convergence
  now : ClockReading
  id : Nat
  timestamp : ClockReading

/-- `saturating_sub` of `i64`. -/
def saturatingSub (a b : ℤ) : ℤ := max (-2 ^ 63) (min (2 ^ 63 - 1) (a - b))

namespace AlertPipeline

/-- `new`: the product is a `u64`, read as an `i64`. -/
def new (suppressionWindowSecs gridResolution : Nat) : AlertPipeline :=
  ⟨∅, minPruneThreshold, asI64 (suppressionWindowSecs * 1000 % 2 ^ 64 : Nat), gridResolution⟩

/-- `prune_expired`. -/
def pruneExpired (p : AlertPipeline) (nowMs : ℤ) : AlertPipeline :=
  if p.suppression.size < p.pruneThreshold then p
  else
    let kept := p.suppression.retain fun _ last =>
      decide (saturatingSub nowMs last < p.suppressionWindowMs)
    { p with
      suppression := kept
      pruneThreshold := max (min (kept.size * 2) (2 ^ 64 - 1)) minPruneThreshold }

/-- `process`, with a way of sweeping. -/
def processWith (sweep : AlertPipeline → ℤ → AlertPipeline) (p : AlertPipeline) (call : AlertCall) :
    Option Alert × AlertPipeline :=
  let signal := call.aggregated.signal
  match classify call.aggregated.score call.convergence with
  | none => (none, p)
  | some severity =>
      let cell := signal.location.map fun c => quantize c p.gridResolution
      let fingerprint : AlertFingerprint := ⟨AlertFingerprint.kindDisc signal.kind, cell,
        AlertFingerprint.severityDisc severity⟩
      let nowMs := call.now.millis
      if (p.suppression.lookup fingerprint).any fun last =>
          decide (asI64 (nowMs - last) < p.suppressionWindowMs)
      then (none, p)
      else
        let p := sweep p nowMs
        (some ⟨call.id, severity, [call.aggregated.signalId], call.timestamp, cell,
            buildSummary signal.kind severity call.convergence, fingerprint⟩,
          { p with suppression := p.suppression.insert fingerprint nowMs })

/-- `process`. -/
def process : AlertPipeline → AlertCall → Option Alert × AlertPipeline := processWith pruneExpired

/-- A pipeline that never sweeps, for comparison. -/
def processKeeping : AlertPipeline → AlertCall → Option Alert × AlertPipeline :=
  processWith fun p _ => p

end AlertPipeline

/-- The alert a call is about, if its signal is notable. -/
def AlertCall.alert (call : AlertCall) (gridResolution : Nat) : Option Alert :=
  (classify call.aggregated.score call.convergence).map fun severity =>
    let signal := call.aggregated.signal
    let cell := signal.location.map fun c => quantize c gridResolution
    ⟨call.id, severity, [call.aggregated.signalId], call.timestamp, cell,
      buildSummary signal.kind severity call.convergence,
      ⟨AlertFingerprint.kindDisc signal.kind, cell, AlertFingerprint.severityDisc severity⟩⟩

/-! ## Emissions -/

/-- Emissions: fingerprints with the times at which an alert was emitted. -/
abbrev Emissions := List (AlertFingerprint × ℤ)

/-- An alert with this fingerprint was emitted less than a window before. -/
def Emissions.Recent (emitted : Emissions) (windowMs : ℤ) (fingerprint : AlertFingerprint)
    (nowMs : ℤ) : Prop :=
  ∃ e ∈ emitted, e.1 = fingerprint ∧ nowMs - e.2 < windowMs

instance (emitted : Emissions) (windowMs : ℤ) (fingerprint : AlertFingerprint) (nowMs : ℤ) :
    Decidable (emitted.Recent windowMs fingerprint nowMs) :=
  inferInstanceAs (Decidable (∃ e ∈ emitted, e.1 = fingerprint ∧ nowMs - e.2 < windowMs))

/-- The fingerprints emitted in the window that ends at `endMs`. -/
def Emissions.inWindow (emitted : Emissions) (windowMs endMs : ℤ) : Finset AlertFingerprint :=
  ((emitted.filter fun e => decide (endMs - windowMs < e.2 ∧ e.2 ≤ endMs)).map Prod.fst).toFinset

/-- A pipeline with everything it has emitted. -/
structure AlertRun where
  pipeline : AlertPipeline
  emitted : Emissions

namespace AlertRun

/-- One call. -/
def step (process : AlertPipeline → AlertCall → Option Alert × AlertPipeline) (r : AlertRun)
    (call : AlertCall) : AlertRun :=
  let (alert, pipeline) := process r.pipeline call
  ⟨pipeline, r.emitted ++ alert.toList.map fun a => (a.fingerprint, call.now.millis)⟩

/-- Some calls, from the start. -/
def run (process : AlertPipeline → AlertCall → Option Alert × AlertPipeline) (p : AlertPipeline)
    (calls : List AlertCall) : AlertRun :=
  calls.foldl (step process) ⟨p, []⟩

end AlertRun

/-! ## What the map remembers -/

namespace AlertPipeline

/-- A call emits its alert unless the map suppresses it. -/
theorem processWith_eq (sweep : AlertPipeline → ℤ → AlertPipeline) (p : AlertPipeline)
    (call : AlertCall) :
    processWith sweep p call = match call.alert p.gridResolution with
      | none => (none, p)
      | some a =>
          if (p.suppression.lookup a.fingerprint).any fun last =>
            decide (asI64 (call.now.millis - last) < p.suppressionWindowMs)
          then (none, p)
          else (some a, { sweep p call.now.millis with
            suppression :=
              (sweep p call.now.millis).suppression.insert a.fingerprint call.now.millis }) := by
  unfold processWith AlertCall.alert
  cases classify call.aggregated.score call.convergence <;> rfl

/-- A way of sweeping that drops nothing but expired entries. -/
structure Sweeps (sweep : AlertPipeline → ℤ → AlertPipeline) : Prop where
  window : ∀ p nowMs, (sweep p nowMs).suppressionWindowMs = p.suppressionWindowMs
  resolution : ∀ p nowMs, (sweep p nowMs).gridResolution = p.gridResolution
  kept : ∀ p nowMs fingerprint last, (sweep p nowMs).suppression.lookup fingerprint = some last →
    p.suppression.lookup fingerprint = some last
  dropped : ∀ p nowMs fingerprint last, (sweep p nowMs).suppression.lookup fingerprint = none →
    p.suppression.lookup fingerprint = some last → p.suppressionWindowMs ≤ saturatingSub nowMs last

theorem sweeps_nothing : Sweeps fun p _ => p where
  window _ _ := rfl
  resolution _ _ := rfl
  kept _ _ _ _ h := h
  dropped p nowMs fingerprint last hnone hsome := by
    rw [hsome] at hnone
    cases hnone

theorem sweeps_pruneExpired : Sweeps pruneExpired where
  window p nowMs := by unfold pruneExpired; split <;> rfl
  resolution p nowMs := by unfold pruneExpired; split <;> rfl
  kept p nowMs fingerprint last h := by
    unfold pruneExpired at h
    split at h
    · exact h
    · rw [Table.lookup_retain] at h
      exact (Option.filter_eq_some_iff.mp h).1
  dropped p nowMs fingerprint last hnone hsome := by
    unfold pruneExpired at hnone
    split at hnone
    · rw [hsome] at hnone
      cases hnone
    · rw [Table.lookup_retain, hsome] at hnone
      simpa using hnone

end AlertPipeline

/-- The difference of two readings is exact. -/
theorem asI64_sub {a b : ℤ} (ha : -2 ^ 62 < a ∧ a < 2 ^ 62) (hb : -2 ^ 62 < b ∧ b < 2 ^ 62) :
    asI64 (a - b) = a - b := by
  unfold asI64
  omega

theorem saturatingSub_eq {a b : ℤ} (ha : -2 ^ 62 < a ∧ a < 2 ^ 62) (hb : -2 ^ 62 < b ∧ b < 2 ^ 62) :
    saturatingSub a b = a - b := by
  unfold saturatingSub
  omega

/-- At a time, the map holds the last emission of a fingerprint, or all of them are too old. -/
structure AlertRun.Tracks (r : AlertRun) (windowMs : ℤ) (gridResolution : Nat) (clock : ℤ) :
    Prop where
  window : r.pipeline.suppressionWindowMs = windowMs
  resolution : r.pipeline.gridResolution = gridResolution
  fits : ∀ e ∈ r.emitted, -2 ^ 62 < e.2 ∧ e.2 < 2 ^ 62
  past : ∀ e ∈ r.emitted, e.2 ≤ clock
  held : ∀ fingerprint last, r.pipeline.suppression.lookup fingerprint = some last →
    (fingerprint, last) ∈ r.emitted ∧ ∀ e ∈ r.emitted, e.1 = fingerprint → e.2 ≤ last
  gone : ∀ fingerprint, r.pipeline.suppression.lookup fingerprint = none →
    ∀ e ∈ r.emitted, e.1 = fingerprint → windowMs ≤ clock - e.2

namespace AlertRun

variable {r : AlertRun} {windowMs clock : ℤ} {gridResolution : Nat}

theorem Tracks.mono (h : r.Tracks windowMs gridResolution clock) {clock' : ℤ}
    (hle : clock ≤ clock') :
    r.Tracks windowMs gridResolution clock' where
  window := h.window
  resolution := h.resolution
  fits := h.fits
  past e he := (h.past e he).trans hle
  held := h.held
  gone fingerprint hnone e he heq := by
    have hgone := h.gone fingerprint hnone e he heq
    omega

/-- **Exact**: the map suppresses a fingerprint exactly if it was emitted less than a window
ago. -/
theorem Tracks.suppressed_iff {now : ClockReading} (h : r.Tracks windowMs gridResolution now.millis)
    (fingerprint : AlertFingerprint) :
    ((r.pipeline.suppression.lookup fingerprint).any fun last =>
      decide (asI64 (now.millis - last) < r.pipeline.suppressionWindowMs)) = true ↔
    r.emitted.Recent windowMs fingerprint now.millis := by
  rw [h.window]
  cases hlookup : r.pipeline.suppression.lookup fingerprint with
  | none =>
      constructor
      · intro hfalse
        cases hfalse
      · intro hrecent
        obtain ⟨e, he, heq, hlt⟩ := hrecent
        have hgone := h.gone fingerprint hlookup e he heq
        omega
  | some last =>
      obtain ⟨hmem, hlast⟩ := h.held fingerprint last hlookup
      rw [Option.any_some, decide_eq_true_eq, asI64_sub now.fits (h.fits _ hmem)]
      constructor
      · exact fun hlt => ⟨_, hmem, rfl, hlt⟩
      · intro hrecent
        obtain ⟨e, he, heq, hlt⟩ := hrecent
        have hle := hlast e he heq
        omega

/-- What a call returns depends on the emissions only. -/
theorem Tracks.processWith_fst (sweep : AlertPipeline → ℤ → AlertPipeline) {call : AlertCall}
    (h : r.Tracks windowMs gridResolution call.now.millis) :
    (r.pipeline.processWith sweep call).1 = (call.alert gridResolution).filter fun a =>
      decide ¬r.emitted.Recent windowMs a.fingerprint call.now.millis := by
  rw [AlertPipeline.processWith_eq, h.resolution]
  cases call.alert gridResolution with
  | none => rfl
  | some a =>
      have hiff := h.suppressed_iff a.fingerprint
      by_cases hrecent : r.emitted.Recent windowMs a.fingerprint call.now.millis
      · simp [hiff.mpr hrecent, hrecent, Option.filter_some]
      · simp [mt hiff.mp hrecent, hrecent, Option.filter_some]

/-- A call leaves everything as it is, or emits the alert it is about. -/
theorem step_cases (sweep : AlertPipeline → ℤ → AlertPipeline) (r : AlertRun) (call : AlertCall) :
    r.step (AlertPipeline.processWith sweep) call = r ∨
    ∃ a : Alert, r.step (AlertPipeline.processWith sweep) call =
      ⟨{ sweep r.pipeline call.now.millis with
          suppression :=
            (sweep r.pipeline call.now.millis).suppression.insert a.fingerprint call.now.millis },
        r.emitted ++ [(a.fingerprint, call.now.millis)]⟩ := by
  unfold step
  rw [AlertPipeline.processWith_eq]
  cases call.alert r.pipeline.gridResolution with
  | none => exact .inl (by simp)
  | some a =>
      dsimp only
      split
      · exact .inl (by simp)
      · exact .inr ⟨a, rfl⟩

/-- **Step**: an emission is the last of its fingerprint, and a sweep drops what is too old. -/
theorem Tracks.step {sweep : AlertPipeline → ℤ → AlertPipeline}
    (hsweep : AlertPipeline.Sweeps sweep) {call : AlertCall}
    (h : r.Tracks windowMs gridResolution call.now.millis) :
    (r.step (AlertPipeline.processWith sweep) call).Tracks windowMs gridResolution
      call.now.millis := by
  obtain heq | ⟨a, heq⟩ := step_cases sweep r call
  · rw [heq]
    exact h
  rw [heq]
  refine ⟨(hsweep.window _ _).trans h.window, (hsweep.resolution _ _).trans h.resolution,
    ?_, ?_, ?_, ?_⟩
  · exact List.forall_mem_append.mpr ⟨h.fits, List.forall_mem_singleton.mpr call.now.fits⟩
  · exact List.forall_mem_append.mpr ⟨h.past, List.forall_mem_singleton.mpr (le_refl _)⟩
  · intro fingerprint last hlookup
    rw [Table.lookup_insert_ite] at hlookup
    split at hlookup
    · next hfp =>
      obtain rfl := Option.some.inj hlookup
      refine ⟨by simp [hfp], List.forall_mem_append.mpr ⟨fun e he _ => h.past e he, ?_⟩⟩
      exact List.forall_mem_singleton.mpr fun _ => le_refl _
    · next hfp =>
      obtain ⟨hmem, hlast⟩ := h.held fingerprint last (hsweep.kept _ _ _ _ hlookup)
      refine ⟨List.mem_append_left _ hmem, List.forall_mem_append.mpr ⟨hlast, ?_⟩⟩
      exact List.forall_mem_singleton.mpr fun heq => absurd heq.symm hfp
  · intro fingerprint hlookup
    rw [Table.lookup_insert_ite] at hlookup
    split at hlookup
    · cases hlookup
    · next hfp =>
      refine List.forall_mem_append.mpr ⟨fun e he heq => ?_,
        List.forall_mem_singleton.mpr fun heq => absurd heq.symm hfp⟩
      cases hold : r.pipeline.suppression.lookup fingerprint with
      | none => exact h.gone fingerprint hold e he heq
      | some last =>
          obtain ⟨hmem, hlast⟩ := h.held fingerprint last hold
          have hexpired := hsweep.dropped _ _ _ _ hlookup hold
          rw [h.window, saturatingSub_eq call.now.fits (h.fits _ hmem)] at hexpired
          have hle := hlast e he heq
          omega

/-- **Run**: under a non-decreasing clock, what the map remembers is right at any later time. -/
theorem Tracks.foldl {sweep : AlertPipeline → ℤ → AlertPipeline}
    (hsweep : AlertPipeline.Sweeps sweep) {calls : List AlertCall}
    (hsorted : calls.Pairwise fun a b => a.now.millis ≤ b.now.millis)
    (hstart : ∀ call ∈ calls, clock ≤ call.now.millis) (h : r.Tracks windowMs gridResolution clock)
    {later : ℤ} (hlater : clock ≤ later) (hcalls : ∀ call ∈ calls, call.now.millis ≤ later) :
    (calls.foldl (AlertRun.step (AlertPipeline.processWith sweep)) r).Tracks windowMs gridResolution
      later := by
  induction calls generalizing r clock with
  | nil => exact h.mono hlater
  | cons call calls ih =>
      obtain ⟨hhead, htail⟩ := List.pairwise_cons.mp hsorted
      obtain ⟨hfirst, hrest⟩ := List.forall_mem_cons.mp hcalls
      exact ih htail hhead ((h.mono (hstart call List.mem_cons_self)).step hsweep) hfirst hrest

/-! ## The size of the map -/

/-- What a window justifies: 64 entries, or twice its fingerprints. -/
def Allowed (r : AlertRun) (windowMs : ℤ) (n : Nat) : Prop :=
  ∃ endMs, n ≤ max minPruneThreshold (2 * (r.emitted.inWindow windowMs endMs).card)

/-- Neither the map nor its threshold has grown beyond what a window justifies. -/
structure Bounded (r : AlertRun) (windowMs : ℤ) : Prop where
  size : r.Allowed windowMs r.pipeline.suppression.size
  threshold : r.Allowed windowMs r.pipeline.pruneThreshold

theorem inWindow_mono {emitted emitted' : Emissions} (h : emitted ⊆ emitted') (windowMs endMs : ℤ) :
    emitted.inWindow windowMs endMs ⊆ emitted'.inWindow windowMs endMs := by
  intro fingerprint
  simp only [Emissions.inWindow, List.mem_toFinset, List.mem_map, List.mem_filter]
  exact fun ⟨e, he, heq⟩ => ⟨e, ⟨h he.1, he.2⟩, heq⟩

theorem Allowed.mono {r' : AlertRun} {m n : Nat} (h : r.Allowed windowMs n)
    (hemitted : r.emitted ⊆ r'.emitted) (hle : m ≤ n) : r'.Allowed windowMs m := by
  obtain ⟨endMs, hn⟩ := h
  have hcard := Finset.card_le_card (inWindow_mono hemitted windowMs endMs)
  exact ⟨endMs, by omega⟩

/-- What a sweep leaves was emitted in the window that ends now. -/
theorem Tracks.size_retain_le {now : ClockReading}
    (h : r.Tracks windowMs gridResolution now.millis) :
    (r.pipeline.suppression.retain fun _ last =>
      decide (saturatingSub now.millis last < r.pipeline.suppressionWindowMs)).size ≤
    (r.emitted.inWindow windowMs now.millis).card := by
  rw [← Table.length_keys, ← List.toFinset_card_of_nodup (AList.keys_nodup _)]
  refine Finset.card_le_card fun fingerprint hmem => ?_
  obtain ⟨last, hlast⟩ := (Table.mem_keys_iff _ _).mp (List.mem_toFinset.mp hmem)
  rw [Table.lookup_retain, Option.filter_eq_some_iff, decide_eq_true_eq] at hlast
  obtain ⟨hemitted, -⟩ := h.held fingerprint last hlast.1
  have hrecent := hlast.2
  rw [h.window, saturatingSub_eq now.fits (h.fits _ hemitted)] at hrecent
  have hpast : last ≤ now.millis := h.past _ hemitted
  simp only [Emissions.inWindow, List.mem_toFinset, List.mem_map, List.mem_filter,
    decide_eq_true_eq]
  exact ⟨_, ⟨hemitted, by omega, hpast⟩, rfl⟩

/-- **Step**: one more entry is at most the threshold, or one more than what a sweep left. -/
theorem Bounded.step {call : AlertCall} (h : r.Bounded windowMs)
    (htracks : r.Tracks windowMs gridResolution call.now.millis) :
    (r.step AlertPipeline.process call).Bounded windowMs := by
  obtain heq | ⟨a, heq⟩ := step_cases AlertPipeline.pruneExpired r call
  · rw [AlertPipeline.process, heq]
    exact h
  rw [AlertPipeline.process, heq]
  have hsub : r.emitted ⊆ r.emitted ++ [(a.fingerprint, call.now.millis)] :=
    List.subset_append_left _ _
  have hinsert :=
    Table.size_insert_le (r.pipeline.pruneExpired call.now.millis).suppression a.fingerprint
    call.now.millis
  by_cases hswept : r.pipeline.suppression.size < r.pipeline.pruneThreshold
  · rw [AlertPipeline.pruneExpired, if_pos hswept] at hinsert ⊢
    exact ⟨h.threshold.mono hsub (hinsert.trans hswept), h.threshold.mono hsub (Nat.le_refl _)⟩
  · have hkept := htracks.size_retain_le
    have hcard := Finset.card_le_card (inWindow_mono hsub windowMs call.now.millis)
    rw [AlertPipeline.pruneExpired, if_neg hswept] at hinsert ⊢
    refine ⟨⟨call.now.millis, ?_⟩, ⟨call.now.millis, ?_⟩⟩
    · dsimp only at hinsert ⊢
      simp only [minPruneThreshold]
      omega
    · dsimp only
      omega

/-! ## Runs -/

/-- The calls are in the order of the clock. -/
def InOrder (calls : List AlertCall) : Prop := calls.Pairwise fun a b => a.now.millis ≤ b.now.millis

theorem run_concat (process : AlertPipeline → AlertCall → Option Alert × AlertPipeline)
    (p : AlertPipeline) (calls : List AlertCall) (call : AlertCall) :
    run process p (calls ++ [call]) = (run process p calls).step process call :=
  List.foldl_concat ..

section Runs

variable {secs : Nat} (gridResolution) (hfits : secs * 1000 < 2 ^ 63) {calls : List AlertCall}
  {call : AlertCall}

include hfits

/-- A pipeline that starts with an empty map tracks its emissions. -/
theorem tracks_run {sweep : AlertPipeline → ℤ → AlertPipeline} (hsweep : AlertPipeline.Sweeps sweep)
    (hclock : InOrder (calls ++ [call])) :
    (run (AlertPipeline.processWith sweep) (.new secs gridResolution) calls).Tracks (secs * 1000)
      gridResolution call.now.millis := by
  obtain ⟨hsorted, -, hcall⟩ := List.pairwise_append.mp hclock
  have hwindow : asI64 (secs * 1000 % 2 ^ 64 : Nat) = secs * 1000 := by
    unfold asI64
    omega
  have hstart :
      AlertRun.Tracks ⟨.new secs gridResolution, []⟩ (secs * 1000) gridResolution (-2 ^ 62) :=
    ⟨hwindow, rfl, by simp, by simp, by simp [AlertPipeline.new], by simp⟩
  exact hstart.foldl hsweep hsorted (fun c _ => c.now.fits.1.le) call.now.fits.1.le
    fun c hc => hcall c hc call List.mem_cons_self

theorem bounded_run (hclock : InOrder calls) :
    (run AlertPipeline.process (.new secs gridResolution) calls).Bounded (secs * 1000) := by
  induction calls using List.reverseRecOn with
  | nil => exact ⟨⟨0, Nat.zero_le _⟩, ⟨0, Nat.le_max_left _ _⟩⟩
  | append_singleton calls call ih =>
      rw [run_concat]
      exact (ih (List.pairwise_append.mp hclock).1).step
        (tracks_run gridResolution hfits AlertPipeline.sweeps_pruneExpired hclock)

/-- Sweeping or not, the same calls emit. -/
theorem emitted_run_eq {sweep sweep' : AlertPipeline → ℤ → AlertPipeline}
    (hsweep : AlertPipeline.Sweeps sweep) (hsweep' : AlertPipeline.Sweeps sweep')
    (hclock : InOrder calls) :
    (run (AlertPipeline.processWith sweep) (.new secs gridResolution) calls).emitted =
      (run (AlertPipeline.processWith sweep') (.new secs gridResolution) calls).emitted := by
  induction calls using List.reverseRecOn with
  | nil => rfl
  | append_singleton calls call ih =>
      have hemitted := ih (List.pairwise_append.mp hclock).1
      have hfst := (tracks_run gridResolution hfits hsweep hclock).processWith_fst sweep
      have hfst' := (tracks_run gridResolution hfits hsweep' hclock).processWith_fst sweep'
      rw [← hemitted] at hfst'
      simp only [run_concat, AlertRun.step, hfst, hfst', hemitted]

end Runs

end AlertRun

/-- **Suppression**: under a non-decreasing clock a call returns the alert it is about unless
one with the same fingerprint was emitted less than a window earlier; a pipeline that never
sweeps returns the same; and the map never has more entries than the larger of 64 and twice
the fingerprints emitted in some window. -/
theorem suppression_exact (secs gridResolution : Nat) (hfits : secs * 1000 < 2 ^ 63)
    (calls : List AlertCall) (call : AlertCall) (hclock : AlertRun.InOrder (calls ++ [call])) :
    let run := AlertRun.run AlertPipeline.process (.new secs gridResolution)
    let reference := AlertRun.run AlertPipeline.processKeeping (.new secs gridResolution)
    ((run calls).pipeline.process call).1 = ((call.alert gridResolution).filter fun a =>
      decide ¬(run calls).emitted.Recent (secs * 1000) a.fingerprint call.now.millis) ∧
    ((run calls).pipeline.process call).1 = ((reference calls).pipeline.processKeeping call).1 ∧
    ∃ endMs, (run (calls ++ [call])).pipeline.suppression.size ≤
      max 64 (2 * ((run (calls ++ [call])).emitted.inWindow (secs * 1000) endMs).card) := by
  intro run reference
  have hexact := (AlertRun.tracks_run gridResolution hfits
    AlertPipeline.sweeps_pruneExpired hclock).processWith_fst AlertPipeline.pruneExpired
  have hkeeping := (AlertRun.tracks_run gridResolution hfits
    AlertPipeline.sweeps_nothing hclock).processWith_fst fun p _ => p
  rw [AlertRun.emitted_run_eq gridResolution hfits AlertPipeline.sweeps_nothing
    AlertPipeline.sweeps_pruneExpired (List.pairwise_append.mp hclock).1] at hkeeping
  exact ⟨hexact, hexact.trans hkeeping.symm,
    (AlertRun.bounded_run gridResolution hfits hclock).size⟩

/-- A reading within the first minutes of the epoch. -/
def earlyReading (second : UInt8) : ClockReading where
  millis := second.toNat * 1000
  fits := by
    have hlt := second.toNat_lt
    omega

/-- An anomalous radio signal at a time. -/
def anomalyAt (second : UInt8) : AlertCall where
  aggregated :=
    ⟨⟨.rf, ⟨second.toNat, by have hlt := second.toNat_lt; omega⟩, none⟩, 1,
      .anomalous 0, none, none⟩
  convergence := none
  now := earlyReading second
  id := 0
  timestamp := earlyReading second

/-- Two anomalies within a minute. -/
theorem suppression_exact_within_a_minute :
    let run := AlertRun.run AlertPipeline.process (.new 60 10000) [anomalyAt 0]
    AlertRun.InOrder [anomalyAt 0, anomalyAt 30] ∧
    (run.pipeline.process (anomalyAt 30)).1 = (((anomalyAt 30).alert 10000).filter fun a =>
      decide ¬run.emitted.Recent (60 * 1000) a.fingerprint (anomalyAt 30).now.millis) := by
  intro run
  have hclock : AlertRun.InOrder [anomalyAt 0, anomalyAt 30] := by
    unfold AlertRun.InOrder
    decide
  exact ⟨hclock, (suppression_exact 60 10000 (by decide) [anomalyAt 0] (anomalyAt 30) hclock).1⟩

end Akroasis.Semaino
