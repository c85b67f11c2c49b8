import Akroasis.Semaino.Grid

/-!
# Akroasis.Semaino.Convergence

The convergence grid against the full history of the signals it was given.

The history knows every hit of a cell, the grid one for each domain: the one that was ingested
last, which need not be the latest one, as timestamps come in any order.  `remembers_replay`
is the invariant over all sequences of calls.  A query is therefore answered as the history
would answer it exactly if, in every domain that was seen in the window, the last hit lies in
the window too; and a signal that is older than the hit in its slot takes a domain away.
-/

namespace Akroasis.Semaino

open ConvergenceGrid

/-! ## Histories -/

/-- A call that changes a grid. -/
inductive GridCall
  | ingest (signal : GeoSignal)
  | evict (olderThan : Timestamp)
  deriving DecidableEq

def GridCall.apply (grid : ConvergenceGrid) : GridCall → ConvergenceGrid
  | .ingest signal => grid.ingest signal
  | .evict olderThan => grid.evict olderThan

/-- The grid after a sequence of calls. -/
def replay (resolution : Nat) (calls : List GridCall) : ConvergenceGrid :=
  calls.foldl GridCall.apply (ConvergenceGrid.new resolution)

/-- The time of a signal, if it was ingested into a cell in a domain. -/
def GridCall.hit? (resolution : Nat) (cell : GridCell) (kind : SignalKind) : GridCall → Option ℤ
  | .ingest signal =>
      if signal.location.map (quantize · resolution) = some cell ∧ signal.kind = kind then
        some signal.timestamp.millis
      else none
  | .evict _ => none

def GridCall.cutoff? : GridCall → Option ℤ
  | .ingest _ => none
  | .evict olderThan => some olderThan.millis

/-- The times of all signals ingested into a cell in a domain, in the order of the calls. -/
def hits (resolution : Nat) (calls : List GridCall) (cell : GridCell) (kind : SignalKind) :
    List ℤ :=
  calls.filterMap (GridCall.hit? resolution cell kind)

/-- The cutoffs of all evictions. -/
def evictCutoffs (calls : List GridCall) : List ℤ := calls.filterMap GridCall.cutoff?

/-- The domains with a signal in a cell at or after a point in time. -/
def seenDomains (resolution : Nat) (calls : List GridCall) (cell : GridCell) (start : ℤ) :
    Finset SignalKind :=
  Finset.univ.filter fun kind => ∃ t ∈ hits resolution calls cell kind, start ≤ t

/-- What a query should report: all domains seen since the start of the window. -/
def historyDetect (resolution : Nat) (calls : List GridCall) (coords : Coordinates)
    (minDomains : Nat) (start : ℤ) : Option Convergence :=
  let cell := quantize coords resolution
  let count := (seenDomains resolution calls cell start).card
  if minDomains ≤ count then some ⟨cellCenter cell resolution, count⟩ else none

/-! ## What a grid remembers of its history -/

variable {resolution : Nat} {calls : List GridCall} {grid : ConvergenceGrid} {cell : GridCell}
  {kind : SignalKind}

/-- Every slot holds the last hit of its domain, unless that one was too old for an eviction. -/
structure Remembers (resolution : Nat) (calls : List GridCall) (grid : ConvergenceGrid) : Prop where
  scale : grid.resolution = resolution
  slot : ∀ cell kind,
    (grid.slotAt cell kind).map (·.timestamp.millis) = (hits resolution calls cell kind).getLast? ∨
      (grid.slotAt cell kind = none ∧
        ∃ t ∈ (hits resolution calls cell kind).getLast?, ∃ cutoff ∈ evictCutoffs calls, t < cutoff)

theorem remembers_new : Remembers resolution [] (ConvergenceGrid.new resolution) :=
  ⟨rfl, fun _ _ => .inl rfl⟩

theorem evictCutoffs_append (calls : List GridCall) (call : GridCall) :
    evictCutoffs (calls ++ [call]) = evictCutoffs calls ++ call.cutoff?.toList := by
  rw [evictCutoffs, List.filterMap_append, ← evictCutoffs]
  cases call <;> rfl

theorem hits_append (calls : List GridCall) (call : GridCall) :
    hits resolution (calls ++ [call]) cell kind =
      hits resolution calls cell kind ++ (call.hit? resolution cell kind).toList := by
  rw [hits, List.filterMap_append, ← hits]
  cases h : call.hit? resolution cell kind <;> simp [h]

theorem Remembers.ingest (h : Remembers resolution calls grid) (signal : GeoSignal) :
    Remembers resolution (calls ++ [.ingest signal]) (grid.ingest signal) where
  scale := by
    rw [← h.scale, ConvergenceGrid.ingest]
    split <;> rfl
  slot cell kind := by
    rw [slotAt_ingest, hits_append, evictCutoffs_append, h.scale, GridCall.hit?]
    by_cases hplaced : signal.location.map (quantize · resolution) = some cell ∧ signal.kind = kind
    · rw [if_pos hplaced, if_pos hplaced]
      exact .inl (by simp)
    · rw [if_neg hplaced, if_neg hplaced]
      simpa [GridCall.cutoff?] using h.slot cell kind

theorem Remembers.evict (h : Remembers resolution calls grid) (olderThan : Timestamp) :
    Remembers resolution (calls ++ [.evict olderThan]) (grid.evict olderThan) where
  scale := h.scale
  slot cell kind := by
    rw [slotAt_evict, hits_append, evictCutoffs_append]
    simp only [GridCall.hit?, GridCall.cutoff?, Option.toList_none, List.append_nil,
      Option.toList_some]
    obtain hslot | ⟨hnone, t, ht, cutoff, hcutoff, hlt⟩ := h.slot cell kind
    · rw [← hslot]
      cases hhit : grid.slotAt cell kind with
      | none => exact .inl rfl
      | some hit =>
          by_cases hold : olderThan.millis ≤ hit.timestamp.millis
          · exact .inl (by simp [hold])
          · exact .inr ⟨by simp [Int.not_le.mp hold], hit.timestamp.millis, rfl, olderThan.millis,
              by simp, by omega⟩
    · exact .inr ⟨by simp [hnone], t, ht, cutoff, List.mem_append_left _ hcutoff, hlt⟩

/-- **What a grid remembers**, after any sequence of calls. -/
theorem remembers_replay (resolution : Nat) (calls : List GridCall) :
    Remembers resolution calls (replay resolution calls) := by
  induction calls using List.reverseRecOn with
  | nil => exact remembers_new
  | append_singleton calls call ih =>
      rw [replay, List.foldl_append, ← replay]
      cases call with
      | ingest signal => exact ih.ingest signal
      | evict olderThan => exact ih.evict olderThan

/-- Past all cutoffs the slot of a domain is in the window exactly if its last hit is. -/
theorem Remembers.live_iff (h : Remembers resolution calls grid) {start : ℤ}
    (hcutoffs : ∀ cutoff ∈ evictCutoffs calls, cutoff ≤ start) :
    (∃ hit ∈ grid.slotAt cell kind, start ≤ hit.timestamp.millis) ↔
      ∃ t ∈ (hits resolution calls cell kind).getLast?, start ≤ t := by
  obtain hslot | ⟨hnone, t, ht, cutoff, hcutoff, hlt⟩ := h.slot cell kind
  · rw [← hslot]
    simp
  · have hlast : (hits resolution calls cell kind).getLast? = some t := ht
    have := hcutoffs cutoff hcutoff
    simp only [hnone, hlast, Option.not_mem_none, false_and, exists_false, Option.mem_some_iff,
      exists_eq_left', false_iff]
    omega

/-! ## Queries -/

/-- The start of the window that is computed is never before the one that is meant. -/
theorem le_cutoffMs (now : Timestamp) (windowMs : Nat) :
    now.millis - windowMs ≤ cutoffMs now windowMs := by
  have := now.fits
  simp only [cutoffMs, asI64]
  omega

/-- The domains that a cell reports. -/
def liveDomains (grid : ConvergenceGrid) (cell : GridCell) (cutoffMs : ℤ) : Finset SignalKind :=
  Finset.univ.filter fun kind => ∃ hit ∈ grid.slotAt cell kind, cutoffMs ≤ hit.timestamp.millis

theorem mem_liveDomains {cutoffMs : ℤ} : kind ∈ liveDomains grid cell cutoffMs ↔
    ∃ hit ∈ grid.slotAt cell kind, cutoffMs ≤ hit.timestamp.millis := by
  simp [liveDomains]

theorem mem_seenDomains {start : ℤ} : kind ∈ seenDomains resolution calls cell start ↔
    ∃ t ∈ hits resolution calls cell kind, start ≤ t := by
  simp [seenDomains]

/-- Two counts of which one is at most the other are reported alike. -/
theorem report_eq_iff (center : Coordinates) {m n minDomains : Nat} (hle : m ≤ n) :
    (if minDomains ≤ m then some (⟨center, m⟩ : Convergence) else none) =
        (if minDomains ≤ n then some ⟨center, n⟩ else none) ↔
      n < minDomains ∨ m = n := by
  by_cases hn : minDomains ≤ n
  · by_cases hm : minDomains ≤ m
    · simp [hm, hn, Nat.not_lt.mpr hn]
    · simp only [hm, hn, if_true, if_false, reduceCtorEq, false_iff]
      omega
  · have hm : ¬ minDomains ≤ m := fun h => hn (h.trans hle)
    simp [hm, hn, Nat.not_le.mp hn]

section Query

variable {now : Timestamp} {windowMs : Nat}
  (hcutoffs : ∀ cutoff ∈ evictCutoffs calls, cutoff ≤ now.millis - windowMs)

include hcutoffs

theorem mem_liveDomains_replay :
    kind ∈ liveDomains (replay resolution calls) cell (cutoffMs now windowMs) ↔
    ∃ t ∈ (hits resolution calls cell kind).getLast?, cutoffMs now windowMs ≤ t := by
  rw [mem_liveDomains, (remembers_replay resolution calls).live_iff]
  intro cutoff hcutoff
  exact (hcutoffs cutoff hcutoff).trans (le_cutoffMs now windowMs)

/-- No domain is reported that was not seen. -/
theorem liveDomains_subset : liveDomains (replay resolution calls) cell (cutoffMs now windowMs) ⊆
    seenDomains resolution calls cell (now.millis - windowMs) := by
  intro kind hkind
  obtain ⟨t, ht, hlive⟩ := (mem_liveDomains_replay hcutoffs).mp hkind
  exact mem_seenDomains.mpr ⟨t, List.mem_of_getLast? ht, (le_cutoffMs now windowMs).trans hlive⟩

/-- All domains that were seen are reported if the last hit of each is in the window. -/
theorem card_liveDomains_eq_iff :
    (liveDomains (replay resolution calls) cell (cutoffMs now windowMs)).card =
        (seenDomains resolution calls cell (now.millis - windowMs)).card ↔
      ∀ kind ∈ seenDomains resolution calls cell (now.millis - windowMs),
        ∃ t ∈ (hits resolution calls cell kind).getLast?, cutoffMs now windowMs ≤ t := by
  have hsub : liveDomains (replay resolution calls) cell (cutoffMs now windowMs) ⊆ _ :=
    liveDomains_subset hcutoffs
  constructor
  · intro hcard kind hkind
    rw [← Finset.eq_of_subset_of_card_le hsub hcard.ge] at hkind
    exact (mem_liveDomains_replay hcutoffs).mp hkind
  · intro hall
    apply congrArg Finset.card (hsub.antisymm fun kind hkind => ?_)
    exact (mem_liveDomains_replay hcutoffs).mpr (hall kind hkind)

/-- **When a query is answered from the slots as from the history.** -/
theorem detectAt_eq_historyDetect_iff {minDomains : Nat} (hmin : 1 ≤ minDomains)
    (coords : Coordinates) :
    (replay resolution calls).detectAt coords minDomains windowMs now =
        historyDetect resolution calls coords minDomains (now.millis - windowMs) ↔
      (seenDomains resolution calls (quantize coords resolution) (now.millis - windowMs)).card <
        minDomains ∨
        ∀ kind ∈ seenDomains resolution calls (quantize coords resolution) (now.millis - windowMs),
          ∃ t ∈ (hits resolution calls (quantize coords resolution) kind).getLast?,
            cutoffMs now windowMs ≤ t := by
  rw [detectAt, (remembers_replay resolution calls).scale, convergedCell_eq _ _ hmin,
    domainCount_eq_card, (remembers_replay resolution calls).scale, ← liveDomains, historyDetect,
    ← card_liveDomains_eq_iff hcutoffs]
  exact report_eq_iff _ (Finset.card_le_card (liveDomains_subset hcutoffs))

end Query

/-! ## Signals that come late -/

/-- **When another signal takes no domain away**: if its slot is empty or holds no later hit. -/
theorem domainCount_ingest_iff (grid : ConvergenceGrid) (signal : GeoSignal) :
    (∀ cell cutoffMs, grid.domainCount cell cutoffMs ≤
      (grid.ingest signal).domainCount cell cutoffMs) ↔
      ∀ coords ∈ signal.location, ∀ hit ∈ grid.slotAt (quantize coords grid.resolution) signal.kind,
        hit.timestamp.millis ≤ signal.timestamp.millis := by
  constructor
  · intro hcount coords hcoords hit hhit
    by_contra hlater
    have hslot (kind : SignalKind) :
        (grid.ingest signal).slotAt (quantize coords grid.resolution) kind =
        if signal.kind = kind then some ⟨signal.kind, signal.timestamp⟩
        else grid.slotAt (quantize coords grid.resolution) kind := by
      have hlocation : signal.location = some coords := hcoords
      simp [slotAt_ingest, hlocation]
    -- the hit that is overwritten was in the window that starts with it
    refine absurd (hcount (quantize coords grid.resolution) hit.timestamp.millis)
      (Nat.not_le.mpr ?_)
    rw [domainCount_eq_card, domainCount_eq_card]
    apply Finset.card_lt_card
    refine Finset.ssubset_iff_of_subset ?_ |>.mpr ⟨signal.kind, ?_, ?_⟩
    · intro kind hkind
      simp only [Finset.mem_filter, Finset.mem_univ, true_and, hslot] at hkind ⊢
      split at hkind
      · next heq => exact heq ▸ ⟨hit, hhit, le_rfl⟩
      · exact hkind
    · simpa using ⟨hit, hhit, le_rfl⟩
    · simpa [hslot] using Int.not_le.mp hlater
  · intro hlast cell cutoffMs
    rw [domainCount_eq_card, domainCount_eq_card]
    apply Finset.card_le_card
    intro kind hkind
    simp only [Finset.mem_filter, Finset.mem_univ, true_and, slotAt_ingest] at hkind ⊢
    split
    · next hplaced =>
        obtain ⟨hit, hhit, hlive⟩ := hkind
        obtain ⟨hlocation, rfl⟩ := hplaced
        obtain ⟨coords, hcoords, rfl⟩ := Option.map_eq_some_iff.mp hlocation
        exact ⟨_, rfl, hlive.trans (hlast coords hcoords hit hhit)⟩
    · exact hkind

/-- **The windowed domain count.**  A query whose window starts at or after all cutoffs is
answered as from the full history exactly if too few domains were seen at all or the last hit
of every domain that was seen is in the window; and a signal, new or seen before, lowers no
count exactly if no later hit is in its slot. -/
theorem windowed_domain_count_iff (resolution : Nat) (calls : List GridCall) (coords : Coordinates)
    (minDomains windowMs : Nat) (now : Timestamp) (grid : ConvergenceGrid) (signal : GeoSignal) :
    (1 ≤ minDomains → (∀ cutoff ∈ evictCutoffs calls, cutoff ≤ now.millis - windowMs) →
      ((replay resolution calls).detectAt coords minDomains windowMs now =
          historyDetect resolution calls coords minDomains (now.millis - windowMs) ↔
        (seenDomains resolution calls (quantize coords resolution) (now.millis - windowMs)).card <
          minDomains ∨
          ∀ kind ∈ seenDomains resolution calls (quantize coords resolution)
              (now.millis - windowMs),
            ∃ t ∈ (hits resolution calls (quantize coords resolution) kind).getLast?,
              cutoffMs now windowMs ≤ t)) ∧
    ((∀ cell cutoffMs, grid.domainCount cell cutoffMs ≤
      (grid.ingest signal).domainCount cell cutoffMs) ↔
      ∀ coords ∈ signal.location, ∀ hit ∈ grid.slotAt (quantize coords grid.resolution) signal.kind,
        hit.timestamp.millis ≤ signal.timestamp.millis) :=
  ⟨fun hmin hcutoffs => detectAt_eq_historyDetect_iff hcutoffs hmin coords,
    domainCount_ingest_iff grid signal⟩

/-- A radio signal at the origin of the map. -/
def rfAt (millis : ℤ) (fits : -2 ^ 63 ≤ millis ∧ millis < 2 ^ 63) : GeoSignal :=
  ⟨.rf, ⟨millis, fits⟩, some ⟨0, 0⟩⟩

/-- The later of two signals, a second after the other one. -/
def late : GeoSignal := rfAt 1000 (by decide)

def early : GeoSignal := rfAt 0 (by decide)

theorem hits_of_origin (a b : GeoSignal) (ha : a.kind = .rf ∧ a.location = some ⟨0, 0⟩)
    (hb : b.kind = .rf ∧ b.location = some ⟨0, 0⟩) :
    hits 10000 [.ingest a, .ingest b] (quantize ⟨0, 0⟩ 10000) .rf =
      [a.timestamp.millis, b.timestamp.millis] := by
  simp [hits, GridCall.hit?, ha, hb]

/-- Signals in the order of their timestamps. -/
theorem windowed_domain_count_in_order :
    (replay 10000 [.ingest early, .ingest late]).detectAt ⟨0, 0⟩ 1 500 late.timestamp =
      historyDetect 10000 [.ingest early, .ingest late] ⟨0, 0⟩ 1 500 := by
  refine ((windowed_domain_count_iff 10000 _ ⟨0, 0⟩ 1 500 late.timestamp (replay 10000 []) early).1
    le_rfl ?_).mpr (.inr ?_)
  · simp [evictCutoffs, GridCall.cutoff?]
  · intro kind hkind
    obtain ⟨t, ht, -⟩ := mem_seenDomains.mp hkind
    obtain rfl : kind = .rf := by
      by_contra hne
      simp [hits, GridCall.hit?, early, late, rfAt, Ne.symm hne] at ht
    rw [hits_of_origin early late ⟨rfl, rfl⟩ ⟨rfl, rfl⟩]
    exact ⟨1000, rfl, by decide⟩

/-- The early signal comes late: the domain is lost, and so it is when it comes a second time. -/
theorem late_signal_lost :
    (replay 10000 [.ingest late, .ingest early]).detectAt ⟨0, 0⟩ 1 500 late.timestamp ≠
        historyDetect 10000 [.ingest late, .ingest early] ⟨0, 0⟩ 1 500 ∧
      ¬ ∀ cell cutoffMs, (replay 10000 [.ingest early, .ingest late]).domainCount cell cutoffMs ≤
        ((replay 10000 [.ingest early, .ingest late]).ingest early).domainCount cell cutoffMs := by
  constructor
  · intro heq
    have hseen :
        SignalKind.rf ∈ seenDomains 10000 [.ingest late, .ingest early] (quantize ⟨0, 0⟩ 10000)
        (late.timestamp.millis - (500 : ℕ)) := by
      rw [mem_seenDomains, hits_of_origin late early ⟨rfl, rfl⟩ ⟨rfl, rfl⟩]
      exact ⟨1000, List.mem_cons_self, by decide⟩
    have hnone : ∀ cutoff ∈ evictCutoffs [.ingest late, .ingest early],
        cutoff ≤ late.timestamp.millis - (500 : ℕ) := by simp [evictCutoffs, GridCall.cutoff?]
    obtain hfew | hlast := (detectAt_eq_historyDetect_iff hnone le_rfl _).mp heq
    · exact absurd hfew (Nat.not_lt.mpr (Finset.card_pos.mpr ⟨_, hseen⟩))
    · obtain ⟨t, ht, hlive⟩ := hlast .rf hseen
      rw [hits_of_origin late early ⟨rfl, rfl⟩ ⟨rfl, rfl⟩] at ht
      obtain rfl : 0 = t := Option.some.inj ht
      exact absurd hlive (by decide)
  · rw [domainCount_ingest_iff]
    intro hlast
    have hremembers := remembers_replay 10000 [.ingest early, .ingest late]
    obtain hslot | ⟨-, -, -, cutoff, hcutoff, -⟩ := hremembers.slot (quantize ⟨0, 0⟩ 10000) .rf
    · rw [hits_of_origin early late ⟨rfl, rfl⟩ ⟨rfl, rfl⟩] at hslot
      obtain ⟨hit, hhit, hmillis⟩ := Option.map_eq_some_iff.mp hslot
      have hle := hlast ⟨0, 0⟩ rfl hit (hremembers.scale.symm ▸ hhit)
      rw [hmillis] at hle
      exact absurd hle (by decide)
    · simp [evictCutoffs, GridCall.cutoff?] at hcutoff

end Akroasis.Semaino
