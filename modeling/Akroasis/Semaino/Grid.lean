import Akroasis.Table
import Mathlib.Data.Fintype.Card
import Mathlib.Data.Rat.Floor

/-!
# Akroasis.Semaino.Grid

The convergence grid (`semaino::convergence`): signals are placed into cells of a quantised
map, and every cell keeps one hit for each signal domain.

Coordinates are rational numbers, and so is the arithmetic on them, which is `f64` in the
source.  What a cell keeps is read with `slotAt`; `slotAt_ingest` and `slotAt_evict` say what
the two calls do to it, and `domainCount_eq_card` that the number a cell reports is the number
of domains whose slot holds a hit in the window.
-/

namespace Akroasis.Semaino

/-! ## Signals -/

/-- The domain a signal belongs to; what it carries besides is not looked at here. -/
inductive SignalKind
  | rf
  | mesh
  | network
  | proximity
  | gps
  | environmental
  | osint
  deriving DecidableEq, Repr

/-- All domains. -/
def SignalKind.all : List SignalKind :=
  [.rf, .mesh, .network, .proximity, .gps, .environmental, .osint]

theorem SignalKind.nodup_all : SignalKind.all.Nodup := by decide

instance : Fintype SignalKind := ⟨SignalKind.all.toFinset, fun kind => by cases kind <;> decide⟩

/-- A point in time, by its Unix milliseconds (an `i64`). -/
structure Timestamp where
  millis : ℤ
  fits : -2 ^ 63 ≤ millis ∧ millis < 2 ^ 63
  deriving DecidableEq

structure Coordinates where
  latitude : ℚ
  longitude : ℚ
  deriving DecidableEq

structure GeoSignal where
  kind : SignalKind
  timestamp : Timestamp
  location : Option Coordinates
  deriving DecidableEq

/-! ## Cells -/

/-- A cell of the map. -/
structure GridCell where
  lat : ℤ
  lon : ℤ
  deriving DecidableEq, Repr

/-- A conversion to `i32`, which saturates. -/
def asI32 (x : ℤ) : ℤ := max (-2 ^ 31) (min (2 ^ 31 - 1) x)

def quantize (coords : Coordinates) (resolution : Nat) : GridCell :=
  ⟨asI32 (coords.latitude * resolution).floor, asI32 (coords.longitude * resolution).floor⟩

/-- The midpoint of a cell, clamped to the map. -/
def cellCenter (cell : GridCell) (resolution : Nat) : Coordinates :=
  let half : ℚ := 1 / 2 / resolution
  ⟨max (-90) (min 90 (cell.lat / resolution + half)),
    max (-180) (min 180 (cell.lon / resolution + half))⟩

/-! ## Slots -/

structure DomainHit where
  kind : SignalKind
  timestamp : Timestamp
  deriving DecidableEq

def domainSlots : Nat := 8

def kindDiscriminant : SignalKind → Nat
  | .rf => 0
  | .mesh => 1
  | .network => 2
  | .proximity => 3
  | .gps => 4
  | .environmental => 5
  | .osint => 6

/-- The slot of a discriminant; 255 stands for domains to come. -/
def slotIndex (discriminant : Nat) : Nat :=
  if discriminant = 255 then domainSlots - 1 else discriminant

/-- The slot of a domain. -/
def slotOf (kind : SignalKind) : Nat := slotIndex (kindDiscriminant kind)

/-- One hit for each domain at most, in its own slot. -/
structure DomainSlots where
  slots : List (Option DomainHit)
  length_slots : slots.length = domainSlots
  placed : ∀ i hit, slots[i]? = some (some hit) → slotOf hit.kind = i

namespace DomainSlots

/-- Eight empty slots. -/
def empty : DomainSlots where
  slots := List.replicate domainSlots none
  length_slots := List.length_replicate ..
  placed i hit h := by simp [List.getElem?_replicate] at h

def record (s : DomainSlots) (hit : DomainHit) : DomainSlots where
  slots := s.slots.set (slotOf hit.kind) (some hit)
  length_slots := by rw [List.length_set, s.length_slots]
  placed i other h := by
    rw [List.getElem?_set] at h
    split at h
    · next heq =>
        split at h
        · obtain rfl : hit = other := by simpa using h
          exact heq
        · simp at h
    · exact s.placed i other h

/-- The hits at or after `cutoffMs`. -/
def withinWindow (s : DomainSlots) (cutoffMs : ℤ) : List DomainHit :=
  (s.slots.filterMap id).filter fun hit => cutoffMs ≤ hit.timestamp.millis

def distinctDomains (s : DomainSlots) (cutoffMs : ℤ) : Nat := (s.withinWindow cutoffMs).length

/-- The slots once hits older than `cutoffMs` are dropped. -/
def evict (s : DomainSlots) (cutoffMs : ℤ) : DomainSlots where
  slots := s.slots.map fun slot => slot.filter fun hit => cutoffMs ≤ hit.timestamp.millis
  length_slots := by rw [List.length_map, s.length_slots]
  placed i hit h := by
    rw [List.getElem?_map, Option.map_eq_some_iff] at h
    obtain ⟨slot, hslot, hfilter⟩ := h
    exact s.placed i hit (hslot.trans (congrArg some (Option.filter_eq_some_iff.mp hfilter).1))

def anyRemaining (s : DomainSlots) : Bool := s.slots.any Option.isSome

/-- The hit that is kept for a domain. -/
def hitOf (s : DomainSlots) (kind : SignalKind) : Option DomainHit := (s.slots[slotOf kind]?).join

end DomainSlots

/-! ## The grid -/

structure ConvergenceGrid where
  cells : Table GridCell DomainSlots
  resolution : Nat

/-- A cell in which enough domains have been seen. -/
structure Convergence where
  center : Coordinates
  domainCount : Nat
  deriving DecidableEq

/-- A conversion to `i64`, which wraps around. -/
def asI64 (x : ℤ) : ℤ := (x + 2 ^ 63) % 2 ^ 64 - 2 ^ 63

/-- The start of the window, in the arithmetic of `i64`. -/
def cutoffMs (now : Timestamp) (windowMs : Nat) : ℤ := asI64 (now.millis - asI64 windowMs)

namespace ConvergenceGrid

def new (resolution : Nat) : ConvergenceGrid := ⟨∅, resolution⟩

/-- Signals without a location are skipped. -/
def ingest (grid : ConvergenceGrid) (signal : GeoSignal) : ConvergenceGrid :=
  match signal.location with
  | none => grid
  | some coords =>
      let cell := quantize coords grid.resolution
      let slots := (grid.cells.lookup cell).getD .empty
      { grid with cells := grid.cells.insert cell (slots.record ⟨signal.kind, signal.timestamp⟩) }

def convergedCell (grid : ConvergenceGrid) (cell : GridCell) (minDomains : Nat) (cutoffMs : ℤ) :
    Option Convergence := do
  let slots ← grid.cells.lookup cell
  let distinct := slots.distinctDomains cutoffMs
  if distinct ≥ minDomains then some ⟨cellCenter cell grid.resolution, distinct⟩ else none

def detectAt (grid : ConvergenceGrid) (coords : Coordinates) (minDomains windowMs : Nat)
    (now : Timestamp) : Option Convergence :=
  grid.convergedCell (quantize coords grid.resolution) minDomains (cutoffMs now windowMs)

/-- Cells without a hit left are removed. -/
def evict (grid : ConvergenceGrid) (olderThan : Timestamp) : ConvergenceGrid :=
  { grid with
    cells := (grid.cells.mapValues fun _ slots => slots.evict olderThan.millis).retain
      fun _ slots => slots.anyRemaining }

/-- The hit that a cell keeps for a domain. -/
def slotAt (grid : ConvergenceGrid) (cell : GridCell) (kind : SignalKind) : Option DomainHit :=
  (grid.cells.lookup cell).bind fun slots => slots.hitOf kind

/-- The number of domains a cell reports from `cutoffMs` on. -/
def domainCount (grid : ConvergenceGrid) (cell : GridCell) (cutoffMs : ℤ) : Nat :=
  ((grid.cells.lookup cell).map fun slots => slots.distinctDomains cutoffMs).getD 0

end ConvergenceGrid

/-! ## What the calls do to a slot -/

theorem slotOf_lt (kind : SignalKind) : slotOf kind < 7 := by
  cases kind <;> decide

theorem slotOf_injective {kind kind' : SignalKind} (h : slotOf kind = slotOf kind') :
    kind = kind' := by
  revert h
  cases kind <;> cases kind' <;> decide

namespace DomainSlots

variable (s : DomainSlots)

theorem slotOf_lt_length (kind : SignalKind) : slotOf kind < s.slots.length := by
  rw [s.length_slots]
  exact (slotOf_lt kind).trans (by decide)

theorem hitOf_empty (kind : SignalKind) : empty.hitOf kind = none := by
  simp only [hitOf, empty, List.getElem?_replicate]
  split <;> rfl

theorem hitOf_record (hit : DomainHit) (kind : SignalKind) :
    (s.record hit).hitOf kind = if hit.kind = kind then some hit else s.hitOf kind := by
  have hlt := s.slotOf_lt_length kind
  by_cases h : hit.kind = kind
  · simp [hitOf, record, h, hlt]
  · have hne : slotOf hit.kind ≠ slotOf kind := fun heq => h (slotOf_injective heq)
    simp [hitOf, record, h, hne]

theorem hitOf_evict (cutoffMs : ℤ) (kind : SignalKind) :
    (s.evict cutoffMs).hitOf kind = (s.hitOf kind).filter fun hit =>
      cutoffMs ≤ hit.timestamp.millis := by
  simp only [hitOf, evict, List.getElem?_map]
  cases s.slots[slotOf kind]? <;> rfl

theorem getElem?_slotOf (kind : SignalKind) : s.slots[slotOf kind]? = some (s.hitOf kind) := by
  rw [hitOf, List.getElem?_eq_getElem (s.slotOf_lt_length kind)]
  rfl

/-- Seven slots for the domains, and one that no signal fills. -/
theorem slots_eq : s.slots = SignalKind.all.map s.hitOf ++ [none] := by
  apply List.ext_getElem?
  intro i
  match i with
  | 0 => exact s.getElem?_slotOf .rf
  | 1 => exact s.getElem?_slotOf .mesh
  | 2 => exact s.getElem?_slotOf .network
  | 3 => exact s.getElem?_slotOf .proximity
  | 4 => exact s.getElem?_slotOf .gps
  | 5 => exact s.getElem?_slotOf .environmental
  | 6 => exact s.getElem?_slotOf .osint
  | 7 =>
      have hlt : 7 < s.slots.length := by
        rw [s.length_slots]
        decide
      show s.slots[7]? = some none
      cases hslot : s.slots[7]? with
      | none => exact absurd (List.getElem?_eq_none_iff.mp hslot) (Nat.not_le.mpr hlt)
      | some slot =>
          cases slot with
          | none => rfl
          | some hit => exact absurd (s.placed 7 hit hslot) (slotOf_lt hit.kind).ne
  | n + 8 =>
      have hlong : s.slots.length ≤ n + 8 := by
        rw [s.length_slots]
        exact Nat.le_add_left 8 n
      rw [List.getElem?_eq_none hlong]
      rfl

theorem length_filter_filterMap (kinds : List SignalKind) (f : SignalKind → Option DomainHit)
    (p : DomainHit → Bool) :
    (((kinds.map f).filterMap id).filter p).length =
      (kinds.filter fun kind => (f kind).any p).length := by
  induction kinds with
  | nil => rfl
  | cons kind kinds ih =>
      cases hf : f kind with
      | none => simpa [hf] using ih
      | some hit => cases hp : p hit <;> simpa [hf, hp] using ih

/-- The number of slots in the window is the number of domains. -/
theorem distinctDomains_eq_card (cutoffMs : ℤ) : s.distinctDomains cutoffMs =
    (Finset.univ.filter fun kind => ∃ hit ∈ s.hitOf kind, cutoffMs ≤
      hit.timestamp.millis).card := by
  have hfilter :
      (Finset.univ.filter fun kind => ∃ hit ∈ s.hitOf kind, cutoffMs ≤ hit.timestamp.millis) =
      (SignalKind.all.filter fun kind =>
        (s.hitOf kind).any fun hit => cutoffMs ≤ hit.timestamp.millis).toFinset := by
    ext kind
    have hall : kind ∈ SignalKind.all := by cases kind <;> decide
    simp [hall, Option.any_eq_true]
  rw [hfilter, List.toFinset_card_of_nodup (SignalKind.nodup_all.filter _), distinctDomains,
    withinWindow, slots_eq, List.filterMap_append, ← length_filter_filterMap]
  simp

end DomainSlots

namespace ConvergenceGrid

variable (grid : ConvergenceGrid) (cell : GridCell) (kind : SignalKind)

/-- A signal fills the slot of its domain in its cell, whatever is there. -/
theorem slotAt_ingest (signal : GeoSignal) : (grid.ingest signal).slotAt cell kind =
    if signal.location.map (quantize · grid.resolution) = some cell ∧ signal.kind = kind then
      some ⟨signal.kind, signal.timestamp⟩
    else grid.slotAt cell kind := by
  rw [ingest]
  cases hlocation : signal.location with
  | none => simp
  | some coords =>
      simp only [slotAt, Table.lookup_insert_ite, Option.map_some, Option.some.injEq]
      by_cases hcell : cell = quantize coords grid.resolution
      · subst hcell
        rw [if_pos rfl, Option.bind_some, DomainSlots.hitOf_record]
        by_cases hkind : signal.kind = kind
        · simp [hkind]
        · cases grid.cells.lookup (quantize coords grid.resolution) <;>
            simp [hkind, DomainSlots.hitOf_empty]
      · rw [if_neg hcell, if_neg fun h => hcell h.1.symm]

/-- An eviction drops the hits that are too old. -/
theorem slotAt_evict (olderThan : Timestamp) : (grid.evict olderThan).slotAt cell kind =
    (grid.slotAt cell kind).filter fun hit => olderThan.millis ≤ hit.timestamp.millis := by
  simp only [slotAt, evict, Table.lookup_retain, Table.lookup_mapValues]
  cases grid.cells.lookup cell with
  | none => rfl
  | some slots =>
      simp only [Option.map_some, Option.bind_some]
      rw [← DomainSlots.hitOf_evict]
      cases hany : (slots.evict olderThan.millis).anyRemaining with
      | true => simp [Option.filter, hany]
      | false =>
          -- a cell that is removed has no hit left
          have hnone : (slots.evict olderThan.millis).hitOf kind = none := by
            cases hhit : (slots.evict olderThan.millis).hitOf kind with
            | none => rfl
            | some hit =>
                have hmem :=
                  List.mem_of_getElem?
                    ((DomainSlots.getElem?_slotOf _ kind).trans (congrArg some hhit))
                have hsome : (slots.evict olderThan.millis).anyRemaining = true :=
                  List.any_eq_true.mpr ⟨_, hmem, rfl⟩
                exact absurd (hsome.symm.trans hany) (by decide)
          simp [Option.filter, hany, hnone]

/-- What a cell reports is the number of domains with a hit in the window. -/
theorem domainCount_eq_card (cutoffMs : ℤ) : grid.domainCount cell cutoffMs =
    (Finset.univ.filter fun kind =>
      ∃ hit ∈ grid.slotAt cell kind, cutoffMs ≤ hit.timestamp.millis).card := by
  cases hcell : grid.cells.lookup cell with
  | none => simp [domainCount, slotAt, hcell]
  | some slots => simpa [domainCount, slotAt, hcell] using slots.distinctDomains_eq_card cutoffMs

/-- With a minimum of one domain a cell that is not there is one that reports none. -/
theorem convergedCell_eq {minDomains : Nat} (hmin : 1 ≤ minDomains) (cutoffMs : ℤ) :
    grid.convergedCell cell minDomains cutoffMs =
      if minDomains ≤ grid.domainCount cell cutoffMs then
        some ⟨cellCenter cell grid.resolution, grid.domainCount cell cutoffMs⟩
      else none := by
  rw [convergedCell, domainCount]
  cases grid.cells.lookup cell with
  | none => simp [Nat.not_le.mpr hmin]
  | some slots => rfl

end ConvergenceGrid

end Akroasis.Semaino
