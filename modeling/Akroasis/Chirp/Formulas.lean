import Akroasis.Chirp.CommandLine
import Akroasis.Chirp.Syntonia

/-!
# Akroasis.Chirp.Formulas

Channel names as cells of a spreadsheet.

A name comes from the operator or from a radio, and a cell that begins with one of
`formulaLeaders` is evaluated when the file is opened.  A file is safe if each of its rows
has the columns it should have and no name begins a formula.  The files of `syntonia` are,
for every plan; the two of the command line are if and only if no name in the plan begins a
formula or is written bare with a carriage return in it.
-/

namespace Akroasis.Chirp

open Csv Radio

/-- How a spreadsheet reads a file: the first row is a header, and nothing is trimmed. -/
def spreadsheet : ReaderOptions := ⟨true, true, false⟩

/-- The cell does not begin a formula. -/
def IsText (cell : Text) : Prop := ∀ c ∈ cell.head?, c ∉ formulaLeaders

instance : (cell : Text) → Decidable (IsText cell)
  | [] => .isTrue (by simp [IsText])
  | c :: _ => decidable_of_iff (c ∉ formulaLeaders) (by simp [IsText])

/-- The row has all its columns, and its name does not begin a formula. -/
def SafeRow (columns : Nat) (fields : List Text) : Prop :=
  fields.length = columns ∧ IsText (fields.getD 1 [])

/-- Every data row of a file is safe. -/
def SafeRows (csv : Library) (columns : Nat) (text : Text) : Prop :=
  ∃ records : List Record, csv.records spreadsheet text = records.map .ok ∧
    ∀ record ∈ records, SafeRow columns record.fields

/-- The command line writes the name so that it is read back and does not begin a formula. -/
structure SafeName (name : Text) : Prop where
  text : IsText name
  whole : ¬ CommandLine.BreaksLine name

theorem safeRows_iff {csv : Library} (hcsv : csv.Lawful) {columns : Nat} {first : Text}
    {header : List Text} {rows : List (List Text)} {text : Text}
    (htext : Encodes ((first :: header) :: rows) text) (hfirst : first.head? ≠ some byteOrderMark) :
    SafeRows csv columns text ↔ ∀ fields ∈ rows, SafeRow columns fields := by
  have hbom : text.head? ≠ some byteOrderMark := head?_ne_of_encodes htext (by decide) hfirst
  obtain ⟨records, hrecords, hfields⟩ := hcsv.reads spreadsheet text _ rfl htext hbom
  have hrows : records.map Record.fields = rows := by
    rw [hfields, ReaderOptions.select, spreadsheet]
    simp
  have hall : (∀ fields ∈ rows, SafeRow columns fields) ↔
      ∀ record ∈ records, SafeRow columns record.fields := by
    rw [← hrows, List.forall_mem_map]
  rw [hall]
  constructor
  · rintro ⟨records', hrecords', hsafe⟩
    have hsame : records = records' :=
      List.map_injective_iff.mpr (fun _ _ => Except.ok.inj) (hrecords.symm.trans hrecords')
    exact hsame ▸ hsafe
  · exact fun hsafe => ⟨records, hrecords, hsafe⟩

/-- **Every file of `syntonia` is safe.** -/
theorem safeRows_syntonia {csv : Library} (hcsv : csv.Lawful) (plan : FrequencyPlan) :
    ∃ text, Syntonia.exportChirpCsv csv plan = .ok text ∧ SafeRows csv 19 text := by
  obtain ⟨text, hexport, htext⟩ := Syntonia.exportChirpCsv_encodes hcsv plan
  refine ⟨text, hexport, (safeRows_iff hcsv htext (by decide)).mpr ?_⟩
  rw [List.forall_mem_map]
  exact fun ch _ => ⟨rfl, head?_neutralize ch.name⟩

namespace CommandLine

/-- **A file of the command line is safe** if and only if all names are. -/
theorem safeRows_lines_iff {csv : Library} (hcsv : csv.Lawful) {first : Text} {header : List Text}
    (hbare : ∀ cell ∈ first :: header, IsBare cell) (hline : joined (first :: header) ≠ [])
    (hfirst : first.head? ≠ some byteOrderMark) {rest : Channel → List Text} (hrest : BareRest rest)
    {columns : Nat} (hcolumns : ∀ ch, (recordOf rest ch).length = columns) (hpair : columns ≠ 2)
    (channels : List Channel) :
    SafeRows csv columns (csvLine (first :: header) ++ channels.flatMap (lineOf rest)) ↔
      ∀ ch ∈ channels, SafeName ch.name := by
  obtain ⟨rows, hrows, hbroken⟩ := exists_encodes_lines hrest channels
  by_cases hnames : ∃ ch ∈ channels, BreaksLine ch.name
  · obtain ⟨index, front, hmem⟩ := hbroken hnames
    obtain ⟨ch, hch, hbreaks⟩ := hnames
    rw [safeRows_iff hcsv (encodes_header (by simp) hbare hline hrows) hfirst]
    refine iff_of_false (fun hsafe => ?_) fun hsafe => (hsafe ch hch).whole hbreaks
    exact hpair (hsafe _ hmem).1.symm
  · have hwhole : ∀ ch ∈ channels, ¬ BreaksLine ch.name :=
      fun ch hch hbreaks => hnames ⟨ch, hch, hbreaks⟩
    rw [safeRows_iff hcsv (encodes_header (by simp) hbare hline (encodes_lines hrest hwhole))
      hfirst, List.forall_mem_map]
    refine forall₂_congr fun ch hch => ?_
    exact ⟨fun h => ⟨h.2, hwhole ch hch⟩, fun h => ⟨hcolumns ch, h.text⟩⟩

theorem safeRows_native_iff {csv : Library} (hcsv : csv.Lawful) (plan : FrequencyPlan) :
    SafeRows csv 6 (exportNativeCsv plan) ↔ ∀ ch ∈ plan.channels, SafeName ch.name :=
  safeRows_lines_iff hcsv (by decide) (by decide) (by decide) bareRest_nativeRest
    (fun _ => rfl) (by decide)
    plan.channels

theorem safeRows_chirp_iff {csv : Library} (hcsv : csv.Lawful) (plan : FrequencyPlan) :
    SafeRows csv 20 (exportChirpCsv plan) ↔ ∀ ch ∈ plan.channels, SafeName ch.name :=
  safeRows_lines_iff hcsv (by decide) (by decide) (by decide) bareRest_chirpRest
    (fun _ => rfl) (by decide)
    plan.channels

end CommandLine

/-- **Formula safety of the three writers**: that of `syntonia` is safe for every plan, and the two
of the command line for those in which no name begins a formula or breaks its line. -/
theorem formula_safety_iff {csv : Library} (hcsv : csv.Lawful) (plan : FrequencyPlan) :
    (∃ text, Syntonia.exportChirpCsv csv plan = .ok text ∧ SafeRows csv 19 text) ∧
    (SafeRows csv 6 (CommandLine.exportNativeCsv plan) ↔ ∀ ch ∈ plan.channels, SafeName ch.name) ∧
    (SafeRows csv 20 (CommandLine.exportChirpCsv plan) ↔ ∀ ch ∈ plan.channels, SafeName ch.name) :=
  ⟨safeRows_syntonia hcsv plan, CommandLine.safeRows_native_iff hcsv plan,
    CommandLine.safeRows_chirp_iff hcsv plan⟩

theorem formula_safety_quoted :
    plain.Lawful ∧
    SafeRows plain 20 (CommandLine.exportChirpCsv ⟨[namedChannel "Net, \"A\"".toList]⟩) := by
  refine ⟨plain_lawful, (formula_safety_iff plain_lawful _).2.2.mpr ?_⟩
  simp only [List.forall_mem_singleton]
  exact ⟨by decide, by decide⟩

/-- The command line writes a formula as it is. -/
theorem formula_not_neutralized :
    ¬ SafeRows plain 6 (CommandLine.exportNativeCsv ⟨[namedChannel "=1+1".toList]⟩) := by
  rw [CommandLine.safeRows_native_iff plain_lawful, List.forall_mem_singleton]
  intro hname
  exact absurd hname.text (by decide)

end Akroasis.Chirp
