import Akroasis.Text
import Mathlib.Data.List.Forall2

/-!
# Akroasis.Csv

Comma-separated text, and the interface of a library that reads and writes it.

`Encodes rows text` is the format: records of fields with commas between them, each ended by
a line break, a carriage return or both; blank lines; and fields that are bare or in quotes,
with the quotes in them doubled.  The library itself is a parameter.  `Library` is what a
program calls, and `Library.Lawful` what it may rely on: what is written is an encoding of
the rows, and a reader returns the rows of an encoding.  Nothing is said about other texts
and about the lines that records are found on.

`plain` keeps the laws.  The module names nothing of the repository.
-/

namespace Akroasis.Csv

variable {field line text terminator : Text} {fields : List Text} {rows : List (List Text)}
  {front : Text}

/-! ## The format -/

/-- Characters that no bare field has. -/
def isSpecial (c : Char) : Bool := c == ',' || c == '"' || c == '\r' || c == '\n'

theorem isSpecial_eq_false {c : Char} :
    isSpecial c = false ↔ c ≠ ',' ∧ c ≠ '"' ∧ c ≠ '\r' ∧ c ≠ '\n' := by
  simp [isSpecial, and_assoc]

/-- A field that needs no quotes. -/
def IsBare (field : Text) : Prop := ∀ c ∈ field, isSpecial c = false

instance : Decidable (IsBare field) := List.decidableBAll (fun c => isSpecial c = false) field

/-- A text with its quotes doubled. -/
def doubled (field : Text) : Text := field.flatMap fun c => if c = '"' then ['"', '"'] else [c]

/-- A field in quotes. -/
def quoted (field : Text) : Text := '"' :: (doubled field ++ ['"'])

/-- The ways to write a field. -/
inductive EncodesField : Text → Text → Prop
  | bare {field : Text} (h : IsBare field) : EncodesField field field
  | quoted (field : Text) : EncodesField field (quoted field)

/-- The fields of a record and the text between two line ends. -/
inductive EncodesFields : List Text → Text → Prop
  | single {field text : Text} (h : EncodesField field text) : EncodesFields [field] text
  | cons {field text line : Text} {fields : List Text} (h : EncodesField field text)
      (hs : EncodesFields fields line) : EncodesFields (field :: fields) (text ++ ',' :: line)

/-- The ends of a record. -/
inductive IsTerminator : Text → Prop
  | lf : IsTerminator ['\n']
  | cr : IsTerminator ['\r']
  | crlf : IsTerminator ['\r', '\n']

/-- The records of a text.  An empty line is no record. -/
inductive Encodes : List (List Text) → Text → Prop
  | nil : Encodes [] []
  | blank {terminator text : Text} {rows : List (List Text)} (ht : IsTerminator terminator)
      (h : Encodes rows text) : Encodes rows (terminator ++ text)
  | cons {fields : List Text} {line terminator text : Text} {rows : List (List Text)}
      (hline : EncodesFields fields line) (hne : line ≠ []) (ht : IsTerminator terminator)
      (h : Encodes rows text) : Encodes (fields :: rows) (line ++ (terminator ++ text))

/-- Fields with commas between them. -/
def joined (parts : List Text) : Text := [','].intercalate parts

@[simp] theorem joined_singleton (part : Text) : joined [part] = part := by
  simp [joined]

@[simp] theorem joined_cons_cons (part next : Text) (parts : List Text) :
    joined (part :: next :: parts) = part ++ ',' :: joined (next :: parts) := by
  simp [joined, List.intercalate_cons_cons]

theorem encodesFields_joined {parts : List Text} (h : List.Forall₂ EncodesField fields parts)
    (hne : fields ≠ []) : EncodesFields fields (joined parts) := by
  induction h with
  | nil => exact absurd rfl hne
  | @cons field part fields parts hfirst hrest ih =>
      cases hrest with
      | nil =>
          rw [joined_singleton]
          exact .single hfirst
      | cons hnext hmore =>
          rw [joined_cons_cons]
          exact .cons hfirst (ih (List.cons_ne_nil _ _))

theorem isBare_append {back : Text} (hfront : IsBare front) (hback : IsBare back) :
    IsBare (front ++ back) := by
  simp only [IsBare, List.forall_mem_append]
  exact ⟨hfront, hback⟩

/-- A field that is written bare, and that a reader which trims its fields leaves as it is. -/
def IsPlain (field : Text) : Prop := ∀ c ∈ field, isSpecial c = false ∧ isWhitespace c = false

instance : Decidable (IsPlain field) :=
  List.decidableBAll (fun c => isSpecial c = false ∧ isWhitespace c = false) field

theorem IsPlain.isBare (h : IsPlain field) : IsBare field := fun c hc => (h c hc).1

theorem IsPlain.trim (h : IsPlain field) : trim field = field :=
  trim_of_forall fun c hc => (h c hc).2

theorem isPlain_nil : IsPlain [] := fun _ hc => absurd hc List.not_mem_nil

theorem isPlain_of_isDigit (h : ∀ c ∈ field, c.isDigit = true ∨ c = '.') : IsPlain field := by
  intro c hc
  obtain hdigit | rfl := h c hc
  · simp only [Char.isDigit, Bool.and_eq_true, decide_eq_true_eq] at hdigit
    have hlow : 48 ≤ c.toNat := hdigit.1
    have hhigh : c.toNat ≤ 57 := hdigit.2
    refine ⟨isSpecial_eq_false.mpr ⟨?_, ?_, ?_, ?_⟩, ?_⟩
    · rintro rfl
      revert hlow
      decide
    · rintro rfl
      revert hlow
      decide
    · rintro rfl
      revert hlow
      decide
    · rintro rfl
      revert hlow
      decide
    · simp only [isWhitespace, Bool.or_eq_false_iff, Bool.and_eq_false_iff, decide_eq_false_iff_not,
        beq_eq_false_iff_ne]
      omega
  · exact ⟨rfl, rfl⟩

/-- A field that is written bare with carriage returns in it breaks its record apart: it still is
an encoding, but of other records. -/
theorem exists_encodes_of_loose {back : Text} (hfront : IsBare front)
    (hback : ∀ c ∈ back, c = '\r' ∨ isSpecial c = false) (hline : EncodesFields fields line)
    (htext : Encodes rows text) :
    ∃ rows', Encodes rows' (front ++ back ++ ',' :: (line ++ ('\n' :: text))) := by
  induction back generalizing front with
  | nil =>
      rw [List.append_nil]
      refine ⟨(front :: fields) :: rows, ?_⟩
      have hrecord := Encodes.cons (.cons (.bare hfront) hline) (by simp) .lf htext
      simpa using hrecord
  | cons c back ih =>
      obtain ⟨hc, hrest⟩ := List.forall_mem_cons.mp hback
      obtain rfl | hc := hc
      · obtain ⟨rows', hrows⟩ := @ih [] (by simp [IsBare]) hrest
        by_cases hempty : front = []
        · refine ⟨rows', ?_⟩
          have hblank := Encodes.blank .cr hrows
          simpa [hempty] using hblank
        · refine ⟨[front] :: rows', ?_⟩
          have hrecord := Encodes.cons (.single (.bare hfront)) hempty .cr hrows
          simpa using hrecord
      · have hlonger : IsBare (front ++ [c]) :=
          isBare_append hfront fun d hd => (List.mem_singleton.mp hd) ▸ hc
        obtain ⟨rows', hrows⟩ := ih hlonger hrest
        exact ⟨rows', by simpa using hrows⟩

theorem head?_ne_of_encodesFields {c : Char} (h : EncodesFields (field :: fields) line)
    (hc : isSpecial c = false) (hfield : field.head? ≠ some c) : line.head? ≠ some c := by
  have hcell {part : Text} (hpart : EncodesField field part) : part.head? ≠ some c := by
    cases hpart with
    | bare _ => exact hfield
    | quoted =>
        rintro ⟨⟩
        simp [isSpecial] at hc
  cases h with
  | single hpart => exact hcell hpart
  | @cons _ part line _ hpart _ =>
      cases part with
      | nil =>
          rintro ⟨⟩
          simp [isSpecial] at hc
      | cons d part =>
          have hhead := hcell hpart
          exact hhead

/-- An encoding begins with a special character or as its first field does. -/
theorem head?_ne_of_encodes {c : Char} (h : Encodes ((field :: fields) :: rows) text)
    (hc : isSpecial c = false) (hfield : field.head? ≠ some c) : text.head? ≠ some c := by
  cases h with
  | blank ht _ =>
      cases ht <;>
      · rintro ⟨⟩
        simp [isSpecial] at hc
  | @cons _ line terminator rest _ hline hne _ _ =>
      have hhead := head?_ne_of_encodesFields hline hc hfield
      cases line with
      | nil => exact absurd rfl hne
      | cons d line => exact hhead

/-! ## Libraries -/

/-- An error of a library: where it is, if it is somewhere, and its text. -/
structure Error where
  line : Option Nat
  message : Text
  deriving DecidableEq, Repr

/-- A record and the line it starts on. -/
structure Record where
  fields : List Text
  line : Option Nat
  deriving DecidableEq, Repr

/-- The settings of a reader. -/
structure ReaderOptions where
  /-- The first record is a header. -/
  hasHeaders : Bool
  /-- Records may have different numbers of fields. -/
  flexible : Bool
  /-- White space is taken off the ends of all fields. -/
  trimAll : Bool
  deriving DecidableEq, Repr

/-- The records that a reader returns of the rows of a text. -/
def ReaderOptions.select (options : ReaderOptions) (rows : List (List Text)) : List (List Text) :=
  (if options.hasHeaders then rows.tail else rows).map fun fields =>
    if options.trimAll then fields.map trim else fields

/-- A library: a writer that does not allow records of different lengths, and readers. -/
structure Library where
  write : List (List Text) → Except Error Text
  records : ReaderOptions → Text → List (Except Error Record)

/-- The mark that a reader takes off the start of a text. -/
def byteOrderMark : Char := Char.ofNat 0xFEFF

/-- What a library promises. -/
structure Library.Lawful (csv : Library) : Prop where
  writes : ∀ rows, (∀ fields ∈ rows, fields ≠ [] ∧ fields.length = (rows.headD []).length) →
    ∃ text, csv.write rows = .ok text ∧ Encodes rows text
  reads : ∀ options text rows, options.flexible = true → Encodes rows text →
    text.head? ≠ some byteOrderMark →
    ∃ records : List Record, csv.records options text = records.map .ok ∧
      records.map Record.fields = options.select rows

/-! ## A library that keeps the laws -/

/-- Where a reader is: in a bare field, in quotes, or behind a quote. -/
inductive Mode
  | bare
  | quotes
  | closed

/-- The rows of a text, from within a record of which `row` and `field` have been read. -/
def read : Mode → List Text → Text → Text → List (List Text)
  | .bare, row, field, [] => if row = [] ∧ field = [] then [] else [row ++ [field]]
  | .bare, row, field, c :: text =>
      if c = ',' then read .bare (row ++ [field]) [] text
      else if c = '\r' ∨ c = '\n' then
        if row = [] ∧ field = [] then read .bare [] [] text
        else (row ++ [field]) :: read .bare [] [] text
      else if c = '"' ∧ field = [] then read .quotes row [] text
      else read .bare row (field ++ [c]) text
  | .quotes, row, field, [] => [row ++ [field]]
  | .quotes, row, field, c :: text =>
      if c = '"' then read .closed row field text else read .quotes row (field ++ [c]) text
  | .closed, row, field, [] => [row ++ [field]]
  | .closed, row, field, c :: text =>
      if c = '"' then read .quotes row (field ++ [c]) text
      else if c = ',' then read .bare (row ++ [field]) [] text
      else if c = '\r' ∨ c = '\n' then (row ++ [field]) :: read .bare [] [] text
      else read .bare row (field ++ [c]) text

/-- A field as it is written: in quotes where it needs them. -/
def written (field : Text) : Text := if IsBare field then field else quoted field

/-- A record as it is written.  An empty line would be no record, so a lone empty field is
quoted. -/
def writtenRecord (fields : List Text) : Text :=
  if joined (fields.map written) = [] then quoted [] else joined (fields.map written)

/-- A library that quotes where it is necessary. -/
def plain : Library where
  write rows := .ok (rows.flatMap fun fields => writtenRecord fields ++ ['\n'])
  records options text :=
    (options.select (read .bare [] [] text)).map fun fields => .ok ⟨fields, none⟩

variable {row : List Text} {c : Char}

theorem read_bare (hfield : IsBare field) :
    read .bare row front (field ++ text) = read .bare row (front ++ field) text := by
  induction field generalizing front with
  | nil => simp
  | cons c field ih =>
      obtain ⟨hc, hrest⟩ := List.forall_mem_cons.mp hfield
      obtain ⟨hcomma, hquote, hcr, hlf⟩ := isSpecial_eq_false.mp hc
      rw [List.cons_append, read, if_neg hcomma, if_neg (by simp [hcr, hlf]),
        if_neg (by simp [hquote]), ih hrest, List.append_assoc, List.singleton_append]

theorem read_doubled :
    read .quotes row front (doubled field ++ '"' :: text) =
      read .closed row (front ++ field) text := by
  induction field generalizing front with
  | nil => simp [doubled, read]
  | cons c field ih =>
      have hdoubled : doubled (c :: field) = (if c = '"' then ['"', '"'] else [c]) ++
          doubled field := rfl
      rw [hdoubled]
      by_cases hc : c = '"'
      · subst hc
        simp [read, ih]
      · simp [read, hc, ih]

/-- A field that is followed by another one. -/
theorem read_field (h : EncodesField field line) :
    read .bare row [] (line ++ ',' :: text) = read .bare (row ++ [field]) [] text := by
  cases h with
  | bare hfield => simp [read_bare hfield, read]
  | quoted => simp [quoted, read, read_doubled]

/-- The last field of a record. -/
theorem read_last (h : EncodesField field line) (hc : c = '\r' ∨ c = '\n')
    (hne : row ≠ [] ∨ line ≠ []) :
    read .bare row [] (line ++ c :: text) = (row ++ [field]) :: read .bare [] [] text := by
  have hcomma : c ≠ ',' := by
    obtain rfl | rfl := hc <;> decide
  have hquote : c ≠ '"' := by
    obtain rfl | rfl := hc <;> decide
  cases h with
  | bare hfield =>
      have hrecord : ¬ (row = [] ∧ field = []) := by tauto
      simp [read_bare hfield, read, hcomma, hc, hrecord]
  | quoted => simp [quoted, read, read_doubled, hcomma, hquote, hc]

theorem read_fields (h : EncodesFields fields line) (hc : c = '\r' ∨ c = '\n')
    (hne : row ≠ [] ∨ line ≠ []) :
    read .bare row [] (line ++ c :: text) = (row ++ fields) :: read .bare [] [] text := by
  induction h generalizing row with
  | single hfield => exact read_last hfield hc hne
  | cons hfield _ ih =>
      rw [List.append_assoc, List.cons_append, read_field hfield, ih (.inl (by simp))]
      simp

theorem read_terminator (h : IsTerminator terminator) :
    read .bare [] [] (terminator ++ text) = read .bare [] [] text := by
  cases h <;> simp [read]

/-- Every encoding is read as its rows. -/
theorem read_of_encodes (h : Encodes rows text) : read .bare [] [] text = rows := by
  induction h with
  | nil => rfl
  | blank ht _ ih => rw [read_terminator ht, ih]
  | cons hline hne ht _ ih =>
      cases ht with
      | lf =>
          rw [List.singleton_append, read_fields hline (.inr rfl) (.inr hne), ih, List.nil_append]
      | cr =>
          rw [List.singleton_append, read_fields hline (.inl rfl) (.inr hne), ih, List.nil_append]
      | crlf =>
          rw [List.cons_append, read_fields hline (.inl rfl) (.inr hne), read_terminator .lf, ih,
            List.nil_append]

theorem encodesField_written (field : Text) : EncodesField field (written field) := by
  unfold written
  split
  · next hbare => exact .bare hbare
  · exact .quoted field

/-- Only a lone empty field leaves a line empty. -/
theorem eq_singleton_of_joined (h : joined (fields.map written) = []) (hne : fields ≠ []) :
    fields = [[]] := by
  match fields with
  | [] => exact absurd rfl hne
  | [field] =>
      have hempty : written field = [] := by simpa using h
      have hencodes := encodesField_written field
      rw [hempty] at hencodes
      cases hencodes
      rfl
  | field :: next :: rest => simp at h

theorem encodesFields_writtenRecord (hne : fields ≠ []) :
    EncodesFields fields (writtenRecord fields) ∧ writtenRecord fields ≠ [] := by
  unfold writtenRecord
  split
  · next hempty =>
    rw [eq_singleton_of_joined hempty hne]
    exact ⟨.single (.quoted []), List.cons_ne_nil _ _⟩
  · next hline =>
    refine ⟨encodesFields_joined ?_ hne, hline⟩
    rw [List.forall₂_map_right_iff, List.forall₂_same]
    exact fun field _ => encodesField_written field

theorem plain_lawful : plain.Lawful where
  writes rows hrows := by
    refine ⟨_, rfl, ?_⟩
    have hne : ∀ fields ∈ rows, fields ≠ [] := fun fields hmem => (hrows fields hmem).1
    clear hrows
    induction rows with
    | nil => exact .nil
    | cons fields rows ih =>
        obtain ⟨hfields, hrest⟩ := List.forall_mem_cons.mp hne
        obtain ⟨hencodes, hline⟩ := encodesFields_writtenRecord hfields
        rw [List.flatMap_cons, List.append_assoc]
        exact .cons hencodes hline .lf (ih hrest)
  reads options text rows _ htext _ := by
    refine ⟨(options.select rows).map fun fields => ⟨fields, none⟩, ?_, ?_⟩
    · simp [plain, read_of_encodes htext]
    · rw [List.map_map]
      exact List.map_id' _

end Akroasis.Csv
