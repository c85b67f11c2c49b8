import Akroasis.Chirp.CommandLine
import Akroasis.Chirp.RoundTrip

/-!
# Akroasis.Chirp.Agreement

The two readers of CHIRP files, on the files of the two writers.

The layouts have the first ten columns in common.  The command line writes and reads a column
for the code of the receiver behind them, `syntonia` does not, so that each takes bandwidth,
scan setting and power of the other's file from the columns next to the right ones.  The
readers also differ on a row without a duplex cell, which `syntonia` reads as simplex and the
command line as receive only, on frequencies that are out of range, and on guarded names.

What is left are the rows on which these differences do not show (`Agreeable`).
-/

namespace Akroasis.Chirp

open Csv Decimal Radio

/-- What the readers are compared on: the channel without its offset and its busy lock. -/
def settings (ch : Channel) : Channel := { ch with offset := .none, busyLock := false }

/-- Both readers accept a file and read the same settings of it. -/
def AgreeOn (csv : Library) (text : Text) : Prop :=
  ∃ plan warnings plan', Syntonia.importChirpCsvReader csv text = .ok (plan, warnings) ∧
    CommandLine.parseChirpCsv csv text = .ok plan' ∧
      plan.channels.map settings = plan'.channels.map settings

/-- The cell is a guarded one for `restore`. -/
def Guarded (cell : Text) : Prop :=
  ∃ first rest, cell = guardChar :: first :: rest ∧ needsGuard first = true

theorem restore_eq_self {cell : Text} : restore cell = cell ↔ ¬ Guarded cell := by
  unfold restore
  split
  · next c first rest =>
      constructor
      · rintro h ⟨first', rest', heq, hfirst⟩
        obtain ⟨rfl, hrest⟩ := List.cons.inj heq
        obtain ⟨rfl, rfl⟩ := List.cons.inj hrest
        rw [if_pos ⟨rfl, hfirst⟩] at h
        simpa using congrArg List.length h
      · intro h
        exact if_neg fun hguard => h ⟨first, rest, by rw [hguard.1], hguard.2⟩
  · next hshort =>
      refine iff_of_true rfl ?_
      rintro ⟨first, rest, rfl, -⟩
      exact hshort _ _ _ rfl

/-! ## Row by row -/

section Rows

variable {cells : Channel → List Text} {channels : List Channel} {P : Channel → Prop}

theorem length_readRows_le (row : Nat) (rows : List (List Text)) :
    (Syntonia.readRows row rows).1.length ≤ rows.length := by
  induction rows generalizing row with
  | nil => exact le_rfl
  | cons record rows ih =>
      have hrest := ih (row + 1)
      have hfirst : ((Syntonia.parseRecord record row).1.toList).length ≤ 1 := by
        cases (Syntonia.parseRecord record row).1 <;> simp
      simp only [Syntonia.readRows, List.length_append, List.length_cons]
      omega

theorem readRows_map_eq_iff {g : Channel → Channel}
    (h : ∀ ch ∈ channels, ∀ row,
      (Syntonia.parseRecord (cells ch) row).1.map settings = some (g ch) ↔ P ch) (row : Nat) :
    (Syntonia.readRows row (channels.map cells)).1.map settings = channels.map g ↔
      ∀ ch ∈ channels, P ch := by
  induction channels generalizing row with
  | nil => simp [Syntonia.readRows]
  | cons ch channels ih =>
      obtain ⟨hfirst, hrest⟩ := List.forall_mem_cons.mp h
      rw [List.forall_mem_cons, ← hfirst row, ← ih hrest (row + 1), List.map_cons,
        Syntonia.readRows]
      cases hread : (Syntonia.parseRecord (cells ch) row).1 with
      | none =>
          -- a skipped row leaves too few channels
          refine iff_of_false (fun heq => ?_) fun hboth => by simpa using hboth.1
          have hle := length_readRows_le (row + 1) (channels.map cells)
          have hlen := congrArg List.length heq
          simp at hlen hle
          omega
      | some read => simp

/-- The command line reads the row or not, and `syntonia` agrees with it if and only if `P`. -/
def RowSpec (cells : Channel → List Text) (P : Channel → Prop) (ch : Channel) : Prop :=
  (CommandLine.Fails ((cells ch).map trim) ∧ ¬ P ch) ∨
    ∃ read, CommandLine.Reads ((cells ch).map trim) read ∧
      ∀ row, (Syntonia.parseRecord (cells ch) row).1.map settings = some (settings read) ↔ P ch

/-- **The readers agree on a file** if and only if they do on each row. -/
theorem agreeOn_iff_of_rows {csv : Library} (hcsv : csv.Lawful) {first : Text} {header : List Text}
    {text : Text} (htext : Encodes ((first :: header) :: channels.map cells) text)
    (hfirst : first.head? ≠ some byteOrderMark) (hrows : ∀ ch ∈ channels, RowSpec cells P ch) :
    AgreeOn csv text ↔ ∀ ch ∈ channels, P ch := by
  have himport := Syntonia.importChirpCsvReader_of_encodes hcsv htext hfirst
  by_cases hfails : ∃ ch ∈ channels, CommandLine.Fails ((cells ch).map trim) ∧ ¬ P ch
  · obtain ⟨ch, hch, hfail, hnot⟩ := hfails
    refine iff_of_false ?_ fun hall => hnot (hall ch hch)
    rintro ⟨_, _, plan', -, hcommand, -⟩
    exact CommandLine.parseChirpCsv_of_fails hcsv htext hfirst
      ⟨_, List.mem_map_of_mem hch, hfail⟩ plan'
      hcommand
  · have hreads : ∀ ch ∈ channels, ∃ read, CommandLine.Reads ((cells ch).map trim) read ∧
        ∀ row, (Syntonia.parseRecord (cells ch) row).1.map settings = some (settings read) ↔ P ch :=
      fun ch hch => (hrows ch hch).resolve_left fun hfail => hfails ⟨ch, hch, hfail⟩
    have : Nonempty Channel := ⟨namedChannel []⟩
    choose! read hread using hreads
    have hcommand : CommandLine.parseChirpCsv csv text = .ok ⟨channels.map read⟩ := by
      apply CommandLine.parseChirpCsv_of_reads hcsv htext hfirst
      rw [List.forall₂_map_left_iff, List.forall₂_map_right_iff, List.forall₂_same]
      exact fun ch hch => (hread ch hch).1
    rw [← readRows_map_eq_iff (g := settings ∘ read) (fun ch hch => (hread ch hch).2) 2,
      ← List.map_map]
    constructor
    · rintro ⟨plan, warnings, plan', hplan, hplan', hsame⟩
      rw [himport] at hplan
      rw [hcommand] at hplan'
      obtain ⟨rfl, rfl⟩ := Prod.mk.inj (Except.ok.inj hplan)
      obtain rfl := Except.ok.inj hplan'
      exact hsame
    · exact fun hsame => ⟨_, _, _, himport, hcommand, hsame⟩

end Rows

/-! ## A row with the first ten columns in common -/

/-- The readers rebuild the same transmit frequency. -/
def DuplexAgrees (duplex : Text) (rxFreq offset : Nat) : Prop :=
  ∃ read, (∀ line, CommandLine.parseOffset line duplex rxFreq (min (2 ^ 64 - 1) offset) =
    .ok read) ∧
    (Syntonia.parseDuplex duplex rxFreq (if offset ≤ 10000000000 then offset else 0)).1 = read.2

/-- The readers take the same settings from the columns behind the first ten. -/
structure TailAgrees (rest : List Text) : Prop where
  power : (Syntonia.parsePower (Syntonia.colOr "High".toList rest 3) 0).1 =
    if rest[4]? = some "Low".toList then .low
      else if rest[4]? = some "Mid".toList then .mid else .high
  bandwidth : (Syntonia.parseBandwidth (Syntonia.colOr "FM".toList rest 0) 0).1 =
    if rest[1]? = some "NFM".toList then .narrow else .wide
  scan : (if Syntonia.colOr [] rest 2 = "S".toList then ScanMode.skip else .included) =
    if rest[3]? = some "S".toList then .skip else .included

theorem parsePower_fst (power : Text) (row : Nat) :
    (Syntonia.parsePower power row).1 = (Syntonia.parsePower power 0).1 := by
  simp only [Syntonia.parsePower]
  repeat' split
  all_goals rfl

theorem parseBandwidth_fst (mode : Text) (row : Nat) :
    (Syntonia.parseBandwidth mode row).1 = (Syntonia.parseBandwidth mode 0).1 := by
  simp only [Syntonia.parseBandwidth]
  repeat' split
  all_goals rfl

/-- Whether the checked arithmetic fails does not depend on the line. -/
theorem parseOffset_cases (duplex : Text) (rxFreq offset : Nat) :
    (∃ read, ∀ line, CommandLine.parseOffset line duplex rxFreq offset = .ok read) ∨
      ∀ line read, CommandLine.parseOffset line duplex rxFreq offset ≠ .ok read := by
  simp only [CommandLine.parseOffset]
  split
  · split
    · exact .inl ⟨_, fun _ => rfl⟩
    · exact .inr fun _ _ => by simp
  · split
    · split
      · exact .inl ⟨_, fun _ => rfl⟩
      · exact .inr fun _ _ => by simp
    · split
      · exact .inl ⟨_, fun _ => rfl⟩
      · exact .inl ⟨_, fun _ => rfl⟩

section Front

variable {index rxFreq offset : Nat} {name duplex : Text} {tone : ToneMode} {rest : List Text}

theorem duplexAgrees_iff {read : FrequencyOffset × Option Frequency}
    (h : ∀ line, CommandLine.parseOffset line duplex rxFreq (min (2 ^ 64 - 1) offset) = .ok read) :
    DuplexAgrees duplex rxFreq offset ↔
      (Syntonia.parseDuplex duplex rxFreq (if offset ≤ 10000000000 then offset else 0)).1 =
        read.2 := by
  constructor
  · rintro ⟨read', hread', hsame⟩
    obtain rfl := Except.ok.inj ((h 0).symm.trans (hread' 0))
    exact hsame
  · exact fun hsame => ⟨read, h, hsame⟩

/-- The settings that the readers take from a row, compared column by column. -/
theorem settings_eq_iff {read : FrequencyOffset × Option Frequency} (row : Nat) :
    settings (Syntonia.frontChannel index name rxFreq duplex offset tone rest row) =
        settings (CommandLine.rowChannel index (trim name) rxFreq tone rest read) ↔
      (Syntonia.parseDuplex duplex rxFreq (if offset ≤ 10000000000 then offset else 0)).1 = read.2 ∧
        ¬ Guarded (trim name) ∧ TailAgrees rest := by
  simp only [settings, Syntonia.frontChannel, CommandLine.rowChannel, Channel.mk.injEq, true_and,
    and_true, restore_eq_self, parsePower_fst _ row, parseBandwidth_fst _ row]
  constructor
  · rintro ⟨hname, htx, hpower, hbandwidth, hscan⟩
    exact ⟨htx, hname, hpower, hbandwidth, hscan⟩
  · rintro ⟨htx, hname, htail⟩
    exact ⟨hname, htx, htail.power, htail.bandwidth, htail.scan⟩

/-- What it takes for the readers to agree on a row. -/
structure RowAgrees (rxFreq : Nat) (name duplex : Text) (offset : Nat) (rest : List Text) :
    Prop where
  positive : 0 < rxFreq
  bounded : rxFreq ≤ 10000000000
  duplex : DuplexAgrees duplex rxFreq offset
  name : ¬ Guarded (trim name)
  rest : TailAgrees rest

theorem rowSpec_of_frontCells {cells : Channel → List Text} {P : Channel → Prop} {ch : Channel}
    {inverted : Text}
    (hcells : cells ch =
      frontCells index name rxFreq duplex offset (toneFields inverted tone) ++ rest)
    (hindex : index < 2 ^ 16) (hduplex : IsPlain duplex) (hrest : ∀ cell ∈ rest, IsPlain cell)
    (hlen : 5 ≤ rest.length) (hinverted : inverted = "RR".toList ∨ inverted = "RN".toList)
    (hP : P ch ↔ RowAgrees rxFreq name duplex offset rest) : RowSpec cells P ch := by
  have hplain : IsPlain inverted := by
    obtain rfl | rfl := hinverted <;> decide
  have hhead : inverted.head? = some 'R' := by
    obtain rfl | rfl := hinverted <;> rfl
  have htrim : (cells ch).map trim =
      frontCells index (trim name) rxFreq duplex offset (toneFields inverted tone) ++ rest := by
    rw [hcells, List.map_append,
      CommandLine.map_trim_frontCells hduplex (plain_toneFields hplain tone),
      CommandLine.map_trim_of_isPlain hrest]
  have hused : ∃ cell ∈ (cells ch).map trim, cell ≠ [] :=
    ⟨Nat.toDigits 10 index, by simp [htrim, frontCells], Nat.toDigits_ne_nil⟩
  have hrow (line : Nat) : CommandLine.parseRow line ((cells ch).map trim) = _ :=
    htrim ▸ CommandLine.parseRow_frontCells line (trim name) duplex rxFreq offset tone hindex
      hlen hinverted
  have hmin (hbounded : rxFreq ≤ 10000000000) : min (2 ^ 64 - 1) rxFreq = rxFreq :=
    Nat.min_eq_right (hbounded.trans (by decide))
  obtain ⟨read, hread⟩ | hfails := parseOffset_cases duplex (min (2 ^ 64 - 1) rxFreq)
    (min (2 ^ 64 - 1) offset)
  · refine .inr ⟨_, ⟨hused, fun line => by rw [hrow, hread]; rfl⟩, fun row => ?_⟩
    rw [hP]
    by_cases hrx : 0 < rxFreq ∧ rxFreq ≤ 10000000000
    · obtain ⟨hpos, hbounded⟩ := hrx
      obtain ⟨warnings, hrecord, -⟩ :=
        Syntonia.parseRecord_frontCells name offset tone rest row hindex
        hpos hbounded hduplex hplain hhead
      rw [hmin hbounded] at hread ⊢
      rw [hcells, hrecord, Option.map_some, Option.some.injEq, settings_eq_iff,
        ← duplexAgrees_iff hread]
      exact ⟨fun h => ⟨hpos, hbounded, h.1, h.2.1, h.2.2⟩, fun h => ⟨h.duplex, h.name, h.rest⟩⟩
    · rw [hcells, Syntonia.parseRecord_of_skipped _ (by omega)]
      exact iff_of_false (by simp) fun h => hrx ⟨h.positive, h.bounded⟩
  · refine .inl ⟨⟨hused, fun line read hok => ?_⟩, fun h => ?_⟩
    · rw [hrow] at hok
      obtain ⟨offset', hok, -⟩ := map_eq_ok.mp hok
      exact hfails line offset' hok
    · obtain ⟨read, hread, -⟩ := (hP.mp h).duplex
      rw [hmin (hP.mp h).bounded] at hfails
      exact hfails 0 read (hread 0)

end Front

/-! ## Duplex and offset -/

section Duplex

variable {rxFreq offset : Nat}

theorem duplexAgrees_plus (hrx : rxFreq ≤ 10000000000) :
    DuplexAgrees "+".toList rxFreq offset ↔ offset ≤ 10000000000 := by
  by_cases hle : offset ≤ 10000000000
  · have hread (line : Nat) :
        CommandLine.parseOffset line "+".toList rxFreq (min (2 ^ 64 - 1) offset) =
          .ok (.plus offset, some (rxFreq + offset)) := by
      have hsum : rxFreq + offset < 2 ^ 64 := by omega
      rw [Nat.min_eq_right (hle.trans (by decide)), CommandLine.parseOffset, if_pos rfl,
        if_pos hsum]
    rw [duplexAgrees_iff hread, if_pos hle, Syntonia.parseDuplex, if_pos rfl]
    exact iff_of_true (congrArg some (Nat.min_eq_right (by omega))) hle
  · refine iff_of_false ?_ hle
    rintro ⟨read, hread, hsame⟩
    have hok := hread 0
    rw [CommandLine.parseOffset, if_pos rfl] at hok
    obtain ⟨-, hok⟩ := ite_ok_eq_ok.mp hok
    obtain rfl := Except.ok.inj hok
    rw [if_neg hle, Syntonia.parseDuplex, if_pos rfl] at hsame
    have hsum : min (2 ^ 64 - 1) (rxFreq + 0) = rxFreq + min (2 ^ 64 - 1) offset :=
      Option.some.inj hsame
    omega

theorem duplexAgrees_minus (hrx : rxFreq ≤ 10000000000) :
    DuplexAgrees "-".toList rxFreq offset ↔ offset ≤ rxFreq := by
  by_cases hle : offset ≤ rxFreq
  · have hread (line : Nat) :
        CommandLine.parseOffset line "-".toList rxFreq (min (2 ^ 64 - 1) offset) =
          .ok (.minus offset, some (rxFreq - offset)) := by
      rw [Nat.min_eq_right ((hle.trans hrx).trans (by decide)),
        CommandLine.parseOffset_minus, if_pos hle]
    rw [duplexAgrees_iff hread, if_pos (hle.trans hrx)]
    simp [Syntonia.parseDuplex, hle]
  · refine iff_of_false ?_ hle
    rintro ⟨read, hread, -⟩
    have hok := hread 0
    rw [CommandLine.parseOffset_minus] at hok
    obtain ⟨hmin, -⟩ := ite_ok_eq_ok.mp hok
    omega

theorem duplexAgrees_split : DuplexAgrees "split".toList rxFreq offset ↔ offset ≤ 10000000000 := by
  have hread (line : Nat) :
      CommandLine.parseOffset line "split".toList rxFreq (min (2 ^ 64 - 1) offset) =
        .ok (.split (min (2 ^ 64 - 1) offset), some (min (2 ^ 64 - 1) offset)) := by
    simp [CommandLine.parseOffset]
  rw [duplexAgrees_iff hread]
  have hduplex (hz : Nat) : (Syntonia.parseDuplex "split".toList rxFreq hz).1 = some hz := by
    simp [Syntonia.parseDuplex]
  rw [hduplex, Option.some.injEq]
  split <;> omega

theorem duplexAgrees_off : DuplexAgrees "off".toList rxFreq offset :=
  ⟨(.none, none), fun line => by simp [CommandLine.parseOffset], by simp [Syntonia.parseDuplex]⟩

/-- Without a duplex cell, `syntonia` reads a simplex channel and the command line none that
transmits. -/
theorem not_duplexAgrees_nil : ¬ DuplexAgrees [] rxFreq offset := by
  rintro ⟨read, hread, hsame⟩
  have hok := hread 0
  simp only [CommandLine.parseOffset] at hok
  simp [Syntonia.parseDuplex] at hok hsame
  obtain rfl := hok
  simp at hsame

end Duplex

/-! ## The columns behind the first ten -/

/-- The settings that a reader falls back on. -/
structure FallsBack (ch : Channel) : Prop where
  wide : ch.bandwidth = .wide
  included : ch.scan = .included
  high : ch.power = .high

theorem tailAgrees_backCells (ch : Channel) :
    TailAgrees (Syntonia.backCells ch) ↔ FallsBack ch := by
  have hmode : Syntonia.colOr "FM".toList (Syntonia.backCells ch) 0 = modeText ch.bandwidth :=
    (isPlain_modeText ch.bandwidth).trim
  have hpower : Syntonia.colOr "High".toList (Syntonia.backCells ch) 3 = powerText ch.power :=
    (isPlain_powerText ch.power).trim
  have hskip : Syntonia.colOr [] (Syntonia.backCells ch) 2 = skipText ch.scan :=
    (isPlain_skipText ch.scan).trim
  -- the command line reads the step, the power level and the comment instead
  have hbandwidth : (Syntonia.backCells ch)[1]? ≠ some "NFM".toList := by
    simp [Syntonia.backCells]
  have hscan : (Syntonia.backCells ch)[3]? ≠ some "S".toList := by
    cases hlevel : ch.power <;> simp [Syntonia.backCells, powerText, hlevel]
  have hlow : (Syntonia.backCells ch)[4]? ≠ some "Low".toList := by
    simp [Syntonia.backCells]
  have hmid : (Syntonia.backCells ch)[4]? ≠ some "Mid".toList := by
    simp [Syntonia.backCells]
  constructor
  · rintro ⟨h1, h2, h3⟩
    rw [hpower, Syntonia.parsePower_powerText, if_neg hlow, if_neg hmid] at h1
    rw [hmode, Syntonia.parseBandwidth_modeText, if_neg hbandwidth] at h2
    rw [hskip, Syntonia.scan_of_skipText, if_neg hscan] at h3
    exact ⟨h2, h3, h1⟩
  · rintro ⟨h1, h2, h3⟩
    refine ⟨?_, ?_, ?_⟩
    · rw [hpower, Syntonia.parsePower_powerText, if_neg hlow, if_neg hmid, h3]
    · rw [hmode, Syntonia.parseBandwidth_modeText, if_neg hbandwidth, h1]
    · rw [hskip, Syntonia.scan_of_skipText, if_neg hscan, h2]

/-- The code of a tone is three digits, whether the tone has one or not. -/
theorem dtcsCode_eq_padded (ch : Channel) :
    ∃ n, (CommandLine.chirpToneFields ch).dtcsCode = padded 3 n := by
  have hdefault : "023".toList = padded 3 23 := by decide
  cases htone : ch.tone with
  | none => exact ⟨23, by simp only [CommandLine.chirpToneFields, htone, toneFields, hdefault]⟩
  | ctcss tone =>
      exact ⟨23, by simp only [CommandLine.chirpToneFields, htone, toneFields, hdefault]⟩
  | dcs code polarity =>
      exact ⟨code.code, by simp only [CommandLine.chirpToneFields, htone, toneFields]⟩

theorem padded_ne {width n : Nat} {s : Text} (hs : ∃ c ∈ s, c.isDigit = false) :
    padded width n ≠ s := by
  obtain ⟨c, hc, hdigit⟩ := hs
  intro h
  have hdigit' := isDigit_of_mem_padded (h ▸ hc : c ∈ padded width n)
  rw [hdigit] at hdigit'
  exact Bool.false_ne_true hdigit'

theorem tailAgrees_chirpTail (ch : Channel) :
    TailAgrees (CommandLine.chirpTail ch) ↔ FallsBack ch := by
  obtain ⟨n, hcode⟩ := dtcsCode_eq_padded ch
  -- `syntonia` reads the code, the step and the scan setting instead
  have hbandwidth :
      (Syntonia.parseBandwidth (Syntonia.colOr "FM".toList (CommandLine.chirpTail ch) 0) 0).1 =
        .wide := by
    have hcell : Syntonia.colOr "FM".toList (CommandLine.chirpTail ch) 0 = padded 3 n :=
      (congrArg trim hcode).trans (isPlain_padded 3 n).trim
    have hnarrow : padded 3 n ≠ "NFM".toList := padded_ne ⟨'F', by decide, by decide⟩
    have hwide : padded 3 n ≠ "FM".toList := padded_ne ⟨'F', by decide, by decide⟩
    rw [hcell, Syntonia.parseBandwidth, if_neg hnarrow, if_neg hwide]
  have hscan : Syntonia.colOr [] (CommandLine.chirpTail ch) 2 ≠ "S".toList := by
    show trim "5.00".toList ≠ "S".toList
    decide
  have hpower :
      (Syntonia.parsePower (Syntonia.colOr "High".toList (CommandLine.chirpTail ch) 3) 0).1 =
      .high := by
    rw [show Syntonia.colOr "High".toList (CommandLine.chirpTail ch) 3 = skipText ch.scan from
      (isPlain_skipText ch.scan).trim]
    cases ch.scan <;> rfl
  have hread := CommandLine.rowChannel_chirpTail ch (.none, none)
  have hlevel := congrArg Channel.power hread
  have hmode := congrArg Channel.bandwidth hread
  have hskip := congrArg Channel.scan hread
  simp only [CommandLine.rowChannel] at hlevel hmode hskip
  constructor
  · rintro ⟨h1, h2, h3⟩
    rw [hpower, hlevel] at h1
    rw [hbandwidth, hmode] at h2
    rw [if_neg hscan, hskip] at h3
    exact ⟨h2.symm, h3.symm, h1.symm⟩
  · rintro ⟨h1, h2, h3⟩
    exact ⟨by rw [hpower, hlevel, h3], by rw [hbandwidth, hmode, h1],
      by rw [if_neg hscan, hskip, h2]⟩

/-! ## The files of the two writers -/

/-- The readers agree on the duplex and offset cells that the command line writes.  It leaves the
duplex cell of every channel without an offset empty. -/
def CommandLine.DuplexAgreeable (ch : Channel) : Prop :=
  match ch.offset with
  | .none => False
  | .plus off => off ≤ 10000000000
  | .minus off => off ≤ ch.rxFreq
  | .split _ => ch.txFreq.getD ch.rxFreq ≤ 10000000000

/-- The readers agree on what the command line writes of the channel. -/
structure CommandLine.Agreeable (ch : Channel) : Prop where
  positive : 0 < ch.rxFreq
  bounded : ch.rxFreq ≤ 10000000000
  duplex : CommandLine.DuplexAgreeable ch
  fallsBack : FallsBack ch
  name : ¬ Guarded (trim ch.name)
  whole : ¬ CommandLine.BreaksLine ch.name

/-- The readers agree on the duplex and offset cells that `syntonia` writes.  It writes `off` for a
channel that does not transmit. -/
def Syntonia.DuplexAgreeable (ch : Channel) : Prop :=
  match ch.offset with
  | .none => ch.txFreq = none
  | .plus off => off ≤ 10000000000
  | .minus off => off ≤ ch.rxFreq
  | .split tx => tx ≤ 10000000000

/-- The readers agree on what `syntonia` writes of the channel. -/
structure Syntonia.Agreeable (ch : Channel) : Prop where
  positive : 0 < ch.rxFreq
  bounded : ch.rxFreq ≤ 10000000000
  duplex : Syntonia.DuplexAgreeable ch
  fallsBack : FallsBack ch
  name : ¬ Guarded (trim (neutralize ch.name))

variable {ch : Channel}

theorem duplexAgrees_commandLine (hrx : ch.rxFreq ≤ 10000000000) :
    DuplexAgrees (CommandLine.chirpDuplexOffset ch).1 ch.rxFreq
      (CommandLine.chirpDuplexOffset ch).2 ↔
      CommandLine.DuplexAgreeable ch := by
  rw [CommandLine.chirpDuplexOffset, CommandLine.DuplexAgreeable]
  cases ch.offset with
  | none => exact iff_of_false not_duplexAgrees_nil id
  | plus off => exact duplexAgrees_plus hrx
  | minus off => exact duplexAgrees_minus hrx
  | split tx => exact duplexAgrees_split

theorem duplexAgrees_syntonia (hrx : ch.rxFreq ≤ 10000000000) :
    DuplexAgrees (Syntonia.duplexParts ch).1 ch.rxFreq (Syntonia.duplexParts ch).2 ↔
      Syntonia.DuplexAgreeable ch := by
  rw [Syntonia.duplexParts, Syntonia.DuplexAgreeable]
  cases ch.offset with
  | none =>
      by_cases htx : ch.txFreq = none
      · simp only [htx, if_true]
        exact iff_of_true duplexAgrees_off trivial
      · simp only [htx, if_false]
        exact iff_of_false not_duplexAgrees_nil id
  | plus off => exact duplexAgrees_plus hrx
  | minus off => exact duplexAgrees_minus hrx
  | split tx => exact duplexAgrees_split

theorem rowSpec_commandLine (hindex : ch.index < 2 ^ 16)
    (hwhole : ¬ CommandLine.BreaksLine ch.name) :
    RowSpec (CommandLine.recordOf CommandLine.chirpRest) CommandLine.Agreeable ch := by
  refine rowSpec_of_frontCells (CommandLine.recordOf_chirpRest ch) hindex
    (CommandLine.isPlain_chirpDuplexOffset ch)
    (fun cell hcell => CommandLine.isPlain_chirpRest ch cell ?_) (by simp [CommandLine.chirpTail])
    (.inl rfl) ?_
  · exact List.mem_of_mem_drop (i := 8) hcell
  · constructor
    · intro h
      exact ⟨h.positive, h.bounded, (duplexAgrees_commandLine h.bounded).mpr h.duplex, h.name,
        (tailAgrees_chirpTail ch).mpr h.fallsBack⟩
    · intro h
      exact ⟨h.positive, h.bounded, (duplexAgrees_commandLine h.bounded).mp h.duplex,
        (tailAgrees_chirpTail ch).mp h.rest, h.name, hwhole⟩

theorem isPlain_backCells (ch : Channel) : ∀ cell ∈ Syntonia.backCells ch, IsPlain cell := by
  have hstep : IsPlain "5.00".toList := by decide
  have hempty : IsPlain [] := isPlain_nil
  simp only [Syntonia.backCells, List.forall_mem_cons, List.not_mem_nil, false_implies,
    implies_true, and_true]
  exact ⟨isPlain_modeText _, hstep, isPlain_skipText _, isPlain_powerText _, hempty, hempty, hempty,
    hempty, hempty⟩

theorem rowSpec_syntonia (hindex : ch.index < 2 ^ 16) :
    RowSpec Syntonia.channelToRecord Syntonia.Agreeable ch := by
  refine rowSpec_of_frontCells (Syntonia.channelToRecord_eq ch) hindex
    (Syntonia.isPlain_duplexParts ch)
    (isPlain_backCells ch) (by simp [Syntonia.backCells]) (.inr rfl) ?_
  constructor
  · intro h
    exact ⟨h.positive, h.bounded, (duplexAgrees_syntonia h.bounded).mpr h.duplex, h.name,
      (tailAgrees_backCells ch).mpr h.fallsBack⟩
  · intro h
    exact ⟨h.positive, h.bounded, (duplexAgrees_syntonia h.bounded).mp h.duplex,
      (tailAgrees_backCells ch).mp h.rest, h.name⟩

/-- A name that breaks its line leaves a row that the command line does not read. -/
theorem not_agreeOn_of_breaksLine {csv : Library} (hcsv : csv.Lawful) {plan : FrequencyPlan}
    (h : ∃ ch ∈ plan.channels, CommandLine.BreaksLine ch.name) :
    ¬ AgreeOn csv (CommandLine.exportChirpCsv plan) := by
  obtain ⟨rows, hrows, hbroken⟩ := CommandLine.exists_encodes_lines CommandLine.bareRest_chirpRest
    plan.channels
  obtain ⟨index, front, hmem⟩ := hbroken h
  have htext : Encodes _ (CommandLine.exportChirpCsv plan) := CommandLine.encodes_chirpHeader hrows
  have hfails : CommandLine.Fails ([Nat.toDigits 10 index, front].map trim) := by
    refine ⟨⟨_, List.mem_cons_self, ?_⟩, fun line ch => CommandLine.parseRow_pair line _ _ ch⟩
    rw [(isPlain_toDigits index).trim]
    exact Nat.toDigits_ne_nil
  rintro ⟨_, _, plan', -, hcommand, -⟩
  exact CommandLine.parseChirpCsv_of_fails hcsv htext (by decide) ⟨_, hmem, hfails⟩ plan' hcommand

/-- **The two readers agree on a file of the command line**, and on one of `syntonia`, if and only
if each channel is one on which their differences do not show. -/
theorem chirp_readers_agree_iff {csv : Library} (hcsv : csv.Lawful) {plan : FrequencyPlan}
    (hindex : ∀ ch ∈ plan.channels, ch.index < 2 ^ 16) :
    (AgreeOn csv (CommandLine.exportChirpCsv plan) ↔
      ∀ ch ∈ plan.channels, CommandLine.Agreeable ch) ∧
    ((∃ text, Syntonia.exportChirpCsv csv plan = .ok text ∧ AgreeOn csv text) ↔
      ∀ ch ∈ plan.channels, Syntonia.Agreeable ch) := by
  constructor
  · by_cases hbroken : ∃ ch ∈ plan.channels, CommandLine.BreaksLine ch.name
    · obtain ⟨ch, hch, hbreaks⟩ := hbroken
      exact iff_of_false (not_agreeOn_of_breaksLine hcsv ⟨ch, hch, hbreaks⟩)
        fun h => (h ch hch).whole hbreaks
    · have hwhole : ∀ ch ∈ plan.channels, ¬ CommandLine.BreaksLine ch.name :=
        fun ch hch hbreaks => hbroken ⟨ch, hch, hbreaks⟩
      exact agreeOn_iff_of_rows hcsv (CommandLine.exportChirpCsv_encodes hwhole) (by decide)
        fun ch hch =>
        rowSpec_commandLine (hindex ch hch) (hwhole ch hch)
  · obtain ⟨text, hexport, htext⟩ := Syntonia.exportChirpCsv_encodes hcsv plan
    have hiff := agreeOn_iff_of_rows hcsv htext (by decide) fun ch hch =>
      rowSpec_syntonia (hindex ch hch)
    rw [← hiff]
    constructor
    · rintro ⟨text', hexport', hagree⟩
      obtain rfl := Except.ok.inj (hexport.symm.trans hexport')
      exact hagree
    · exact fun hagree => ⟨text, hexport, hagree⟩

theorem chirp_readers_agree_repeater :
    (∀ ch ∈ [plusChannel], ch.index < 2 ^ 16) ∧
    AgreeOn plain (CommandLine.exportChirpCsv ⟨[plusChannel]⟩) ∧
    ∃ text, Syntonia.exportChirpCsv plain ⟨[plusChannel]⟩ = .ok text ∧ AgreeOn plain text := by
  have hindex : ∀ ch ∈ [plusChannel], ch.index < 2 ^ 16 := by decide
  have hfallsBack : FallsBack plusChannel := ⟨rfl, rfl, rfl⟩
  have hname : ¬ Guarded (trim plusChannel.name) := restore_eq_self.mp (by decide)
  have hoffset : 600000 ≤ 10000000000 := by decide
  have hcommand : ∀ ch ∈ [plusChannel], CommandLine.Agreeable ch := by
    rw [List.forall_mem_singleton]
    exact ⟨by decide, by decide, hoffset, hfallsBack, hname, by decide⟩
  have hsyntonia : ∀ ch ∈ [plusChannel], Syntonia.Agreeable ch := by
    rw [List.forall_mem_singleton]
    exact ⟨by decide, by decide, hoffset, hfallsBack, hname⟩
  let plan : FrequencyPlan := ⟨[plusChannel]⟩
  have hplan : ∀ ch ∈ plan.channels, ch.index < 2 ^ 16 := hindex
  obtain ⟨hfirst, hsecond⟩ := chirp_readers_agree_iff plain_lawful hplan
  exact ⟨hindex, hfirst.mpr hcommand, hsecond.mpr hsyntonia⟩

/-- A simplex channel: `syntonia` reads it as one from the command line's file, and the command
line reads it as one that does not transmit. -/
theorem chirp_readers_differ_simplex :
    ¬ AgreeOn plain (CommandLine.exportChirpCsv ⟨[namedChannel "CALL".toList]⟩) := by
  let plan : FrequencyPlan := ⟨[namedChannel "CALL".toList]⟩
  have hwhole : ¬ CommandLine.BreaksLine (namedChannel "CALL".toList).name := by decide
  have hplan : ∀ ch ∈ plan.channels, ¬ CommandLine.BreaksLine ch.name :=
    List.forall_mem_singleton.mpr hwhole
  have htext := CommandLine.exportChirpCsv_encodes hplan
  rw [agreeOn_iff_of_rows plain_lawful htext (by decide) (List.forall_mem_singleton.mpr
    (rowSpec_commandLine (by decide) hwhole)), List.forall_mem_singleton]
  exact fun h => h.duplex

end Akroasis.Chirp
