import Mathlib.Data.List.TakeWhile
import Akroasis.Decimal
import Akroasis.Directory

/-!
# Akroasis.TamperLog.Paths

The file names a tamper log uses (`tamper_log_rotation.rs`, `seal_path` and
`lock_path`): the live file, its seal, lock and temporary seal, and the rotated
segments `{stem}.{n}.log` with their seals.

A log path is the name of the live file inside its directory; names are lists
of characters, as `file_name().to_string_lossy()` gives them.  The point of the
module is `LogFile.name_injective`: the files of one log never collide, whatever
the live file is called, so every later proof can treat a directory as a map
from `LogFile`.
-/

namespace Akroasis.TamperLog

/-! ## Stems -/

/-- `Path::file_stem`: the name up to its last dot, or the whole name when it has
no dot or only a leading one.  (A path that ends in `..` names no file at all and
cannot be opened as one.) -/
def fileStem (name : FileName) : FileName :=
  match name.reverse.dropWhile (· ≠ '.') with
  | [] => name
  | _ :: before => if before = [] then name else before.reverse

/-- `log_stem`: `"audit"` from `"audit.log"`. -/
def logStem (path : FileName) : FileName := fileStem path

/-! ## Rotation paths -/

/-- The largest `u32`. -/
def maxU32 : Nat := 2 ^ 32 - 1

/-- `format!("{n}")` of an unsigned number. -/
def decimal (n : Nat) : List Char := Nat.toDigits 10 n

/-- `rotation_path`: `{stem}.{n}.log`. -/
def rotationPath (path : FileName) (n : Nat) : FileName :=
  logStem path ++ '.' :: (decimal n ++ ".log".toList)

/-- `str::strip_prefix`. -/
def stripPrefix (front s : List Char) : Option (List Char) :=
  if front <+: s then some (s.drop front.length) else none

/-- `str::strip_suffix`. -/
def stripSuffix (back s : List Char) : Option (List Char) :=
  if back <:+ s then some (s.take (s.length - back.length)) else none

/-- `str::parse::<u32>`: an optional plus sign, at least one decimal digit, no
overflow. -/
def parseU32 (s : List Char) : Option Nat :=
  let digits := if s.head? = some '+' then s.tail else s
  if digits = [] then none
  else if digits.all Char.isDigit then
    if Nat.ofDigitChars 10 digits 0 ≤ maxU32 then some (Nat.ofDigitChars 10 digits 0) else none
  else none

/-- `parse_rotation_number`: `{stem}.{n}.log` gives `n`. -/
def parseRotationNumber (name stem : FileName) : Option Nat := do
  let rest ← stripPrefix (stem ++ ['.']) name
  let inner ← stripSuffix ".log".toList rest
  parseU32 inner

/-- The rotation numbers visible in a directory listing. -/
def rotationNumbers (listing : List FileName) (stem : FileName) : List Nat :=
  listing.filterMap fun name => parseRotationNumber name stem

/-- `next_rotation_number`: one past the largest number in use, saturating at
`u32::MAX`. -/
def nextRotationNumber (listing : List FileName) (path : FileName) : Nat :=
  min ((rotationNumbers listing (logStem path)).foldl max 0 + 1) maxU32

/-! ## Sidecars -/

/-- `seal_path`: `{path}.seal`. -/
def sealPath (path : FileName) : FileName := path ++ ".seal".toList

/-- The sibling `write_seal` writes before renaming it into place. -/
def sealTmpPath (path : FileName) : FileName := sealPath path ++ ".tmp".toList

/-- `lock_path`: `{path}.lock`. -/
def lockPath (path : FileName) : FileName := path ++ ".lock".toList

/-! ## Decimal numbers -/

theorem isDigit_of_mem_decimal {n : Nat} {c : Char} (h : c ∈ decimal n) : c.isDigit = true :=
  Decimal.isDigit_of_mem_toDigits h

theorem count_dot_decimal (n : Nat) : (decimal n).count '.' = 0 := by
  rw [List.count_eq_zero]
  intro h
  exact absurd (isDigit_of_mem_decimal h) (by decide)

theorem decimal_injective : Function.Injective decimal := by
  intro m n h
  have h' := congrArg (fun ds => Nat.ofDigitChars 10 ds 0) h
  simpa [decimal] using h'

/-- A printed `u32` parses back. -/
theorem parseU32_decimal {n : Nat} (h : n ≤ maxU32) : parseU32 (decimal n) = some n :=
  Decimal.parseUnsigned_toDigits h

/-! ## Parsing a rotation path back -/

theorem stripPrefix_append (front rest : List Char) :
    stripPrefix front (front ++ rest) = some rest := by
  rw [stripPrefix, if_pos (List.prefix_append _ _), drop_append_of_length rfl]

theorem stripPrefix_eq_some {front s rest : List Char} (h : stripPrefix front s = some rest) :
    s = front ++ rest := by
  unfold stripPrefix at h
  split at h
  · next hp =>
    obtain ⟨t, rfl⟩ := hp
    rw [drop_append_of_length rfl] at h
    rw [Option.some.inj h]
  · contradiction

theorem stripSuffix_append (front back : List Char) :
    stripSuffix back (front ++ back) = some front := by
  rw [stripSuffix, if_pos (List.suffix_append _ _)]
  simp

/-- A rotation path parses back to its own number. -/
theorem parseRotationNumber_rotationPath (path : FileName) {n : Nat} (h : n ≤ maxU32) :
    parseRotationNumber (rotationPath path n) (logStem path) = some n := by
  have hsplit : rotationPath path n =
      (logStem path ++ ['.']) ++ (decimal n ++ ".log".toList) := by
    simp [rotationPath]
  rw [parseRotationNumber, hsplit, stripPrefix_append]
  simp only [Option.bind_eq_bind, Option.bind_some]
  rw [stripSuffix_append, Option.bind_some, parseU32_decimal h]

theorem stripSuffix_eq_some {back s front : List Char} (h : stripSuffix back s = some front) :
    s = front ++ back := by
  unfold stripSuffix at h
  split at h
  · next hs =>
    obtain ⟨t, rfl⟩ := hs
    have hfront : t = front := by simpa using h
    rw [hfront]
  · contradiction

/-- A name that parses is the stem, a number and `.log`, with dots between them. -/
theorem eq_append_of_parse {name stem : FileName} {n : Nat}
    (h : parseRotationNumber name stem = some n) :
    ∃ digits, name = stem ++ (['.'] ++ (digits ++ ".log".toList)) := by
  obtain ⟨rest, hrest, h⟩ := Option.bind_eq_some_iff.mp h
  obtain ⟨digits, hdigits, -⟩ := Option.bind_eq_some_iff.mp h
  refine ⟨digits, ?_⟩
  rw [stripPrefix_eq_some hrest, stripSuffix_eq_some hdigits, List.append_assoc]

/-- Only names that start with the stem parse. -/
theorem stem_prefix_of_parse {name stem : FileName} {n : Nat}
    (h : parseRotationNumber name stem = some n) : stem <+: name := by
  obtain ⟨digits, rfl⟩ := eq_append_of_parse h
  exact List.prefix_append _ _

/-- Only names that end in `.log` parse. -/
theorem log_suffix_of_parse {name stem : FileName} {n : Nat}
    (h : parseRotationNumber name stem = some n) : ".log".toList <:+ name := by
  obtain ⟨digits, rfl⟩ := eq_append_of_parse h
  exact ⟨stem ++ (['.'] ++ digits), by simp⟩

/-- A name that parses has two more dots than its stem. -/
theorem count_dot_of_parse {name stem : FileName} {n : Nat}
    (h : parseRotationNumber name stem = some n) :
    stem.count '.' + 2 ≤ name.count '.' := by
  obtain ⟨digits, rfl⟩ := eq_append_of_parse h
  have hdot : List.count '.' ['.'] = 1 := by decide
  have hlog : List.count '.' ".log".toList = 1 := by decide
  simp only [List.count_append]
  omega

/-! ## The files of one log -/

/-- A name is its stem followed by an extension with at most one dot. -/
theorem eq_fileStem_append (name : FileName) :
    ∃ ext, name = fileStem name ++ ext ∧ ext.count '.' ≤ 1 := by
  unfold fileStem
  split
  · exact ⟨[], by simp, by simp⟩
  · next c before hdrop =>
    by_cases hb : before = []
    · exact ⟨[], by simp [hb], by simp⟩
    · rw [if_neg hb]
      have hsplit :=
        List.takeWhile_append_dropWhile (p := fun c => decide (c ≠ '.')) (l := name.reverse)
      have hnodot : (name.reverse.takeWhile fun c => decide (c ≠ '.')).count '.' = 0 := by
        rw [List.count_eq_zero]
        intro hmem
        have := List.mem_takeWhile_imp hmem
        simp at this
      rw [hdrop] at hsplit
      refine ⟨c :: (name.reverse.takeWhile fun c => decide (c ≠ '.')).reverse, ?_, ?_⟩
      · have h := congrArg List.reverse hsplit
        simpa using h.symm
      · rw [List.count_cons, List.count_reverse, hnodot]
        split <;> omega

/-- The files of one log. -/
inductive LogFile where
  | live
  | liveSeal
  | sealTmp
  | lock
  | segment (n : Nat)
  | segmentSeal (n : Nat)
  deriving DecidableEq

/-- The name of each file of the log at `path`. -/
def LogFile.name (path : FileName) : LogFile → FileName
  | live => path
  | liveSeal => sealPath path
  | sealTmp => sealTmpPath path
  | lock => lockPath path
  | segment n => rotationPath path n
  | segmentSeal n => sealPath (rotationPath path n)

/-- What each file's name adds to the stem, given the live file's extension. -/
def LogFile.suffix (ext : FileName) : LogFile → FileName
  | live => ext
  | liveSeal => ext ++ ".seal".toList
  | sealTmp => ext ++ ".seal.tmp".toList
  | lock => ext ++ ".lock".toList
  | segment n => '.' :: (decimal n ++ ".log".toList)
  | segmentSeal n => '.' :: (decimal n ++ ".log.seal".toList)

theorem LogFile.name_eq_stem_append {path ext : FileName} (h : path = logStem path ++ ext)
    (f : LogFile) : f.name path = logStem path ++ f.suffix ext := by
  cases f with
  | live => exact h
  | liveSeal => simp only [name, suffix, sealPath, ← List.append_assoc, ← h]
  | sealTmp =>
      simp only [name, suffix, sealTmpPath, sealPath, ← List.append_assoc, ← h]
      simp
  | lock => simp only [name, suffix, lockPath, ← List.append_assoc, ← h]
  | segment n => simp [name, suffix, rotationPath]
  | segmentSeal n => simp [name, suffix, sealPath, rotationPath]

/-- Dots in a name beyond those of the stem and of the live file's extension. -/
def LogFile.dots (c : Nat) : LogFile → Nat
  | live => c
  | liveSeal => c + 1
  | sealTmp => c + 2
  | lock => c + 1
  | segment _ => 2
  | segmentSeal _ => 3

theorem LogFile.count_suffix (ext : FileName) (f : LogFile) :
    (f.suffix ext).count '.' = f.dots (ext.count '.') := by
  have h1 : List.count '.' ".seal".toList = 1 := by decide
  have h2 : List.count '.' ".seal.tmp".toList = 2 := by decide
  have h3 : List.count '.' ".lock".toList = 1 := by decide
  have h4 : List.count '.' ".log".toList = 1 := by decide
  have h5 : List.count '.' ".log.seal".toList = 2 := by decide
  cases f <;>
    simp only [suffix, dots, List.count_append, List.count_cons_self, count_dot_decimal,
      h1, h2, h3, h4, h5]

/-- Every file of a log starts with its stem. -/
theorem LogFile.stem_prefix_name (path : FileName) (f : LogFile) :
    logStem path <+: f.name path := by
  obtain ⟨ext, hext, -⟩ := eq_fileStem_append path
  rw [f.name_eq_stem_append hext]
  exact List.prefix_append _ _

/-- The last character of a name that ends in a given non-empty suffix. -/
private theorem getLast?_append_of_some {xs ys : List Char} {c : Char}
    (h : ys.getLast? = some c) : (xs ++ ys).getLast? = some c := by
  rw [List.getLast?_append, h]; rfl

/-- The files of one log have pairwise different names: counting dots separates
the segments from the sidecars, the last character separates the sidecars. -/
theorem LogFile.name_injective (path : FileName) : Function.Injective (LogFile.name path) := by
  intro f g hfg
  obtain ⟨ext, hext, hdots⟩ := eq_fileStem_append path
  rw [f.name_eq_stem_append hext, g.name_eq_stem_append hext] at hfg
  have hsuf : f.suffix ext = g.suffix ext := List.append_cancel_left hfg
  have hcount : f.dots (ext.count '.') = g.dots (ext.count '.') := by
    rw [← LogFile.count_suffix, ← LogFile.count_suffix, hsuf]
  have hlen := congrArg List.length hsuf
  have hlast := congrArg List.getLast? hsuf
  have l1 : ∀ xs : List Char, (xs ++ ".seal".toList).getLast? = some 'l' :=
    fun xs => getLast?_append_of_some (by decide)
  have l2 : ∀ xs : List Char, (xs ++ ".seal.tmp".toList).getLast? = some 'p' :=
    fun xs => getLast?_append_of_some (by decide)
  have l3 : ∀ xs : List Char, (xs ++ ".lock".toList).getLast? = some 'k' :=
    fun xs => getLast?_append_of_some (by decide)
  have l4 : ∀ n, ('.' :: (decimal n ++ ".log".toList)).getLast? = some 'g' := by
    intro n
    rw [← List.cons_append]
    exact getLast?_append_of_some (by decide)
  have l5 : ∀ n, ('.' :: (decimal n ++ ".log.seal".toList)).getLast? = some 'l' := by
    intro n
    rw [← List.cons_append]
    exact getLast?_append_of_some (by decide)
  cases f <;> cases g <;>
    simp only [suffix, dots, l1, l2, l3, l4, l5, List.length_append] at hsuf hcount hlast hlen
  all_goals first
    | rfl
    | (exfalso; revert hlast; decide)
    | (exfalso; simp at hlen; done)
    | (exfalso; omega)
    | skip
  · next m n =>
    have h := List.append_cancel_right (List.cons.inj hsuf).2
    rw [decimal_injective h]
  · next m n =>
    have h := List.append_cancel_right (List.cons.inj hsuf).2
    rw [decimal_injective h]

theorem LogFile.name_inj {path : FileName} {f g : LogFile} : f.name path = g.name path ↔ f = g :=
  (LogFile.name_injective path).eq_iff

/-- Among the files of a log only the segments parse as rotations. -/
theorem LogFile.parse_name (path : FileName) (f : LogFile) {n : Nat}
    (h : parseRotationNumber (f.name path) (logStem path) = some n) : ∃ m, f = .segment m := by
  obtain ⟨ext, hext, hdots⟩ := eq_fileStem_append path
  have hcount := count_dot_of_parse h
  rw [f.name_eq_stem_append hext, List.count_append, LogFile.count_suffix] at hcount
  have hlog := log_suffix_of_parse h
  rw [f.name_eq_stem_append hext] at hlog
  obtain ⟨front, hfront⟩ := hlog
  have hlast := congrArg List.getLast? hfront
  rw [getLast?_append_of_some (c := 'g') (by decide)] at hlast
  cases f with
  | live => simp only [dots] at hcount; omega
  | liveSeal =>
      simp only [suffix, ← List.append_assoc] at hlast
      rw [getLast?_append_of_some (c := 'l') (by decide)] at hlast
      exact absurd hlast (by decide)
  | sealTmp =>
      simp only [suffix, ← List.append_assoc] at hlast
      rw [getLast?_append_of_some (c := 'p') (by decide)] at hlast
      exact absurd hlast (by decide)
  | lock =>
      simp only [suffix, ← List.append_assoc] at hlast
      rw [getLast?_append_of_some (c := 'k') (by decide)] at hlast
      exact absurd hlast (by decide)
  | segment m => exact ⟨m, rfl⟩
  | segmentSeal m =>
      simp only [suffix, ← List.append_assoc, ← List.cons_append] at hlast
      rw [getLast?_append_of_some (c := 'l') (by decide)] at hlast
      exact absurd hlast (by decide)

end Akroasis.TamperLog
