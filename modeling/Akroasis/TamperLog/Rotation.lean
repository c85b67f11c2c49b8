import Akroasis.TamperLog.Segments

/-!
# Akroasis.TamperLog.Rotation

The names of the rotated segments against a directory of arbitrary files: the name that
`rotate` moves the live file to, and the names that `verify_segment_chain` opens once the
numbers it has seen leave no gap.

Files are seen through `to_string_lossy` and opened under the name that `rotation_path`
formats.  The two differ for a name that is not valid text and for a number that
`parse::<u32>` also accepts in another spelling (`01`, `+1`), so a number can be seen whose
`rotation_path` does not exist.
-/

namespace Akroasis.TamperLog

/-- The names a file system has, with `to_string_lossy` and the name a text stands for. -/
structure OsNames where
  Name : Type
  toStringLossy : Name → FileName
  ofText : FileName → Name
  /-- Text is shown as it is. -/
  toStringLossy_ofText : ∀ text, toStringLossy (ofText text) = text

/-- A file system whose names are all texts. -/
def OsNames.texts : OsNames where
  Name := FileName
  toStringLossy := id
  ofText := id
  toStringLossy_ofText _ := rfl

instance : DecidableEq OsNames.texts.Name := inferInstanceAs (DecidableEq FileName)

/-- The largest rotation number in a listing. -/
def largestNumber (listing : List FileName) (path : FileName) : Nat :=
  (rotationNumbers listing (logStem path)).foldl max 0

/-- The number that `verify_segment_chain` reports as missing. -/
def firstGap (listing : List FileName) (path : FileName) : Option Nat :=
  (List.range' 1 (largestNumber listing path)).find? fun n =>
    decide (n ∉ rotationNumbers listing (logStem path))

theorem mem_rotationNumbers_of_firstGap {listing : List FileName} {path : FileName} {n : Nat}
    (h : firstGap listing path = none) (hn : n ∈ List.range' 1 (largestNumber listing path)) :
    n ∈ rotationNumbers listing (logStem path) := by
  simpa using List.find?_eq_none.mp h n hn

theorem nextRotationNumber_le (listing : List FileName) (path : FileName) :
    nextRotationNumber listing path ≤ maxU32 :=
  Nat.min_le_right _ _

namespace OsNames

variable (N : OsNames)

/-- What a directory scan shows of the files. -/
def shown (files : List N.Name) : List FileName := files.map N.toStringLossy

/-- The file at `rotation_path(n)`. -/
def rotated (path : FileName) (n : Nat) : N.Name := N.ofText (rotationPath path n)

variable {N} {files : List N.Name} {path : FileName} {n : Nat}

/-- A segment file that exists is counted. -/
theorem mem_rotationNumbers_of_rotated (hn : n ≤ maxU32) (h : N.rotated path n ∈ files) :
    n ∈ rotationNumbers (N.shown files) (logStem path) := by
  refine List.mem_filterMap.mpr ⟨rotationPath path n, ?_, parseRotationNumber_rotationPath path hn⟩
  exact List.mem_map.mpr ⟨_, h, N.toStringLossy_ofText _⟩

/-- Only the last slot is ever chosen while it is taken. -/
theorem nextRotationNumber_eq_of_taken
    (h : N.rotated path (nextRotationNumber (N.shown files) path) ∈ files) :
    nextRotationNumber (N.shown files) path = maxU32 := by
  have hseen := mem_rotationNumbers_of_rotated (nextRotationNumber_le _ _) h
  have hle := (le_foldl_max _ 0).2 _ hseen
  simp only [nextRotationNumber] at hle ⊢
  omega

/-- Once the last slot is taken it is the one chosen. -/
theorem nextRotationNumber_of_last (h : N.rotated path maxU32 ∈ files) :
    nextRotationNumber (N.shown files) path = maxU32 := by
  have hle := (le_foldl_max _ 0).2 _ (mem_rotationNumbers_of_rotated (Nat.le_refl _) h)
  simp only [nextRotationNumber]
  omega

/-- Every file that is seen as a segment is the one `rotation_path` names.  (The number 0 is
never opened.) -/
def PlainlyNamed (files : List N.Name) (path : FileName) : Prop :=
  ∀ file ∈ files, ∀ n, 1 ≤ n → parseRotationNumber (N.toStringLossy file) (logStem path) = some n →
    file = N.rotated path n

/-- **Rotation names.**  The name chosen parses back to its number, and it is taken only when
the rotation space is exhausted, whose last slot is then used again; and where segments are
plainly named, a run of numbers without a gap is a run of files. -/
theorem rotated_names (N : OsNames) (files : List N.Name) (path : FileName) :
    (parseRotationNumber (rotationPath path (nextRotationNumber (N.shown files) path))
        (logStem path) = some (nextRotationNumber (N.shown files) path)) ∧
      (N.rotated path (nextRotationNumber (N.shown files) path) ∉ files ↔
        N.rotated path maxU32 ∉ files) ∧
      (N.rotated path maxU32 ∈ files → nextRotationNumber (N.shown files) path = maxU32) ∧
      (PlainlyNamed files path → firstGap (N.shown files) path = none →
        ∀ n ∈ List.range' 1 (largestNumber (N.shown files) path), N.rotated path n ∈ files) := by
  refine ⟨parseRotationNumber_rotationPath path (nextRotationNumber_le _ _), not_congr ⟨?_, ?_⟩,
    nextRotationNumber_of_last, ?_⟩
  · intro htaken
    rwa [nextRotationNumber_eq_of_taken htaken] at htaken
  · intro hlast
    rwa [nextRotationNumber_of_last hlast]
  · intro hplain hgap n hn
    obtain ⟨name, hname, hparse⟩ :=
      List.mem_filterMap.mp (mem_rotationNumbers_of_firstGap hgap hn)
    obtain ⟨file, hfile, rfl⟩ := List.mem_map.mp hname
    have hpos : 1 ≤ n := by
      rw [List.mem_range'_1] at hn
      exact hn.1
    rwa [hplain file hfile n hpos hparse] at hfile

/-- Where every file is a text, being plainly named can be checked. -/
theorem plainlyNamed_texts {files : List texts.Name}
    (h : (files.all fun file => (parseRotationNumber file (logStem path)).all fun n =>
      n == 0 || decide (file = texts.rotated path n)) = true) : PlainlyNamed files path := by
  intro file hfile n hpos hparse
  have hone := List.all_eq_true.mp h file hfile
  rw [show parseRotationNumber file (logStem path) = some n from hparse] at hone
  have hne : n ≠ 0 := by omega
  simpa [hne] using hone

/-- Two segments of a log, its own file and a sidecar, and a segment of another log. -/
theorem rotated_names_two :
    let path := "audit.log".toList
    let files : List texts.Name := ["audit.log".toList, "audit.1.log".toList, "audit.2.log".toList,
      "audit.2.log.seal".toList, "other.7.log".toList]
    nextRotationNumber (texts.shown files) path = 3 ∧
      parseRotationNumber (rotationPath path 3) (logStem path) = some 3 ∧
      texts.rotated path 3 ∉ files ∧ ∀ n ∈ List.range' 1 2, texts.rotated path n ∈ files := by
  intro path files
  obtain ⟨hparse, hfresh, -, hfiles⟩ := rotated_names texts files path
  have hnext : nextRotationNumber (texts.shown files) path = 3 := by decide +kernel
  have hlargest : largestNumber (texts.shown files) path = 2 := by decide +kernel
  rw [hnext] at hparse hfresh
  rw [hlargest] at hfiles
  exact ⟨hnext, hparse, hfresh.mpr (by decide +kernel),
    hfiles (plainlyNamed_texts (by decide +kernel)) (by decide +kernel)⟩

/-- The last slot is chosen although it is taken, and a segment that is seen under the
spelling `01` is looked for under `1`. -/
theorem rotated_names_refuted :
    let path := "audit.log".toList
    let full : List texts.Name := ["audit.4294967295.log".toList]
    let zero : List texts.Name := ["audit.01.log".toList]
    texts.rotated path (nextRotationNumber (texts.shown full) path) ∈ full ∧
      firstGap (texts.shown zero) path = none ∧
      1 ∈ List.range' 1 (largestNumber (texts.shown zero) path) ∧ texts.rotated path 1 ∉ zero ∧
      ¬ (∀ (files : List texts.Name) (path : FileName),
        (texts.rotated path (nextRotationNumber (texts.shown files) path) ∉ files ∧
          parseRotationNumber (rotationPath path (nextRotationNumber (texts.shown files) path))
            (logStem path) = some (nextRotationNumber (texts.shown files) path)) ∧
        (firstGap (texts.shown files) path = none →
          ∀ n ∈ List.range' 1 (largestNumber (texts.shown files) path),
            texts.rotated path n ∈ files)) := by
  intro path full zero
  have htaken : texts.rotated path (nextRotationNumber (texts.shown full) path) ∈ full := by
    decide +kernel
  refine ⟨htaken, by decide +kernel, by decide +kernel, by decide +kernel, ?_⟩
  intro hall
  exact (hall full path).1.1 htaken

end OsNames

end Akroasis.TamperLog
