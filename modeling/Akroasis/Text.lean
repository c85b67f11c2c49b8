import Akroasis.Bytes
import Mathlib.Data.List.DropRight

/-!
# Akroasis.Text

Text as lists of characters: white space and `str::trim`, ASCII and its bytes.

`trim` takes Unicode white space off both ends.  What it leaves has none there
(`trim_trim`), and a text whose ends are no white space is left as it is (`trim_eq_self`).
The module names nothing of the repository.
-/

namespace Akroasis

/-- A text is the list of its characters. -/
abbrev Text := List Char

variable {s front back : List Char} {c : Char}

/-! ## White space -/

/-- `char::is_whitespace`: the Unicode property `White_Space`. -/
def isWhitespace (c : Char) : Bool :=
  (0x09 ≤ c.toNat && c.toNat ≤ 0x0D) || c.toNat == 0x20 || c.toNat == 0x85 || c.toNat == 0xA0 ||
    c.toNat == 0x1680 || (0x2000 ≤ c.toNat && c.toNat ≤ 0x200A) || c.toNat == 0x2028 ||
    c.toNat == 0x2029 || c.toNat == 0x202F || c.toNat == 0x205F || c.toNat == 0x3000

/-- `str::trim_start`. -/
def trimStart (s : List Char) : List Char := s.dropWhile isWhitespace

/-- `str::trim_end`. -/
def trimEnd (s : List Char) : List Char := s.rdropWhile isWhitespace

/-- `str::trim`. -/
def trim (s : List Char) : List Char := trimEnd (trimStart s)

/-- No white space at the start. -/
def StartsClean (s : List Char) : Prop := ∀ c ∈ s.head?, isWhitespace c = false

/-- No white space at the end. -/
def EndsClean (s : List Char) : Prop := ∀ c ∈ s.getLast?, isWhitespace c = false

theorem trimStart_eq_self : trimStart s = s ↔ StartsClean s := by
  rw [trimStart, List.dropWhile_eq_self_iff, StartsClean]
  cases s <;> simp

theorem trimEnd_eq_self : trimEnd s = s ↔ EndsClean s := by
  rw [trimEnd, List.rdropWhile_eq_self_iff, EndsClean]
  constructor
  · intro h c hc
    obtain ⟨hne, rfl⟩ := List.mem_getLast?_eq_getLast hc
    simpa using h hne
  · intro h hne
    simpa using h _ (List.getLast_mem_getLast? hne)

theorem StartsClean.of_isPrefix (h : StartsClean s) (hfront : front <+: s) : StartsClean front := by
  intro c hc
  obtain ⟨back, rfl⟩ := hfront
  apply h c
  cases front with
  | nil => simp at hc
  | cons d front => simpa using hc

theorem startsClean_trim : StartsClean (trim s) := by
  have hstart : StartsClean (trimStart s) :=
    trimStart_eq_self.mp (List.dropWhile_idempotent isWhitespace s)
  exact hstart.of_isPrefix (List.rdropWhile_prefix isWhitespace _)

theorem endsClean_trim : EndsClean (trim s) :=
  trimEnd_eq_self.mp (List.rdropWhile_idempotent isWhitespace _)

/-- Text without white space at its ends is left alone, and no other text is. -/
theorem trim_eq_self : trim s = s ↔ StartsClean s ∧ EndsClean s := by
  constructor
  · intro h
    exact ⟨h ▸ startsClean_trim, h ▸ endsClean_trim⟩
  · rintro ⟨hstart, hend⟩
    rw [trim, trimStart_eq_self.mpr hstart, trimEnd_eq_self.mpr hend]

@[simp] theorem trim_trim : trim (trim s) = trim s :=
  trim_eq_self.mpr ⟨startsClean_trim, endsClean_trim⟩

theorem trim_of_forall (h : ∀ c ∈ s, isWhitespace c = false) : trim s = s :=
  trim_eq_self.mpr
    ⟨fun c hc => h c (List.mem_of_head? hc), fun c hc => h c (List.mem_of_getLast? hc)⟩

theorem length_trim_le : (trim s).length ≤ s.length :=
  ((List.rdropWhile_prefix isWhitespace _).length_le).trans (List.length_dropWhile_le _ _)

theorem mem_of_mem_trim (h : c ∈ trim s) : c ∈ s :=
  (List.dropWhile_sublist _).subset ((List.rdropWhile_prefix isWhitespace _).subset h)

/-- A front that does not end in white space outlasts the trimming of the end. -/
theorem isPrefix_trimEnd (hfront : front <+: s) (hend : EndsClean front) : front <+: trimEnd s := by
  obtain ⟨back, rfl⟩ := hfront
  induction back using List.reverseRecOn with
  | nil =>
      have hsame : trimEnd (front ++ []) = front := by
        rw [List.append_nil, trimEnd_eq_self.mpr hend]
      exact hsame.symm ▸ List.prefix_refl front
  | append_singleton back c ih =>
      cases hc : isWhitespace c with
      | true => rwa [trimEnd, ← List.append_assoc, List.rdropWhile_concat_pos isWhitespace _ c hc]
      | false =>
          rw [trimEnd, ← List.append_assoc,
            List.rdropWhile_concat_neg isWhitespace _ c (by simp [hc]), List.append_assoc]
          exact List.prefix_append front _

/-! ## Bytes as characters -/

/-- `char::from` of each byte: Latin-1. -/
def latin1 (bytes : Bytes) : List Char := bytes.map fun b => Char.ofNat b.toNat

/-- Characters of one byte. -/
def IsAscii (s : List Char) : Prop := ∀ c ∈ s, c.toNat < 0x80

instance : Decidable (IsAscii s) := List.decidableBAll (fun c : Char => c.toNat < 0x80) s

/-- The first character beyond ASCII. -/
theorem isAscii_or_split (s : List Char) :
    IsAscii s ∨ ∃ front c back, IsAscii front ∧ 0x80 ≤ c.toNat ∧ s = front ++ c :: back := by
  induction s with
  | nil => exact .inl (by simp [IsAscii])
  | cons d s ih =>
      by_cases hd : d.toNat < 0x80
      · obtain hs | ⟨front, c, back, hfront, hc, rfl⟩ := ih
        · exact .inl (List.forall_mem_cons.mpr ⟨hd, hs⟩)
        · exact .inr ⟨d :: front, c, back, List.forall_mem_cons.mpr ⟨hd, hfront⟩, hc, rfl⟩
      · exact .inr ⟨[], d, s, by simp [IsAscii], Nat.not_lt.mp hd, rfl⟩

theorem toNat_ofNat_of_lt {n : Nat} (h : n < 0x100) : (Char.ofNat n).toNat = n := by
  have hvalid : n.isValidChar := .inl (by omega)
  have hchar : Char.ofNat n = Char.ofNatAux n hvalid := dif_pos hvalid
  rw [hchar]
  rfl

theorem utf8EncodeChar_of_ascii (h : c.toNat < 0x80) :
    String.utf8EncodeChar c = [UInt8.ofNat c.toNat] :=
  if_pos (Nat.le_of_lt_succ h)

theorem utf8EncodeChar_of_latin1 (hlow : 0x80 ≤ c.toNat) (hhigh : c.toNat < 0x100) :
    String.utf8EncodeChar c =
      [UInt8.ofNat (c.toNat / 64 + 0xC0), UInt8.ofNat (c.toNat % 64 + 0x80)] := by
  have h1 : ¬ c.toNat ≤ 0x7f := by omega
  have h2 : c.toNat ≤ 0x7ff := by omega
  have hmod : c.toNat / 64 % 32 = c.toNat / 64 := by omega
  refine (if_neg h1).trans ((if_pos h2).trans ?_)
  rw [← hmod]
  rfl

end Akroasis
