import Mathlib.Data.List.Basic
import Mathlib.Tactic.Ring

/-!
# Akroasis.Bytes

Byte-list plumbing shared by every wire format of the development: fixed-width
little-endian integers, fixed-length arrays and the `read_exact` cursor step.

Everything here is proved once so the format proofs never redo list
arithmetic.  The module names nothing of the repository.
-/

namespace Akroasis

/-- A byte string. -/
abbrev Bytes := List UInt8

/-- The bytes of an ASCII literal, `b"..."`. -/
def ascii (s : String) : Bytes := s.toList.map fun c => UInt8.ofNat c.toNat

/-! ## take/drop over appended buffers -/

/-- Taking the length of a prefix from an append gives the prefix. -/
theorem take_append_of_length {α : Type*} {xs ys : List α} {k : Nat} (h : xs.length = k) :
    (xs ++ ys).take k = xs := by
  subst h; simp

/-- Dropping the length of a prefix from an append gives the suffix. -/
theorem drop_append_of_length {α : Type*} {xs ys : List α} {k : Nat} (h : xs.length = k) :
    (xs ++ ys).drop k = ys := by
  subst h; simp

/-! ## Little-endian integers -/

/-- The `w` low bytes of `n`, least significant first (`to_le_bytes` at width `w`). -/
def leBytes : Nat → Nat → Bytes
  | 0, _ => []
  | w + 1, n => UInt8.ofNat n :: leBytes w (n / 256)

/-- The number a byte string denotes, least significant byte first (`from_le_bytes`). -/
def ofLeBytes : Bytes → Nat
  | [] => 0
  | b :: bs => b.toNat + 256 * ofLeBytes bs

@[simp] theorem length_leBytes (w n : Nat) : (leBytes w n).length = w := by
  induction w generalizing n with
  | zero => rfl
  | succ w ih => simp [leBytes, ih]

/-- Reading a number back from its own bytes loses only what the width cannot hold. -/
theorem ofLeBytes_leBytes_mod (w n : Nat) : ofLeBytes (leBytes w n) = n % 256 ^ w := by
  induction w generalizing n with
  | zero => simp [leBytes, ofLeBytes, Nat.mod_one]
  | succ w ih =>
      have hpow : (256 : Nat) ^ (w + 1) = 256 * 256 ^ w := Nat.pow_succ'
      have hmod : n % (256 * 256 ^ w) = n % 256 + 256 * (n / 256 % 256 ^ w) := Nat.mod_mul
      simp only [leBytes, ofLeBytes, ih, UInt8.toNat_ofNat']
      rw [hpow, hmod]

/-- A number that fits its width reads back unchanged. -/
theorem ofLeBytes_leBytes {w n : Nat} (h : n < 256 ^ w) : ofLeBytes (leBytes w n) = n := by
  rw [ofLeBytes_leBytes_mod, Nat.mod_eq_of_lt h]

/-- Every byte string is the encoding of the number it denotes. -/
theorem leBytes_ofLeBytes (bs : Bytes) : leBytes bs.length (ofLeBytes bs) = bs := by
  induction bs with
  | nil => rfl
  | cons b bs ih =>
      have hb : b.toNat < 256 := b.toNat_lt
      have hhead : UInt8.ofNat (b.toNat + 256 * ofLeBytes bs) = b := by
        apply UInt8.toNat_inj.mp
        rw [UInt8.toNat_ofNat']
        omega
      have htail : (b.toNat + 256 * ofLeBytes bs) / 256 = ofLeBytes bs := by omega
      simp only [List.length_cons, ofLeBytes, leBytes, hhead, htail, ih]

/-- Concatenation shifts the later bytes past the earlier ones. -/
theorem ofLeBytes_append (xs ys : Bytes) :
    ofLeBytes (xs ++ ys) = ofLeBytes xs + 256 ^ xs.length * ofLeBytes ys := by
  induction xs with
  | nil => simp [ofLeBytes]
  | cons x xs ih =>
      simp only [List.cons_append, ofLeBytes, ih, List.length_cons, Nat.pow_succ']
      ring

/-! ## Length prefixes -/

/-- A field behind its length, which is written in `w` bytes, most significant first. -/
def lengthPrefixed (w : Nat) (bs : Bytes) : Bytes := (leBytes w bs.length).reverse ++ bs

/-- The length says where a field ends, so a field and what follows it can be told apart. -/
theorem lengthPrefixed_append_inj {w : Nat} {xs ys rest rest' : Bytes} (hx : xs.length < 256 ^ w)
    (hy : ys.length < 256 ^ w) (h : lengthPrefixed w xs ++ rest = lengthPrefixed w ys ++ rest') :
    xs = ys ∧ rest = rest' := by
  simp only [lengthPrefixed, List.append_assoc] at h
  obtain ⟨hlead, htail⟩ := List.append_inj h (by simp)
  have hlen := congrArg ofLeBytes (List.reverse_injective hlead)
  rw [ofLeBytes_leBytes hx, ofLeBytes_leBytes hy] at hlen
  exact List.append_inj htail hlen

/-! ## Fixed-length arrays -/

/-- `[u8; n]`: a byte string that carries the proof of its length. -/
def FixedBytes (n : Nat) : Type := { bs : Bytes // bs.length = n }

namespace FixedBytes

instance {n : Nat} : DecidableEq (FixedBytes n) :=
  inferInstanceAs (DecidableEq { bs : Bytes // bs.length = n })

/-- The array filled with one byte. -/
def replicate (n : Nat) (b : UInt8) : FixedBytes n := ⟨List.replicate n b, by simp⟩

instance {n : Nat} : Inhabited (FixedBytes n) := ⟨replicate n 0⟩

@[ext] theorem ext {n : Nat} {a b : FixedBytes n} (h : a.val = b.val) : a = b := Subtype.ext h

@[simp] theorem length_val {n : Nat} (a : FixedBytes n) : a.val.length = n := a.property

/-- The `n` bytes of `bs` at offset `i` (`copy_from_slice` of a range); bytes past the
end read as zero, which no caller with a length check can observe. -/
def slice (n i : Nat) (bs : Bytes) : FixedBytes n :=
  ⟨(bs.drop i).take n ++ List.replicate (n - ((bs.drop i).take n).length) 0, by
    simp only [List.length_append, List.length_replicate, List.length_take, List.length_drop]
    omega⟩

theorem slice_append {n i : Nat} (xs : Bytes) (a : FixedBytes n) (ys : Bytes)
    (h : xs.length = i) : slice n i (xs ++ (a.val ++ ys)) = a := by
  apply FixedBytes.ext
  simp only [slice]
  rw [drop_append_of_length h, take_append_of_length a.property]
  simp

end FixedBytes

/-! ## Cursor reads -/

/-- `read_exact`: the first `n` bytes and what follows them, or `none` when the input
ends before that. -/
def readExact (n : Nat) (bs : Bytes) : Option (Bytes × Bytes) :=
  if n ≤ bs.length then some (bs.take n, bs.drop n) else none

theorem readExact_append {n : Nat} {xs ys : Bytes} (h : xs.length = n) :
    readExact n (xs ++ ys) = some (xs, ys) := by
  rw [readExact, if_pos (by simp [h]), take_append_of_length h, drop_append_of_length h]

theorem readExact_eq_some {n : Nat} {bs xs ys : Bytes} (h : readExact n bs = some (xs, ys)) :
    bs = xs ++ ys ∧ xs.length = n := by
  unfold readExact at h
  split at h
  · next hn =>
    obtain ⟨rfl, rfl⟩ := Prod.mk.inj (Option.some.inj h)
    exact ⟨(List.take_append_drop n bs).symm, by simpa using hn⟩
  · contradiction

theorem readExact_eq_none {n : Nat} {bs : Bytes} : readExact n bs = none ↔ bs.length < n := by
  unfold readExact
  split
  · next hn => simp; omega
  · next hn => simp; omega

end Akroasis
