import Akroasis.Bytes

/-!
# Akroasis.Aead

Authenticated encryption with associated data, under one key that is never mentioned.

`RoundTrips` says that a sealed text can be opened, and `Ideal` is the idealised security of such
a scheme: it opens under its own associated data and under no other.  `transparent` seals without
hiding anything and shows that the laws can be met.  The module names nothing of the repository.
-/

namespace Akroasis

/-- A scheme with nonces of `n` bytes: `encrypt nonce plaintext aad` and `decrypt nonce body
aad`. -/
structure Aead (n : Nat) where
  encrypt : FixedBytes n → Bytes → Bytes → Option Bytes
  decrypt : FixedBytes n → Bytes → Bytes → Option Bytes

namespace Aead

variable {n : Nat}

/-- What is sealed opens under the associated data it was sealed with. -/
def RoundTrips (A : Aead n) : Prop :=
  ∀ nonce plaintext aad body, A.encrypt nonce plaintext aad = some body →
    A.decrypt nonce body aad = some plaintext

/-- What is sealed opens exactly under the associated data it was sealed with. -/
def Ideal (A : Aead n) : Prop :=
  ∀ nonce plaintext aad body aad', A.encrypt nonce plaintext aad = some body →
    A.decrypt nonce body aad' = if aad' = aad then some plaintext else none

theorem Ideal.roundTrips {A : Aead n} (h : A.Ideal) : A.RoundTrips :=
  fun nonce plaintext aad body hseal => by rw [h nonce plaintext aad body aad hseal, if_pos rfl]

/-- Sealing does not shorten. -/
def Expands (A : Aead n) : Prop :=
  ∀ nonce plaintext aad body, A.encrypt nonce plaintext aad = some body →
    plaintext.length ≤ body.length

/-! ## A scheme that meets the laws -/

/-- A byte string that marks its own end. -/
def mark : Bytes → Bytes
  | [] => [0]
  | b :: bs => 1 :: b :: mark bs

/-- The byte string that `mark` wrote, and what follows it. -/
def unmark : Bytes → Option (Bytes × Bytes)
  | 0 :: rest => some ([], rest)
  | 1 :: b :: rest => (unmark rest).map fun p => (b :: p.1, p.2)
  | _ => none

theorem unmark_mark (bs rest : Bytes) : unmark (mark bs ++ rest) = some (bs, rest) := by
  induction bs with
  | nil => rfl
  | cons b bs ih => simp [mark, unmark, ih]

/-- Where its end is missing, nothing is read. -/
theorem unmark_take_dropLast_mark (bs : Bytes) (k : Nat) :
    unmark ((mark bs).dropLast.take k) = none := by
  induction bs generalizing k with
  | nil => simp [mark, unmark]
  | cons b bs ih =>
      have hne : mark bs ≠ [] := by cases bs <;> simp [mark]
      match k with
      | 0 => rfl
      | 1 => rfl
      | k + 2 => simp [mark, List.dropLast_cons_of_ne_nil, hne, unmark, ih]

theorem length_le_length_mark (bs : Bytes) : bs.length ≤ (mark bs).length := by
  induction bs with
  | nil => simp
  | cons b bs ih =>
      simp only [mark, List.length_cons]
      omega

/-- The plaintext and the associated data, side by side. -/
def transparent (n : Nat) : Aead n where
  encrypt _ plaintext aad := some (mark plaintext ++ aad)
  decrypt _ body aad :=
    match unmark body with
    | some (plaintext, sealed) => if aad = sealed then some plaintext else none
    | none => none

theorem transparent_ideal : (transparent n).Ideal := by
  intro nonce plaintext aad body aad' h
  obtain rfl := Option.some.inj h
  simp [transparent, unmark_mark]

theorem transparent_expands : (transparent n).Expands := by
  intro nonce plaintext aad body h
  obtain rfl := Option.some.inj h
  simp only [List.length_append]
  exact (length_le_length_mark plaintext).trans (Nat.le_add_right _ _)

end Aead

end Akroasis
