import Mathlib.Data.List.Basic

/-!
# Akroasis.BufWriter

A buffered writer over a file that may fail at any byte (`std::io::BufWriter`).

`writeAll` puts what fits into the buffer, empties the buffer first when there is no room,
and sends what is as long as the buffer straight to the file; `flushBuf` empties the
buffer.  A failed flush keeps what was not written, so that a later one goes on there.  A
call is given by what it hands to the file and what it keeps (`Transfer`): if it succeeds
these are together what was to be written (`writeAll_parts`).  The module names nothing of
the repository.
-/

namespace Akroasis.BufWriter

/-- What the file does with a write: it takes everything, or fails after the first `k`. -/
inductive Attempt
  | all
  | failsAfter (k : Nat)
  deriving DecidableEq

variable {A : Type*}

/-- How much of a write reaches the file.  A write that fails only after its last byte was
taken has not failed. -/
def Attempt.taken : Attempt → List A → Nat
  | .all, bytes => bytes.length
  | .failsAfter k, bytes => min k bytes.length

/-- What a call hands to the file, what it keeps in the buffer, and whether it succeeds. -/
structure Transfer (A : Type*) where
  ok : Bool
  out : List A
  buf : List A
  deriving DecidableEq

/-- `flush_buf`: what the file does not take stays in the buffer. -/
def flushBuf (buf : List A) (attempt : Attempt) : Transfer A :=
  let k := attempt.taken buf
  ⟨decide (k = buf.length), buf.take k, buf.drop k⟩

/-- The buffer is emptied when the bytes do not fit behind what it holds. -/
def makeRoom (capacity : Nat) (buf bytes : List A) (spill : Attempt) : Transfer A :=
  if capacity - buf.length < bytes.length then flushBuf buf spill else ⟨true, [], buf⟩

/-- `write_all` of a buffer with the given capacity: `spill` is what happens when the
buffer is emptied to make room, `direct` when the bytes are sent past it. -/
def writeAll (capacity : Nat) (buf bytes : List A) (spill direct : Attempt) : Transfer A :=
  if bytes.length < capacity - buf.length then ⟨true, [], buf ++ bytes⟩
  else
    let room := makeRoom capacity buf bytes spill
    if !room.ok then room
    else if capacity ≤ bytes.length then
      let k := direct.taken bytes
      ⟨decide (k = bytes.length), room.out ++ bytes.take k, room.buf⟩
    else ⟨true, room.out, room.buf ++ bytes⟩

variable {capacity : Nat} {buf bytes : List A} {attempt spill direct : Attempt}

/-- A flush that succeeds leaves nothing. -/
theorem flushBuf_ok (h : (flushBuf buf attempt).ok = true) :
    (flushBuf buf attempt).out = buf ∧ (flushBuf buf attempt).buf = [] := by
  simp only [flushBuf, decide_eq_true_eq] at h ⊢
  simp [h]

/-- Nothing in the buffer, nothing to fail. -/
@[simp] theorem flushBuf_nil (attempt : Attempt) :
    flushBuf ([] : List A) attempt = ⟨true, [], []⟩ := by
  cases attempt <;> simp [flushBuf, Attempt.taken]

/-- Room that was made loses nothing, and is all of the buffer when the bytes go past it. -/
theorem makeRoom_parts (hcapacity : 0 < capacity)
    (h : (makeRoom capacity buf bytes spill).ok = true) :
    (makeRoom capacity buf bytes spill).out ++ (makeRoom capacity buf bytes spill).buf = buf ∧
      (capacity ≤ bytes.length → (makeRoom capacity buf bytes spill).buf = []) := by
  unfold makeRoom at h ⊢
  by_cases hspill : capacity - buf.length < bytes.length
  · simp only [hspill, if_true] at h ⊢
    obtain ⟨hout, hbuf⟩ := flushBuf_ok h
    simp [hout, hbuf]
  · simp only [hspill, if_false, List.nil_append, true_and]
    intro hlong
    exact List.eq_nil_of_length_eq_zero (by omega)

/-- A write that succeeds: what went to the file and what is kept are together what was
kept before and the new bytes, in this order. -/
theorem writeAll_parts (hcapacity : 0 < capacity)
    (h : (writeAll capacity buf bytes spill direct).ok = true) :
    (writeAll capacity buf bytes spill direct).out ++
      (writeAll capacity buf bytes spill direct).buf =
      buf ++ bytes := by
  unfold writeAll at h ⊢
  by_cases hfits : bytes.length < capacity - buf.length
  · simp [hfits]
  · by_cases hroom : (makeRoom capacity buf bytes spill).ok = true
    · obtain ⟨hparts, hempty⟩ := makeRoom_parts hcapacity hroom
      by_cases hdirect : capacity ≤ bytes.length
      · rw [hempty hdirect, List.append_nil] at hparts
        have hall : direct.taken bytes = bytes.length := by simpa [hfits, hroom, hdirect] using h
        simp [hfits, hroom, hdirect, hall, hempty hdirect, hparts]
      · simp only [hfits, hroom, hdirect, if_false, Bool.not_true, Bool.false_eq_true]
        rw [← List.append_assoc, hparts]
    · simp [hfits, hroom] at h

end Akroasis.BufWriter
