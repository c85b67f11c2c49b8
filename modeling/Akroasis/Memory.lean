import Akroasis.Bytes
import Mathlib.Data.List.Range

/-!
# Akroasis.Memory

Byte-addressed memory that is written and read in blocks, and flat images of it.

A memory is a function from addresses to bytes, an image a list of bytes.  `storeBlocks`
writes blocks of an image into a memory, `loadBlocks` copies blocks of a memory into an
image; `storeBlocks_apply` and `getElem?_loadBlocks` say byte by byte what is where
afterwards, and `covers_blocks` which addresses the blocks of a range cover.  The module
names nothing of the repository.
-/

namespace Akroasis

/-- A byte for every address. -/
abbrev Memory := Nat → UInt8

namespace Memory

variable {m : Memory} {image data : Bytes} {start stop len size a : Nat} {starts : List Nat}

/-! ## Single blocks -/

/-- The bytes at `start`, … , `start + len - 1`. -/
def fetch (m : Memory) (start len : Nat) : Bytes := (List.range' start len).map m

/-- The memory after `data` has been written at `start`. -/
def store (m : Memory) (start : Nat) (data : Bytes) : Memory := fun a =>
  if start ≤ a then data.getD (a - start) (m a) else m a

/-- `len` bytes of an image from `start` on. -/
def slice (image : Bytes) (start len : Nat) : Bytes := (image.drop start).take len

/-- The image after `data` has been written at `start`. -/
def overwrite (image : Bytes) (start : Nat) (data : Bytes) : Bytes :=
  image.take start ++ data ++ image.drop (start + data.length)

@[simp] theorem length_fetch : (fetch m start len).length = len := by
  simp [fetch]

theorem getElem?_fetch (h : a < len) : (fetch m start len)[a]? = some (m (start + a)) := by
  simp [fetch, h]

theorem store_of_outside (h : ¬ (start ≤ a ∧ a < start + data.length)) :
    store m start data a = m a := by
  by_cases hle : start ≤ a
  · have hlen : data.length ≤ a - start := by omega
    simp [store, hle, List.getD_eq_getElem?_getD, List.getElem?_eq_none hlen]
  · simp [store, hle]

theorem store_of_inside (h : start ≤ a ∧ a < start + data.length) :
    data[a - start]? = some (store m start data a) := by
  have hlt : a - start < data.length := by omega
  simp [store, h.1, List.getD_eq_getElem?_getD, List.getElem?_eq_getElem hlt]

/-- Writing the same block again changes nothing. -/
theorem store_store : store (store m start data) start data = store m start data := by
  funext a
  by_cases h : start ≤ a ∧ a < start + data.length
  · exact Option.some.inj ((store_of_inside h).symm.trans (store_of_inside h))
  · rw [store_of_outside h]

theorem length_slice (h : start + len ≤ image.length) : (slice image start len).length = len := by
  simp only [slice, List.length_take, List.length_drop]
  omega

theorem getElem?_slice (h : a < len) : (slice image start len)[a]? = image[start + a]? := by
  simp [slice, List.getElem?_take_of_lt h]

theorem length_overwrite (h : start + data.length ≤ image.length) :
    (overwrite image start data).length = image.length := by
  simp only [overwrite, List.length_append, List.length_take, List.length_drop]
  omega

theorem getElem?_overwrite (h : start + data.length ≤ image.length) :
    (overwrite image start data)[a]? =
      if start ≤ a ∧ a < start + data.length then data[a - start]? else image[a]? := by
  have htake : (image.take start).length = start := by
    rw [List.length_take]
    omega
  by_cases hlow : a < start
  · rw [if_neg (by omega), overwrite, List.append_assoc,
      List.getElem?_append_left (by omega), List.getElem?_take_of_lt hlow]
  · by_cases hhigh : a < start + data.length
    · rw [if_pos ⟨by omega, hhigh⟩, overwrite, List.append_assoc,
        List.getElem?_append_right (by omega), htake, List.getElem?_append_left (by omega)]
    · rw [if_neg (by omega), overwrite,
        List.getElem?_append_right (by rw [List.length_append]; omega), List.getElem?_drop,
        List.length_append, htake]
      congr 1
      omega

/-- What has been written is read back. -/
theorem slice_overwrite (h : start + data.length ≤ image.length) (hlen : data.length = len) :
    slice (overwrite image start data) start len = data := by
  have htake : (image.take start).length = start := by
    rw [List.length_take]
    omega
  rw [slice, overwrite, List.append_assoc, drop_append_of_length htake, take_append_of_length hlen]

/-- A write leaves the blocks apart from it as they were. -/
theorem slice_overwrite_of_disjoint (h : start + data.length ≤ image.length)
    (hapart : a + len ≤ start ∨ start + data.length ≤ a) :
    slice (overwrite image start data) a len = slice image a len := by
  apply List.ext_getElem?
  intro i
  by_cases hi : i < len
  · rw [getElem?_slice hi, getElem?_slice hi, getElem?_overwrite h, if_neg (by omega)]
  · have hlow : (slice (overwrite image start data) a len).length ≤ i :=
      (List.length_take_le _ _).trans (Nat.not_lt.mp hi)
    have hhigh : (slice image a len).length ≤ i :=
      (List.length_take_le _ _).trans (Nat.not_lt.mp hi)
    rw [List.getElem?_eq_none hlow, List.getElem?_eq_none hhigh]

/-! ## Lists of blocks -/

/-- The starts of the blocks of `size` bytes from `start` up to `stop`. -/
def blocks (start stop size : Nat) : List Nat :=
  List.range' start ((stop - start + size - 1) / size) size

/-- Some block of `size` bytes contains the address. -/
def Covers (size : Nat) (starts : List Nat) (a : Nat) : Prop := ∃ b ∈ starts, b ≤ a ∧ a < b + size

instance : Decidable (Covers size starts a) :=
  List.decidableBEx (fun b => b ≤ a ∧ a < b + size) starts

theorem covers_cons {b : Nat} :
    Covers size (b :: starts) a ↔ (b ≤ a ∧ a < b + size) ∨ Covers size starts a := by
  simp [Covers]

theorem covers_flatMap {ι : Type*} {l : List ι} {f : ι → List Nat} :
    Covers size (l.flatMap f) a ↔ ∃ i ∈ l, Covers size (f i) a := by
  simp only [Covers, List.mem_flatMap]
  constructor
  · rintro ⟨b, ⟨i, hi, hb⟩, hin⟩
    exact ⟨i, hi, b, hb, hin⟩
  · rintro ⟨i, hi, b, hb, hin⟩
    exact ⟨b, ⟨i, hi, hb⟩, hin⟩

theorem lt_of_mem_blocks {b : Nat} (h : b ∈ blocks start stop size) : b < stop := by
  obtain ⟨i, hi, rfl⟩ := List.mem_range'.mp h
  have hpos : 0 < size := by
    by_contra hzero
    simp [Nat.eq_zero_of_not_pos hzero] at hi
  have hle := (Nat.le_div_iff_mul_le hpos).mp (Nat.succ_le_of_lt hi)
  rw [Nat.succ_mul, Nat.mul_comm] at hle
  omega

theorem blocks_bounds (hdvd : size ∣ stop - start) {b : Nat} (h : b ∈ blocks start stop size) :
    start ≤ b ∧ b + size ≤ stop := by
  obtain ⟨n, hn⟩ := hdvd
  obtain ⟨i, hi, rfl⟩ := List.mem_range'.mp h
  have hpos : 0 < size := by
    by_contra hzero
    simp [Nat.eq_zero_of_not_pos hzero] at hi
  have hcount : (stop - start + size - 1) / size = n := by
    rw [hn, Nat.add_sub_assoc hpos, Nat.mul_add_div hpos, Nat.div_eq_of_lt (by omega), Nat.add_zero]
  have hle : size * (i + 1) ≤ size * n := Nat.mul_le_mul_left size (by omega)
  rw [Nat.mul_add_one] at hle
  omega

/-- The blocks of a range whose length is a multiple of the block size cover the range. -/
theorem covers_blocks (hpos : 0 < size) (hdvd : size ∣ stop - start) :
    Covers size (blocks start stop size) a ↔ start ≤ a ∧ a < stop := by
  constructor
  · rintro ⟨b, hb, hlow, hhigh⟩
    have := blocks_bounds hdvd hb
    omega
  · rintro ⟨hlow, hhigh⟩
    obtain ⟨n, hn⟩ := hdvd
    -- the block number of an address is its offset divided by the block size
    have hdiv := Nat.div_add_mod (a - start) size
    have hmod := Nat.mod_lt (a - start) hpos
    have hindex : (a - start) / size < (stop - start + size - 1) / size := by
      rw [Nat.div_lt_iff_lt_mul hpos, hn, Nat.add_sub_assoc hpos, Nat.mul_add_div hpos,
        Nat.div_eq_of_lt (by omega), Nat.add_zero, Nat.mul_comm, ← hn]
      omega
    refine ⟨start + size * ((a - start) / size), ?_, by omega, by omega⟩
    exact List.mem_range'.mpr ⟨_, hindex, rfl⟩

/-! ## Transfers -/

/-- Blocks of an image written into a memory, in order. -/
def storeBlocks (m : Memory) (image : Bytes) (size : Nat) (starts : List Nat) : Memory :=
  starts.foldl (fun m b => store m b (slice image b size)) m

/-- Blocks of a memory copied into an image, in order. -/
def loadBlocks (image : Bytes) (m : Memory) (size : Nat) (starts : List Nat) : Bytes :=
  starts.foldl (fun image b => overwrite image b (fetch m b size)) image

theorem loadBlocks_cons {b : Nat} : loadBlocks image m size (b :: starts) =
    loadBlocks (overwrite image b (fetch m b size)) m size starts := rfl

/-- What a memory holds after blocks of an image have been written into it. -/
theorem storeBlocks_apply (h : ∀ b ∈ starts, b + size ≤ image.length) :
    storeBlocks m image size starts a = if Covers size starts a then image.getD a 0 else m a := by
  induction starts generalizing m with
  | nil => simp [storeBlocks, Covers]
  | cons b bs ih =>
      have hlen := length_slice (h b List.mem_cons_self)
      show storeBlocks (store m b (slice image b size)) image size bs a = _
      rw [ih fun b' hb' => h b' (List.mem_cons_of_mem b hb')]
      by_cases hrest : Covers size bs a
      · rw [if_pos hrest, if_pos (covers_cons.mpr (.inr hrest))]
      · rw [if_neg hrest]
        by_cases hin : b ≤ a ∧ a < b + size
        · have hbyte : (slice image b size)[a - b]? = some (store m b (slice image b size) a) :=
            store_of_inside (hlen.symm ▸ hin)
          rw [getElem?_slice (by omega), Nat.add_sub_cancel' hin.1] at hbyte
          rw [if_pos (covers_cons.mpr (.inl hin)), List.getD_eq_getElem?_getD, hbyte,
            Option.getD_some]
        · rw [if_neg fun hc => (covers_cons.mp hc).elim hin hrest,
            store_of_outside (hlen.symm ▸ hin)]

theorem length_loadBlocks (h : ∀ b ∈ starts, b + size ≤ image.length) :
    (loadBlocks image m size starts).length = image.length := by
  induction starts generalizing image with
  | nil => rfl
  | cons b bs ih =>
      have hlen : (overwrite image b (fetch m b size)).length = image.length :=
        length_overwrite (by simpa using h b List.mem_cons_self)
      rw [loadBlocks_cons, ih fun b' hb' => hlen.symm ▸ h b' (List.mem_cons_of_mem b hb'), hlen]

/-- What an image holds after blocks of a memory have been copied into it. -/
theorem getElem?_loadBlocks (h : ∀ b ∈ starts, b + size ≤ image.length) :
    (loadBlocks image m size starts)[a]? = if Covers size starts a then some (m a)
    else image[a]? := by
  induction starts generalizing image with
  | nil => simp [loadBlocks, Covers]
  | cons b bs ih =>
      have hfit :
          b + (fetch m b size).length ≤ image.length := by simpa using h b List.mem_cons_self
      rw [loadBlocks_cons, ih fun b' hb' => (length_overwrite hfit).symm ▸
        h b' (List.mem_cons_of_mem b hb'), getElem?_overwrite hfit, length_fetch]
      by_cases hrest : Covers size bs a
      · rw [if_pos hrest, if_pos (covers_cons.mpr (.inr hrest))]
      · rw [if_neg hrest]
        by_cases hin : b ≤ a ∧ a < b + size
        · rw [if_pos hin, if_pos (covers_cons.mpr (.inl hin)), getElem?_fetch (by omega),
            Nat.add_sub_cancel' hin.1]
        · rw [if_neg hin, if_neg fun hc => (covers_cons.mp hc).elim hin hrest]

end Memory

end Akroasis
