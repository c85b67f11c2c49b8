import Akroasis.Radio.Device

/-!
# Akroasis.Radio.Transfer

Whole images over the line: what `upload_image` leaves in the memory of a radio and what
`download_image` returns of it.

`uploadImage_memory` and `getElem?_downloaded` say it byte by byte.  The two transfers do
not cover the same addresses: `Uploaded` are the ranges that are safe to write,
`Downloaded` the main block and, where there is one, the auxiliary block.
-/

namespace Akroasis.Radio

open Driver

variable {config : VariantConfig} {image : MemoryImage} {d d' : Device} {a : Nat}

/-- Addresses that an upload writes. -/
def Uploaded (config : VariantConfig) (a : Nat) : Prop :=
  ∃ range ∈ uploadRanges config, range.1.toNat ≤ a ∧ a < range.2.toNat

instance : Decidable (Uploaded config a) :=
  List.decidableBEx (fun range : UInt16 × UInt16 => range.1.toNat ≤ a ∧ a < range.2.toNat)
    (uploadRanges config)

/-- Addresses that a download reads. -/
def Downloaded (config : VariantConfig) (a : Nat) : Prop :=
  (mainBlockStart.toNat ≤ a ∧ a < mainBlockEnd.toNat) ∨
    (config.hasAuxBlock = true ∧ auxBlockStart.toNat ≤ a ∧ a < auxBlockEnd.toNat)

instance : Decidable (Downloaded config a) := inferInstanceAs (Decidable (_ ∨ _))

/-! ## Blocks of the ranges -/

theorem toNat_blockAddrs (start stop : UInt16) (size : UInt8) :
    (blockAddrs start stop size).map UInt16.toNat =
      Memory.blocks start.toNat stop.toNat size.toNat := by
  have hsmall : ∀ b ∈ Memory.blocks start.toNat stop.toNat size.toNat,
      (UInt16.toNat ∘ UInt16.ofNat) b = b := fun b hb =>
    UInt16.toNat_ofNat_of_lt' ((Memory.lt_of_mem_blocks hb).trans stop.toNat_lt)
  rw [blockAddrs, List.map_map, List.map_congr_left hsmall, List.map_id']

/-- The addresses of the blocks of an upload. -/
def uploadStarts (config : VariantConfig) : List Nat := (uploadBlocks config).map UInt16.toNat

theorem uploadStarts_eq : uploadStarts config =
    (uploadRanges config).flatMap fun range => Memory.blocks range.1.toNat range.2.toNat 16 := by
  rw [uploadStarts, uploadBlocks, List.map_flatMap]
  exact List.flatMap_congr fun range _ => toNat_blockAddrs range.1 range.2 writeBlockSize

/-- Every range is a whole number of blocks and ends within the required size. -/
theorem uploadRanges_spec : ∀ range ∈ uploadRanges config,
    16 ∣ range.2.toNat - range.1.toNat ∧ range.2.toNat ≤ requiredSize config := by
  cases haux : config.hasAuxBlock <;>
    simp [uploadRanges, requiredSize, uploadRangesMain, uploadRangesAux, haux]

theorem covers_uploadStarts : Memory.Covers 16 (uploadStarts config) a ↔ Uploaded config a := by
  rw [uploadStarts_eq, Memory.covers_flatMap]
  refine exists_congr fun range => and_congr_right fun hrange => ?_
  exact Memory.covers_blocks (by decide) (uploadRanges_spec range hrange).1

theorem uploadStarts_bound : ∀ b ∈ uploadStarts config, b + 16 ≤ requiredSize config := by
  intro b hb
  rw [uploadStarts_eq] at hb
  obtain ⟨range, hrange, hb⟩ := List.mem_flatMap.mp hb
  obtain ⟨hdvd, hend⟩ := uploadRanges_spec range hrange
  exact (Memory.blocks_bounds hdvd hb).2.trans hend

/-! ## Uploads -/

/-- What an upload has done to a radio when it returns `Ok`. -/
structure Transferred (image : MemoryImage) (starts : List Nat) (d d' : Device) : Prop where
  idle : d'.pending = []
  honest : d.Honest → d'.Honest
  stored : d.Honest → d'.memory = d.memory.storeBlocks image 16 starts

theorem transferred_of_writes {addrs : List UInt16} (hidle : d.pending = [])
    (hfits : ∀ addr ∈ addrs, addr.toNat + 16 ≤ image.length)
    (h : exec (addrs.forM fun addr =>
      writeBlockWithRetry Device.line addr (image.readBytes addr.toNat writeBlockSize.toNat)) d =
        (.ok ⟨⟩, d')) :
    Transferred image (addrs.map UInt16.toNat) d d' := by
  refine forM_induction
    (motive := fun addrs d d' => (∀ addr ∈ addrs, addr.toNat + 16 ≤ image.length) →
      d.pending = [] → Transferred image (addrs.map UInt16.toNat) d d')
    (fun d _ hidle => ⟨hidle, id, fun _ => rfl⟩) ?_ h hfits hidle
  intro addr addrs d e d' hfirst ih hfits hidle
  have hlen : (image.readBytes addr.toNat writeBlockSize.toNat).length = 16 :=
    Memory.length_slice (hfits addr List.mem_cons_self)
  have hwrote := Device.wrote_of_writeBlockWithRetry hidle (by rw [hlen]; decide) hfirst
  have hrest := ih (fun b hb => hfits b (List.mem_cons_of_mem addr hb)) hwrote.idle
  exact {
    idle := hrest.idle
    honest := fun hd => hrest.honest (hwrote.honest hd)
    stored := fun hd => (hrest.stored (hwrote.honest hd)).trans (by rw [hwrote.stored hd]; rfl) }

theorem transferred_of_uploadImage (hidle : d.pending = [])
    (h : exec (uploadImage Device.line config image) d = (.ok ⟨⟩, d')) :
    requiredSize config ≤ image.length ∧ Transferred image (uploadStarts config) d d' := by
  rw [uploadImage] at h
  split at h
  · simp at h
  · next hsize =>
      have hsize : requiredSize config ≤ image.length := Nat.not_lt.mp hsize
      refine ⟨hsize, transferred_of_writes hidle (fun addr haddr => ?_) h⟩
      exact (uploadStarts_bound _ (List.mem_map_of_mem haddr)).trans hsize

/-- **What an upload leaves in the memory of an honest radio**: the image at the addresses it
writes, and everything else as it was. -/
theorem uploadImage_memory (hidle : d.pending = []) (hhonest : d.Honest)
    (h : exec (uploadImage Device.line config image) d = (.ok ⟨⟩, d')) (a : Nat) :
    d'.memory a = if Uploaded config a then image.getD a 0 else d.memory a := by
  obtain ⟨hsize, htransferred⟩ := transferred_of_uploadImage hidle h
  rw [htransferred.stored hhonest,
    Memory.storeBlocks_apply fun b hb => (uploadStarts_bound b hb).trans hsize]
  simp only [covers_uploadStarts]

/-- No range that is written touches calibration data. -/
theorem uploadRanges_avoid : ∀ range ∈ uploadRanges config, ∀ forbidden ∈ forbiddenRanges,
    range.2.toNat ≤ forbidden.1.toNat ∨ forbidden.2.toNat ≤ range.1.toNat := by
  cases haux : config.hasAuxBlock <;>
    simp [uploadRanges, uploadRangesMain, uploadRangesAux, forbiddenRanges, haux]

theorem isForbidden_of_mem_uploadBlocks {addr : UInt16} (h : addr ∈ uploadBlocks config) :
    isForbidden addr 16 = false := by
  obtain ⟨range, hrange, haddr⟩ := List.mem_flatMap.mp h
  have hblock : addr.toNat ∈ Memory.blocks range.1.toNat range.2.toNat 16 := by
    have := List.mem_map_of_mem (f := UInt16.toNat) haddr
    rwa [toNat_blockAddrs] at this
  obtain ⟨hlow, hhigh⟩ := Memory.blocks_bounds (uploadRanges_spec range hrange).1 hblock
  simp only [isForbidden, List.any_eq_false, decide_eq_true_eq]
  intro forbidden hforbidden
  have := uploadRanges_avoid range hrange forbidden hforbidden
  omega

theorem exec_writes_of_answered {addrs : List UInt16} (memory : Memory)
    (hsafe : ∀ addr ∈ addrs, isForbidden addr 16 = false)
    (hfits : ∀ addr ∈ addrs, addr.toNat + 16 ≤ image.length) :
    ∃ memory', exec (addrs.forM fun addr =>
      writeBlockWithRetry Device.line addr (image.readBytes addr.toNat writeBlockSize.toNat))
        (.opened memory []) = (.ok ⟨⟩, .opened memory' []) := by
  induction addrs generalizing memory with
  | nil => exact ⟨memory, rfl⟩
  | cons addr addrs ih =>
      have hlen : (image.readBytes addr.toNat writeBlockSize.toNat).length = 16 :=
        Memory.length_slice (hfits addr List.mem_cons_self)
      have hwrite := Device.exec_writeBlock (d := .opened memory []) rfl
        (hlen.symm ▸ hsafe addr List.mem_cons_self) (by rw [hlen]; decide)
      obtain ⟨memory', hrest⟩ := ih _ (fun b hb => hsafe b (List.mem_cons_of_mem addr hb))
        (fun b hb => hfits b (List.mem_cons_of_mem addr hb))
      exact ⟨memory', (exec_bind_ok (exec_retrying_of_ok hwrite)).trans hrest⟩

/-- An upload to a radio that stores and acknowledges every block returns `Ok`. -/
theorem exec_uploadImage_of_answered (memory : Memory)
    (hsize : requiredSize config ≤ image.length) :
    ∃ memory', exec (uploadImage Device.line config image) (.opened memory []) =
      (.ok ⟨⟩, .opened memory' []) := by
  rw [uploadImage, if_neg (Nat.not_lt.mpr hsize)]
  exact exec_writes_of_answered memory (fun _ => isForbidden_of_mem_uploadBlocks) fun addr haddr =>
    (uploadStarts_bound _ (List.mem_map_of_mem haddr)).trans hsize

/-! ## Downloads -/

theorem exec_readBlocks (hidle : d.pending = []) (len : UInt8) (addrs : List UInt16)
    (image : MemoryImage) :
    exec (readBlocks Device.line len addrs image) d =
      (.ok (Memory.loadBlocks image d.memory len.toNat (addrs.map UInt16.toNat)), d) := by
  induction addrs generalizing image with
  | nil => rfl
  | cons addr addrs ih =>
      have hread := Device.exec_readBlock hidle addr len
      rw [readBlocks, readBlockWithRetry, exec_bind_ok (exec_retrying_of_ok hread), ih]
      rfl

/-- The image after the main block has been read. -/
def mainPart (size : Nat) (memory : Memory) : MemoryImage :=
  Memory.loadBlocks (MemoryImage.new size) memory 64 (Memory.blocks 0 0x1800 64)

/-- The image of a memory that a download returns. -/
def downloaded (config : VariantConfig) (memory : Memory) : MemoryImage :=
  if config.hasAuxBlock then
    Memory.loadBlocks (mainPart 0x2000 memory) memory 16 (Memory.blocks 0x1E80 0x2000 16)
  else mainPart 0x1800 memory

/-- A download returns the image of the memory and leaves the radio as it was. -/
theorem exec_downloadImage (hidle : d.pending = []) :
    exec (downloadImage Device.line config) d = (.ok (downloaded config d.memory), d) := by
  have hmain (size : Nat) : exec (readBlocks Device.line readBlockSize
      (blockAddrs mainBlockStart mainBlockEnd readBlockSize) (MemoryImage.new size)) d =
        (.ok (mainPart size d.memory), d) := by
    rw [exec_readBlocks hidle, toNat_blockAddrs]
    rfl
  have haux (start : UInt16) (image : MemoryImage) : exec (readBlocks Device.line auxReadBlockSize
      (blockAddrs start auxBlockEnd auxReadBlockSize) image) d =
        (.ok (Memory.loadBlocks image d.memory 16 (Memory.blocks start.toNat 0x2000 16)), d) := by
    rw [exec_readBlocks hidle, toNat_blockAddrs]
    rfl
  have hwarmup : exec (readBlockWithRetry Device.line auxBlockStart auxReadBlockSize) d =
      (.ok (d.memory.fetch 0x1E80 16), d) :=
    exec_retrying_of_ok (Device.exec_readBlock hidle auxBlockStart auxReadBlockSize)
  rw [downloadImage, exec_bind_ok (hmain _), downloaded]
  cases config.hasAuxBlock with
  | false => rfl
  | true =>
      cases config.needsAuxWarmup with
      | false => exact haux _ _
      -- the warm-up read is the first block of the auxiliary block
      | true =>
          have hfirst : Memory.blocks 0x1E80 0x2000 16 = 0x1E80 :: Memory.blocks 0x1E90 0x2000 16 :=
            rfl
          simp only [Bool.not_true, Bool.false_eq_true, if_false, if_true]
          rw [exec_bind_ok hwarmup, haux, hfirst, Memory.loadBlocks_cons]
          rfl

section MainPart

variable {size : Nat} (memory : Memory)

theorem mainBlocks_fit (hsize : 0x1800 ≤ size) :
    ∀ b ∈ Memory.blocks 0 0x1800 64, b + 64 ≤ (MemoryImage.new size).length := by
  intro b hb
  rw [MemoryImage.new, List.length_replicate]
  exact (Memory.blocks_bounds (by decide) hb).2.trans hsize

theorem length_mainPart (hsize : 0x1800 ≤ size) : (mainPart size memory).length = size := by
  rw [mainPart, Memory.length_loadBlocks (mainBlocks_fit hsize), MemoryImage.new,
    List.length_replicate]

theorem getElem?_mainPart (hsize : 0x1800 ≤ size) (ha : a < size) :
    (mainPart size memory)[a]? = some (if a < 0x1800 then memory a else 0xFF) := by
  rw [mainPart, Memory.getElem?_loadBlocks (mainBlocks_fit hsize)]
  simp only [Memory.covers_blocks (show 0 < 64 by decide) (show 64 ∣ 0x1800 - 0 by decide)]
  by_cases hmain : a < 0x1800
  · simp [hmain]
  · simp [hmain, MemoryImage.new, ha]

end MainPart

theorem auxBlocks_fit (memory : Memory) :
    ∀ b ∈ Memory.blocks 0x1E80 0x2000 16, b + 16 ≤ (mainPart 0x2000 memory).length := by
  intro b hb
  rw [length_mainPart memory (by decide)]
  exact (Memory.blocks_bounds (by decide) hb).2

theorem length_downloaded (memory : Memory) :
    (downloaded config memory).length = if config.hasAuxBlock then 0x2000 else 0x1800 := by
  rw [downloaded]
  split
  · rw [Memory.length_loadBlocks (auxBlocks_fit memory), length_mainPart memory (by decide)]
  · exact length_mainPart memory le_rfl

/-- **What a download returns**: the memory at the addresses it reads, `0xFF` between them. -/
theorem getElem?_downloaded (memory : Memory) (h : a < (downloaded config memory).length) :
    (downloaded config memory)[a]? = some (if Downloaded config a then memory a else 0xFF) := by
  rw [length_downloaded] at h
  have hread : Downloaded config a ↔
      a < 0x1800 ∨ (config.hasAuxBlock = true ∧ 0x1E80 ≤ a ∧ a < 0x2000) := by
    simp [Downloaded, mainBlockStart, mainBlockEnd, auxBlockStart, auxBlockEnd]
  simp only [hread, downloaded]
  cases haux : config.hasAuxBlock with
  | false =>
      rw [if_neg Bool.false_ne_true, getElem?_mainPart memory le_rfl (by simpa [haux] using h)]
      simp
  | true =>
      rw [if_pos rfl, Memory.getElem?_loadBlocks (auxBlocks_fit memory),
        getElem?_mainPart memory (by decide) (by simpa [haux] using h)]
      simp only [Memory.covers_blocks (show 0 < 16 by decide) (show 16 ∣ 0x2000 - 0x1E80 by decide)]
      by_cases hin : 0x1E80 ≤ a ∧ a < 0x2000
      · simp [hin]
      · simp [hin]

end Akroasis.Radio
