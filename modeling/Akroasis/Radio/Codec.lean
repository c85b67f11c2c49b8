import Akroasis.Memory
import Akroasis.Radio.Plan
import Akroasis.Results

/-!
# Akroasis.Radio.Codec

The memory image of a UV-5R and the encoding of channels into it
(`syntonia::baofeng::image`, `memmap`, `bcd`, `tone_codec` and `codec`).

An image is a list of bytes.  `read_bytes` and `write_bytes` panic past the end of the
image; here `readBytes` returns fewer bytes there.  All uses in this development are within
the image: those of `encodeAllChannels` by `encodeAllChannels_preserves`, which also says
that nothing outside the channel and the name table changes.
-/

namespace Akroasis.Radio

/-! ## Images -/

/-- A raw EEPROM image. -/
abbrev MemoryImage := Bytes

namespace MemoryImage

/-- An image in the erased state. -/
def new (size : Nat) : MemoryImage := List.replicate size 0xFF

def readBytes (image : MemoryImage) (addr len : Nat) : Bytes := Memory.slice image addr len

def writeBytes (image : MemoryImage) (addr : Nat) (data : Bytes) : MemoryImage :=
  Memory.overwrite image addr data

/-- A fresh image has room for both tables. -/
theorem le_length_new : 0x1800 ≤ (new 0x1800).length := (List.length_replicate ..).ge

end MemoryImage

def channelBase : Nat := 0x0000
def channelStride : Nat := 16
def channelCount : Nat := 128
def nameBase : Nat := 0x1000
def nameStride : Nat := 16
def nameLength : Nat := 7

/-- The address lies in the channel table or in the name table. -/
def InTables (a : Nat) : Prop :=
  (channelBase ≤ a ∧ a < channelBase + channelCount * channelStride) ∨
    (nameBase ≤ a ∧ a < nameBase + channelCount * nameStride)

instance {a : Nat} : Decidable (InTables a) := inferInstanceAs (Decidable (_ ∨ _))

theorem inTables_iff {a : Nat} : InTables a ↔ a < 0x800 ∨ (0x1000 ≤ a ∧ a < 0x1800) := by
  simp [InTables, channelBase, channelCount, channelStride, nameBase, nameStride]

/-! ## Frequencies -/

inductive BcdError
  | invalidBcd (byte : UInt8)
  | notAligned (freqHz : Nat)
  deriving DecidableEq, Repr

/-- `n` bytes of little-endian packed decimal. -/
def bcdBytes : Nat → Nat → Bytes
  | 0, _ => []
  | n + 1, value =>
      (UInt8.ofNat (value / 10 % 10) <<< 4 ||| UInt8.ofNat (value % 10)) :: bcdBytes n (value / 100)

theorem length_bcdBytes (n value : Nat) : (bcdBytes n value).length = n := by
  induction n generalizing value with
  | zero => rfl
  | succ n ih => simp [bcdBytes, ih]

/-- No frequency: four bytes of an erased slot. -/
def noFrequency : FixedBytes 4 := .replicate 4 0xFF

def lbcd4Encode (freqHz : Nat) : Except BcdError (FixedBytes 4) :=
  if freqHz = 0 then .ok noFrequency
  else if freqHz % 10 ≠ 0 then .error (.notAligned freqHz)
  else .ok ⟨bcdBytes 4 (freqHz / 10), length_bcdBytes 4 _⟩

/-! ## Tones and flags -/

def encodeTone : ToneMode → Nat
  | .none => 0
  | .ctcss tone => (tone.hz * 10).floor.toNat
  | .dcs code polarity =>
      match allDcsCodes.idxOf? code.code, polarity with
      | some i, .normal => i + 1
      | some i, .inverted => i + 1 + 105
      | none, _ => 0

def powerToBits : PowerLevel → UInt8
  | .high => 0
  | .low => 1
  | .mid => 2

/-- Byte 15 of a channel. -/
def flagBits (channel : Channel) : UInt8 :=
  (if channel.bandwidth = .wide then 0x40 else 0) |||
    (if channel.scan = .included then 0x04 else 0) ||| (if channel.busyLock then 0x08 else 0)

/-! ## Channels -/

inductive CodecError
  | bcdDecode (index : Nat) (source : BcdError)
  | bcdEncode (index : Nat) (source : BcdError)
  deriving DecidableEq, Repr

/-- The 16 bytes of a channel. -/
def channelBytes (channel : Channel) (rx tx : FixedBytes 4) : Bytes :=
  rx.val ++ tx.val ++ leBytes 2 (encodeTone channel.tone) ++ leBytes 2 (encodeTone channel.tone) ++
    [0, 0, powerToBits channel.power, flagBits channel]

/-- The 16 bytes of a name. -/
def nameData (channel : Channel) : Bytes :=
  (nameBytes channel.name).take nameLength ++
    List.replicate (16 - ((nameBytes channel.name).take nameLength).length) 0xFF

/-- The transmit frequency of a channel, if it has one. -/
def encodeTx (index : Nat) : Option Frequency → Except CodecError (FixedBytes 4)
  | some tx => (lbcd4Encode tx).mapError (.bcdEncode index)
  | none => .ok noFrequency

def encodeChannel (channel : Channel) (image : MemoryImage) (index : Nat) :
    Except CodecError MemoryImage := do
  let rx ← (lbcd4Encode channel.rxFreq).mapError (.bcdEncode index)
  let tx ← encodeTx index channel.txFreq
  let image := image.writeBytes (channelBase + index * channelStride) (channelBytes channel rx tx)
  .ok (image.writeBytes (nameBase + index * nameStride) (nameData channel))

def clearChannel (image : MemoryImage) (index : Nat) : MemoryImage :=
  (image.writeBytes (channelBase + index * channelStride) (List.replicate 16 0xFF)).writeBytes
    (nameBase + index * nameStride) (List.replicate 16 0xFF)

/-- The second loop of `encode_all_channels`: slots the radio has not are skipped. -/
def encodeEach : List Channel → MemoryImage → Except CodecError MemoryImage
  | [], image => .ok image
  | channel :: channels, image =>
      if channel.index < channelCount then
        (encodeChannel channel image channel.index).bind (encodeEach channels)
      else encodeEach channels image

def encodeAllChannels (plan : FrequencyPlan) (image : MemoryImage) :
    Except CodecError MemoryImage :=
  encodeEach plan.channels ((List.range channelCount).foldl clearChannel image)

/-! ## What the codec leaves alone -/

/-- The image keeps its length, and what it holds outside the two tables. -/
structure Preserves (image image' : MemoryImage) : Prop where
  length : image'.length = image.length
  outside : ∀ a, ¬ InTables a → image'[a]? = image[a]?

namespace Preserves

variable {image image' image'' : MemoryImage}

theorem refl : Preserves image image := ⟨rfl, fun _ _ => rfl⟩

theorem trans (h : Preserves image image') (h' : Preserves image' image'') :
    Preserves image image'' :=
  ⟨h'.length.trans h.length, fun a ha => (h'.outside a ha).trans (h.outside a ha)⟩

end Preserves

variable {image image' : MemoryImage} {index : Nat} {channel : Channel}

/-- A write of one slot of each table. -/
theorem preserves_slots {data name : Bytes} (hsize : 0x1800 ≤ image.length)
    (hindex : index < channelCount) (hdata : data.length = 16) (hname : name.length = 16) :
    Preserves image ((image.writeBytes (channelBase + index * channelStride) data).writeBytes
      (nameBase + index * nameStride) name) := by
  simp only [channelCount, channelBase, channelStride, nameBase, nameStride,
    MemoryImage.writeBytes] at hindex ⊢
  have hfirst : 0 + index * 16 + data.length ≤ image.length := by omega
  have hlen := Memory.length_overwrite hfirst
  have hsecond : 0x1000 + index * 16 + name.length ≤
      (Memory.overwrite image (0 + index * 16) data).length := by omega
  refine ⟨(Memory.length_overwrite hsecond).trans hlen, fun a ha => ?_⟩
  rw [inTables_iff] at ha
  rw [Memory.getElem?_overwrite hsecond, if_neg (by omega), Memory.getElem?_overwrite hfirst,
    if_neg (by omega)]

theorem preserves_clearChannel (hsize : 0x1800 ≤ image.length) (hindex : index < channelCount) :
    Preserves image (clearChannel image index) :=
  preserves_slots hsize hindex (List.length_replicate ..) (List.length_replicate ..)

theorem preserves_encodeChannel (hsize : 0x1800 ≤ image.length) (hindex : index < channelCount)
    (h : encodeChannel channel image index = .ok image') : Preserves image image' := by
  obtain ⟨rx, _, h⟩ := bind_eq_ok.mp h
  obtain ⟨tx, _, h⟩ := bind_eq_ok.mp h
  obtain rfl := Except.ok.inj h
  refine preserves_slots hsize hindex ?_ ?_
  · simp [channelBytes]
  · simp only [nameData, nameLength, List.length_append, List.length_replicate, List.length_take]
    omega

theorem preserves_clearChannels (hsize : 0x1800 ≤ image.length) {indices : List Nat}
    (h : ∀ i ∈ indices, i < channelCount) : Preserves image (indices.foldl clearChannel image) := by
  induction indices generalizing image with
  | nil => exact .refl
  | cons i indices ih =>
      have hfirst := preserves_clearChannel hsize (h i List.mem_cons_self)
      exact hfirst.trans (ih (hsize.trans_eq hfirst.length.symm)
        fun j hj => h j (List.mem_cons_of_mem i hj))

theorem preserves_encodeEach {channels : List Channel} (hsize : 0x1800 ≤ image.length)
    (h : encodeEach channels image = .ok image') : Preserves image image' := by
  induction channels generalizing image with
  | nil =>
      obtain rfl := Except.ok.inj h
      exact .refl
  | cons channel channels ih =>
      rw [encodeEach] at h
      split at h
      · next hindex =>
          obtain ⟨next, hnext, hrest⟩ := bind_eq_ok.mp h
          have hfirst := preserves_encodeChannel hsize hindex hnext
          exact hfirst.trans (ih (hsize.trans_eq hfirst.length.symm) hrest)
      · exact ih hsize h

/-- **The codec writes the two tables and nothing else.** -/
theorem encodeAllChannels_preserves {plan : FrequencyPlan} (hsize : 0x1800 ≤ image.length)
    (h : encodeAllChannels plan image = .ok image') : Preserves image image' := by
  have hrange : ∀ i ∈ List.range channelCount, i < channelCount := fun i hi => List.mem_range.mp hi
  have hcleared := preserves_clearChannels hsize hrange
  rw [encodeAllChannels] at h
  exact hcleared.trans (preserves_encodeEach (hsize.trans_eq hcleared.length.symm) h)

end Akroasis.Radio
