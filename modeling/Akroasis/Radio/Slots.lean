import Akroasis.Radio.Decode
import Mathlib.Data.List.Nodup

/-!
# Akroasis.Radio.Slots

The channel and the name table slot by slot: what `encode_all_channels` leaves in every slot,
and what `decode_all_channels` makes of it.

A slot holds what the last channel with its index has been encoded to, and is erased if there
is none (`slotOf_encodeAllChannels`).  Decoding gives, in the order of the slots, what
encoding and decoding makes of a single channel (`stored`), except that a channel without a
receive frequency is an erased slot (`decodeAllChannels_encodeAllChannels`).
-/

namespace Akroasis.Radio

/-! ## One slot -/

/-- The bytes of a channel in the two tables. -/
def encodeSlot (channel : Channel) (index : Nat) : Except CodecError (Bytes × Bytes) := do
  let rx ← (lbcd4Encode channel.rxFreq).mapError (.bcdEncode index)
  let tx ← encodeTx index channel.txFreq
  .ok (channelBytes channel rx tx, nameData channel)

/-- The frequencies of a channel that can be encoded and read back, zero apart. -/
structure Channel.Encodable (channel : Channel) : Prop where
  rx : Radio.Encodable channel.rxFreq
  tx : ∀ txHz ∈ channel.txFreq, Radio.Encodable txHz

/-- A channel after it has been encoded and decoded. -/
def stored (channel : Channel) : Channel :=
  { channel with
    name := decodeName ((nameData channel).take nameLength)
    txFreq := channel.txFreq.filter (· ≠ 0)
    offset := (channel.txFreq.filter (· ≠ 0)).elim .none (offsetBetween channel.rxFreq)
    tone := decodeTone (encodeTone channel.tone % 0x10000) }

/-- A slot with a receive frequency of zero is an erased one. -/
def stored? (channel : Channel) : Option Channel :=
  if channel.rxFreq = 0 then none else some (stored channel)

variable {channel : Channel} {index : Nat} {rx tx : FixedBytes 4} {plan : FrequencyPlan}

theorem encodeSlot_eq_ok {slot : Bytes × Bytes} : encodeSlot channel index = .ok slot ↔
    ∃ rx tx, lbcd4Encode channel.rxFreq = .ok rx ∧ encodeTx index channel.txFreq = .ok tx ∧
      slot = (channelBytes channel rx tx, nameData channel) := by
  constructor
  · intro h
    obtain ⟨rx, hrx, hrest⟩ := bind_eq_ok.mp h
    obtain ⟨tx, htx, hslot⟩ := bind_eq_ok.mp hrest
    exact ⟨rx, tx, mapError_eq_ok.mp hrx, htx, (Except.ok.inj hslot).symm⟩
  · rintro ⟨rx, tx, hrx, htx, rfl⟩
    exact bind_eq_ok.mpr ⟨rx, mapError_eq_ok.mpr hrx, bind_eq_ok.mpr ⟨tx, htx, rfl⟩⟩

theorem exists_four (a : FixedBytes 4) : ∃ w x y z, a.val = [w, x, y, z] := by
  match a with
  | ⟨[w, x, y, z], _⟩ => exact ⟨w, x, y, z, rfl⟩

theorem powerFromBits_powerToBits (power : PowerLevel) :
    powerFromBits (powerToBits power) = power := by
  cases power <;> decide

theorem flags_flagBits (channel : Channel) :
    bandwidthFromBit (flagBits channel) = channel.bandwidth ∧
      scanFromBit (flagBits channel) = channel.scan ∧
      bclFromBit (flagBits channel) = channel.busyLock := by
  rw [flagBits]
  cases channel.bandwidth <;> cases channel.scan <;> cases channel.busyLock <;> decide

theorem decodeTones_self (raw : Nat) : decodeTones raw raw = decodeTone raw := by
  rw [decodeTones, ite_id]

/-- The fields of an encoded channel are where they are looked for. -/
theorem fields_channelBytes (channel : Channel) (rx tx : FixedBytes 4) :
    FixedBytes.slice 4 0 (channelBytes channel rx tx) = rx ∧
      FixedBytes.slice 4 4 (channelBytes channel rx tx) = tx ∧
      (channelBytes channel rx tx).getD 0 0 = rx.val.getD 0 0 ∧
      [(channelBytes channel rx tx).getD 8 0, (channelBytes channel rx tx).getD 9 0] =
        leBytes 2 (encodeTone channel.tone) ∧
      [(channelBytes channel rx tx).getD 10 0, (channelBytes channel rx tx).getD 11 0] =
        leBytes 2 (encodeTone channel.tone) ∧
      (channelBytes channel rx tx).getD 14 0 = powerToBits channel.power ∧
      (channelBytes channel rx tx).getD 15 0 = flagBits channel := by
  obtain ⟨a, b, c, d, hrx⟩ := exists_four rx
  obtain ⟨e, f, g, h, htx⟩ := exists_four tx
  refine ⟨?_, ?_, ?_⟩
  · simpa [channelBytes] using FixedBytes.slice_append [] rx
      (tx.val ++ leBytes 2 (encodeTone channel.tone) ++ leBytes 2 (encodeTone channel.tone) ++
        [0, 0, powerToBits channel.power, flagBits channel]) rfl
  · simpa [channelBytes] using FixedBytes.slice_append rx.val tx
      (leBytes 2 (encodeTone channel.tone) ++ leBytes 2 (encodeTone channel.tone) ++
        [0, 0, powerToBits channel.power, flagBits channel]) rx.property
  · rw [channelBytes, hrx, htx]
    exact ⟨rfl, rfl, rfl, rfl, rfl⟩

/-- Zero is no transmit frequency. -/
theorem decodeTx_encodeTx {txFreq : Option Frequency} (h : ∀ txHz ∈ txFreq, Encodable txHz)
    (hencode : encodeTx index txFreq = .ok tx) (rxHz : Nat) :
    decodeTx index rxHz tx =
      .ok (txFreq.filter (· ≠ 0), (txFreq.filter (· ≠ 0)).elim .none (offsetBetween rxHz)) := by
  cases txFreq with
  | none =>
      obtain rfl := Except.ok.inj hencode
      rfl
  | some txHz =>
      have hbytes : lbcd4Encode txHz = .ok tx := mapError_eq_ok.mp hencode
      by_cases hzero : txHz = 0
      · subst hzero
        obtain rfl := Except.ok.inj hbytes
        rfl
      · obtain ⟨hdecode, hfirst⟩ := lbcd4Decode_lbcd4Encode (h txHz rfl) hzero hbytes
        have hne : tx ≠ noFrequency := by
          rintro rfl
          exact hfirst rfl
        have hkept : (some txHz).filter (fun f => decide (f ≠ 0)) = some txHz := by simp [hzero]
        rw [decodeTx, if_neg hne, hdecode, hkept]
        rfl

/-- **A slot gives back its channel.** -/
theorem decodeSlot_encodeSlot {slot : Bytes × Bytes} (h : channel.Encodable)
    (hencode : encodeSlot channel channel.index = .ok slot) :
    decodeSlot channel.index slot.1 (slot.2.take nameLength) = .ok (stored? channel) := by
  obtain ⟨rx, tx, hrx, htx, rfl⟩ := encodeSlot_eq_ok.mp hencode
  obtain ⟨hslice, hslice', hfirst, hrxTone, htxTone, hpower, hflags⟩ :=
    fields_channelBytes channel rx tx
  obtain ⟨hbandwidth, hscan, hbusy⟩ := flags_flagBits channel
  have htone : ofLeBytes (leBytes 2 (encodeTone channel.tone)) =
      encodeTone channel.tone % 0x10000 :=
    ofLeBytes_leBytes_mod 2 _
  rw [decodeSlot, hslice, hslice', hfirst, hrxTone, htxTone, hpower, hflags, decodeTones_self,
    htone, powerFromBits_powerToBits, hbandwidth, hscan, hbusy, stored?]
  by_cases hzero : channel.rxFreq = 0
  · rw [hzero] at hrx
    obtain rfl := Except.ok.inj hrx
    have herased : noFrequency.val.getD 0 0 = 0xFF := rfl
    rw [if_pos herased, if_pos hzero]
  · obtain ⟨hdecode, hne⟩ := lbcd4Decode_lbcd4Encode h.rx hzero hrx
    rw [if_neg hne, if_neg hzero, hdecode]
    simp only [mapError_ok, bind, Except.bind, decodeTx_encodeTx h.tx htx channel.rxFreq]
    rfl

theorem encodeTx_ok_iff (index : Nat) {txFreq : Option Frequency} :
    (∃ tx, encodeTx index txFreq = .ok tx) ↔ ∀ txHz ∈ txFreq, 10 ∣ txHz := by
  cases txFreq with
  | none => simp [encodeTx]
  | some txHz => simp [encodeTx, mapError_eq_ok, lbcd4Encode_ok_iff]

/-- A channel is encoded exactly if its frequencies are on the 10 Hz raster. -/
theorem encodeSlot_ok_iff (index : Nat) : (∃ slot, encodeSlot channel index = .ok slot) ↔
    10 ∣ channel.rxFreq ∧ ∀ txHz ∈ channel.txFreq, 10 ∣ txHz := by
  rw [← lbcd4Encode_ok_iff, ← encodeTx_ok_iff index]
  simp only [encodeSlot_eq_ok]
  constructor
  · rintro ⟨slot, rx, tx, hrx, htx, -⟩
    exact ⟨⟨rx, hrx⟩, tx, htx⟩
  · rintro ⟨⟨rx, hrx⟩, tx, htx⟩
    exact ⟨_, rx, tx, hrx, htx, rfl⟩

theorem length_encodeSlot {slot : Bytes × Bytes} (h : encodeSlot channel index = .ok slot) :
    slot.1.length = 16 ∧ slot.2.length = 16 := by
  obtain ⟨rx, tx, _, _, rfl⟩ := encodeSlot_eq_ok.mp h
  constructor
  · simp [channelBytes]
  · simp only [nameData, nameLength, List.length_append, List.length_replicate, List.length_take]
    omega

/-! ## The slots of an image -/

variable {image image' : MemoryImage} {i j : Nat} {slot : Bytes × Bytes}

/-- What an image holds in the two slots of an index. -/
def slotOf (image : MemoryImage) (i : Nat) : Bytes × Bytes :=
  (image.readBytes (channelBase + i * channelStride) 16,
    image.readBytes (nameBase + i * nameStride) 16)

/-- A write to the two slots of an index. -/
def writeSlot (image : MemoryImage) (i : Nat) (slot : Bytes × Bytes) : MemoryImage :=
  (image.writeBytes (channelBase + i * channelStride) slot.1).writeBytes
    (nameBase + i * nameStride) slot.2

def erasedSlot : Bytes × Bytes := (List.replicate 16 0xFF, List.replicate 16 0xFF)

theorem clearChannel_eq : clearChannel image i = writeSlot image i erasedSlot := rfl

theorem encodeChannel_eq :
    encodeChannel channel image i = (encodeSlot channel i).map (writeSlot image i) := by
  rw [encodeChannel, encodeSlot]
  cases (lbcd4Encode channel.rxFreq).mapError (CodecError.bcdEncode i) with
  | error e => rfl
  | ok rx => cases encodeTx i channel.txFreq <;> rfl

theorem decodeChannel_eq : decodeChannel image i =
    decodeSlot i (slotOf image i).1 ((slotOf image i).2.take nameLength) := by
  rw [decodeChannel, slotOf]
  congr 1
  simp [MemoryImage.readBytes, Memory.slice, List.take_take, nameLength]

section Write

variable (hsize : 0x1800 ≤ image.length) (hi : i < channelCount)
  (hslot : slot.1.length = 16 ∧ slot.2.length = 16)

include hsize hi hslot

theorem length_writeSlot : (writeSlot image i slot).length = image.length :=
  (preserves_slots hsize hi hslot.1 hslot.2).length

/-- A written slot holds what was written, and every other one what it held. -/
theorem slotOf_writeSlot (hj : j < channelCount) :
    slotOf (writeSlot image i slot) j = if j = i then slot else slotOf image j := by
  obtain ⟨hdata, hname⟩ := hslot
  simp only [channelCount] at hi hj
  simp only [slotOf, writeSlot, MemoryImage.readBytes, MemoryImage.writeBytes, channelBase,
    channelStride, nameBase, nameStride]
  have hfirst : 0 + i * 16 + slot.1.length ≤ image.length := by omega
  have hlen := Memory.length_overwrite hfirst
  have hsecond : 0x1000 + i * 16 + slot.2.length ≤
      (Memory.overwrite image (0 + i * 16) slot.1).length := by omega
  by_cases hij : j = i
  · subst hij
    rw [if_pos rfl, Memory.slice_overwrite_of_disjoint hsecond (by omega),
      Memory.slice_overwrite hfirst hdata, Memory.slice_overwrite hsecond hname]
  · rw [if_neg hij, Memory.slice_overwrite_of_disjoint hsecond (by omega),
      Memory.slice_overwrite_of_disjoint hfirst (by omega),
      Memory.slice_overwrite_of_disjoint hsecond (by omega),
      Memory.slice_overwrite_of_disjoint hfirst (by omega)]

end Write

/-! ## Whole plans -/

variable {channels : List Channel}

/-- The channel that ends up in a slot: the last one with its index. -/
def lastAt (channels : List Channel) (i : Nat) : Option Channel :=
  channels.reverse.find? fun channel => channel.index = i

theorem lastAt_cons : lastAt (channel :: channels) i =
    (lastAt channels i).or (if channel.index = i then some channel else none) := by
  rw [lastAt, List.reverse_cons, List.find?_append, List.find?_singleton, lastAt]
  by_cases h : channel.index = i <;> simp [h]

theorem lastAt_eq_some (h : lastAt channels i = some channel) :
    channel ∈ channels ∧ channel.index = i :=
  ⟨List.mem_reverse.mp (List.mem_of_find?_eq_some h), by simpa using List.find?_some h⟩

theorem lastAt_eq_none : lastAt channels i = none ↔ ∀ channel ∈ channels, channel.index ≠ i := by
  simp [lastAt, List.find?_eq_none]

/-- With distinct indices every channel ends up in its slot. -/
theorem lastAt_of_mem (hnodup : (channels.map Channel.index).Nodup) (h : channel ∈ channels) :
    lastAt channels channel.index = some channel := by
  cases hlast : lastAt channels channel.index with
  | none => exact absurd rfl (lastAt_eq_none.mp hlast channel h)
  | some other =>
      obtain ⟨hmem, hindex⟩ := lastAt_eq_some hlast
      rw [List.inj_on_of_nodup_map hnodup hmem h hindex]

theorem encodeEach_cons (h : channel.index < channelCount) :
    encodeEach (channel :: channels) image =
      (encodeSlot channel channel.index).bind fun slot =>
        encodeEach channels (writeSlot image channel.index slot) := by
  rw [encodeEach, if_pos h, encodeChannel_eq]
  cases encodeSlot channel channel.index <;> rfl

/-- Encoding fails exactly for a channel off the 10 Hz raster. -/
theorem encodeEach_ok_iff (hindex : ∀ channel ∈ channels, channel.index < channelCount) :
    (∃ image', encodeEach channels image = .ok image') ↔
      ∀ channel ∈ channels, 10 ∣ channel.rxFreq ∧ ∀ txHz ∈ channel.txFreq, 10 ∣ txHz := by
  induction channels generalizing image with
  | nil => simp [encodeEach]
  | cons channel channels ih =>
      have hrest (image : MemoryImage) :=
        @ih image fun c hc => hindex c (List.mem_cons_of_mem channel hc)
      rw [List.forall_mem_cons, ← encodeSlot_ok_iff channel.index]
      simp only [encodeEach_cons (hindex channel List.mem_cons_self), bind_eq_ok]
      constructor
      · rintro ⟨image', slot, hslot, hencode⟩
        exact ⟨⟨slot, hslot⟩, (hrest _).mp ⟨image', hencode⟩⟩
      · rintro ⟨⟨slot, hslot⟩, htail⟩
        obtain ⟨image', hencode⟩ := (hrest (writeSlot image channel.index slot)).mpr htail
        exact ⟨image', slot, hslot, hencode⟩

/-- What the second loop of `encode_all_channels` leaves in a slot. -/
theorem slotOf_encodeEach (hsize : 0x1800 ≤ image.length) (hi : i < channelCount)
    (h : encodeEach channels image = .ok image') :
    (∀ channel, lastAt channels i = some channel → encodeSlot channel i = .ok (slotOf image' i)) ∧
      (lastAt channels i = none → slotOf image' i = slotOf image i) := by
  induction channels generalizing image with
  | nil =>
      obtain rfl := Except.ok.inj h
      simp [lastAt]
  | cons first channels ih =>
      by_cases hindex : first.index < channelCount
      · rw [encodeEach_cons hindex] at h
        obtain ⟨slot, hslot, hrest⟩ := bind_eq_ok.mp h
        have hlen := length_encodeSlot hslot
        obtain ⟨hsome, hnone⟩ := ih ((length_writeSlot hsize hindex hlen).symm ▸ hsize) hrest
        rw [slotOf_writeSlot hsize hindex hlen hi] at hnone
        rw [lastAt_cons]
        cases hlast : lastAt channels i with
        | some channel => simpa [hlast] using hsome
        | none =>
            -- nothing later in this slot: it holds what this channel wrote, or is untouched
            by_cases heq : i = first.index
            · subst heq
              simp [hnone hlast, hslot]
            · simpa [Ne.symm heq, heq] using hnone hlast
      · have hne : first.index ≠ i := fun heq => hindex (heq ▸ hi)
        rw [encodeEach, if_neg hindex] at h
        rw [lastAt_cons, if_neg hne, Option.or_none]
        exact ih hsize h

theorem slotOf_clearChannels (hsize : 0x1800 ≤ image.length) {indices : List Nat}
    (hindices : ∀ j ∈ indices, j < channelCount) (hi : i < channelCount) :
    slotOf (indices.foldl clearChannel image) i =
      if i ∈ indices then erasedSlot else slotOf image i := by
  induction indices generalizing image with
  | nil => simp
  | cons j indices ih =>
      have hj := hindices j List.mem_cons_self
      have herased : erasedSlot.1.length = 16 ∧ erasedSlot.2.length = 16 := ⟨rfl, rfl⟩
      have hlen := length_writeSlot hsize hj herased
      rw [List.foldl_cons, clearChannel_eq, ih (hlen.symm ▸ hsize)
        (fun k hk => hindices k (List.mem_cons_of_mem j hk)), slotOf_writeSlot hsize hj herased hi]
      by_cases hmem : i ∈ indices
      · simp [hmem]
      · by_cases heq : i = j <;> simp [hmem, heq]

/-- **What a slot holds** after a plan has been encoded. -/
theorem slotOf_encodeAllChannels (hsize : 0x1800 ≤ image.length)
    (hi : i < channelCount) (h : encodeAllChannels plan image = .ok image') :
    (∀ channel, lastAt plan.channels i = some channel →
      encodeSlot channel i = .ok (slotOf image' i)) ∧
      (lastAt plan.channels i = none → slotOf image' i = erasedSlot) := by
  have hrange : ∀ j ∈ List.range channelCount, j < channelCount := fun j hj => List.mem_range.mp hj
  have hcleared := preserves_clearChannels hsize hrange
  obtain ⟨hsome, hnone⟩ := slotOf_encodeEach (hcleared.length.symm ▸ hsize) hi h
  rw [slotOf_clearChannels hsize hrange hi, if_pos (List.mem_range.mpr hi)] at hnone
  exact ⟨hsome, hnone⟩

theorem encodeAllChannels_ok_iff
    (hindex : ∀ channel ∈ plan.channels, channel.index < channelCount) :
    (∃ image', encodeAllChannels plan image = .ok image') ↔
      ∀ channel ∈ plan.channels, 10 ∣ channel.rxFreq ∧ ∀ txHz ∈ channel.txFreq, 10 ∣ txHz :=
  encodeEach_ok_iff hindex

/-! ## Decoding -/

theorem decodeEach_of_forall {indices : List Nat} {found : Nat → Option Channel}
    (h : ∀ i ∈ indices, decodeChannel image i = .ok (found i)) :
    decodeEach image indices = .ok (indices.filterMap found) := by
  induction indices with
  | nil => rfl
  | cons i indices ih =>
      rw [decodeEach, h i List.mem_cons_self, ih fun j hj => h j (List.mem_cons_of_mem i hj)]
      cases hfound : found i <;> simp [bind, Except.bind, hfound]

/-- What encoding and decoding makes of a list of channels, slot after slot. -/
def readBack (channels : List Channel) : List Channel :=
  (List.range channelCount).filterMap fun i => (lastAt channels i).bind stored?

/-- **A plan read back from its image**: slot after slot, what encoding and decoding makes of
the channel that ended up there. -/
theorem decodeAllChannels_encodeAllChannels (hsize : 0x1800 ≤ image.length)
    (hplan : ∀ channel ∈ plan.channels, channel.Encodable)
    (h : encodeAllChannels plan image = .ok image') :
    decodeAllChannels image' = .ok ⟨readBack plan.channels⟩ := by
  have hdecode : ∀ i ∈ List.range channelCount,
      decodeChannel image' i = .ok ((lastAt plan.channels i).bind stored?) := by
    intro i hi
    obtain ⟨hsome, hnone⟩ := slotOf_encodeAllChannels hsize (List.mem_range.mp hi) h
    rw [decodeChannel_eq]
    cases hlast : lastAt plan.channels i with
    | none =>
        rw [hnone hlast]
        rfl
    | some channel =>
        obtain ⟨hmem, rfl⟩ := lastAt_eq_some hlast
        exact decodeSlot_encodeSlot (hplan channel hmem) (hsome channel hlast)
  rw [decodeAllChannels, decodeEach_of_forall hdecode]
  rfl

theorem stored?_eq_some {result : Channel} (h : stored? channel = some result) :
    channel.rxFreq ≠ 0 ∧ stored channel = result := by
  rw [stored?] at h
  split at h
  · simp at h
  · next hzero => exact ⟨hzero, Option.some.inj h⟩

theorem mem_readBack {result : Channel} : result ∈ readBack channels ↔
    ∃ i < channelCount, ∃ channel, lastAt channels i = some channel ∧
    stored? channel = some result := by
  simp only [readBack, List.mem_filterMap, List.mem_range, Option.bind_eq_some_iff]

/-- What is read back is in index order, so there is one channel for an index at most. -/
theorem pairwise_readBack : (readBack channels).Pairwise fun a b => a.index < b.index := by
  refine List.Pairwise.filterMap _ (fun i j hlt a ha b hb => ?_) List.pairwise_lt_range
  obtain ⟨c, hc, hstored⟩ := Option.bind_eq_some_iff.mp ha
  obtain ⟨c', hc', hstored'⟩ := Option.bind_eq_some_iff.mp hb
  obtain ⟨-, rfl⟩ := stored?_eq_some hstored
  obtain ⟨-, rfl⟩ := stored?_eq_some hstored'
  obtain ⟨-, rfl⟩ := lastAt_eq_some hc
  obtain ⟨-, rfl⟩ := lastAt_eq_some hc'
  exact hlt

end Akroasis.Radio
