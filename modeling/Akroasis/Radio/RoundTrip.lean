import Akroasis.Radio.Programming
import Akroasis.Radio.Slots
import Mathlib.Data.List.Perm.Subperm

/-!
# Akroasis.Radio.RoundTrip

Plans through the memory of a radio and back: what `validate_plan` guarantees about
`encode_all_channels`, and what a plan loses.

The validator looks at bands and counts, the encoder at the 10 Hz raster and at slots:
`writtenInFull_iff` says what the validator leaves out.  `plan_round_trip` is the round trip
of a plan that the memory can represent, `programmed_read_back` the one through the radio itself.
-/

namespace Akroasis.Radio

variable {constraints : RadioConstraints} {plan : FrequencyPlan} {channel : Channel}
  {channels : List Channel} {image image' : MemoryImage}

/-! ## What validation guarantees -/

theorem Validates.not_isError (h : Validates constraints plan) :
    ∀ issue ∈ validatePlan constraints plan, ¬ issue.isError = true :=
  List.filter_eq_nil_iff.mp h

theorem Validates.of_mem (h : Validates constraints plan) (hmem : channel ∈ plan.channels) :
    constraints.allowsFrequency channel.rxFreq = true ∧
      (∀ txHz ∈ channel.txFreq, constraints.allowsFrequency txHz = true) ∧
      channel.index < constraints.maxChannels := by
  have hissues : ∀ issue ∈ validateChannel constraints channel, ¬ issue.isError = true := by
    intro issue hissue
    apply h.not_isError
    simp only [validatePlan, List.mem_append, List.mem_flatMap]
    exact .inl (.inr ⟨channel, hmem, hissue⟩)
  simp only [validateChannel, List.mem_append] at hissues
  refine ⟨?_, fun txHz htx => ?_, ?_⟩
  · by_contra hrx
    exact hissues (.error (.rxOutsideBands channel.index channel.rxFreq)) (by simp [hrx]) rfl
  · by_contra hbad
    have htx : channel.txFreq = some txHz := htx
    exact hissues (.error (.txOutsideBands channel.index txHz)) (by simp [htx, hbad]) rfl
  · by_contra hindex
    exact hissues (.error (.indexTooLarge channel.index (constraints.maxChannels - 1)))
      (by simp [Nat.not_lt.mp hindex]) rfl

/-- The radios of the family: their bands lie between 136 and 520 MHz, and they have 128 slots. -/
theorem baofeng_limits
    (hradio : constraints = baofengUv5rConstraints ∨ constraints = baofengF8hpConstraints) :
    constraints.maxChannels = channelCount ∧
      ∀ freq : Nat, constraints.allowsFrequency freq = true → freq ≠ 0 ∧ freq < 1000000000 := by
  have hbands : constraints.validBands = baofengBands ∧ constraints.maxChannels = channelCount := by
    obtain rfl | rfl := hradio <;> exact ⟨rfl, rfl⟩
  refine ⟨hbands.2, fun freq hfreq => ?_⟩
  rw [RadioConstraints.allowsFrequency, hbands.1] at hfreq
  simp only [baofengBands, mhz, List.any_cons, List.any_nil, Bool.or_false, Bool.or_eq_true,
    decide_eq_true_eq] at hfreq
  have hin : (136000000 ≤ freq ∧ freq ≤ 174000000) ∨ (400000000 ≤ freq ∧ freq ≤ 520000000) := hfreq
  omega

/-- A plan is written in full: encoding succeeds, and the image decodes to as many channels as
the plan has, every one of them with its index and its frequencies. -/
def WrittenInFull (plan : FrequencyPlan) (image : MemoryImage) : Prop :=
  ∃ image' decoded, encodeAllChannels plan image = .ok image' ∧
    decodeAllChannels image' = .ok decoded ∧
    (∀ channel ∈ plan.channels, ∃ result ∈ decoded.channels,
      result.index = channel.index ∧ result.rxFreq = channel.rxFreq ∧
      result.txFreq = channel.txFreq) ∧
    decoded.channels.length = plan.channels.length

/-- A plan whose frequencies are on the raster of the memory, zero apart. -/
def OnRaster (plan : FrequencyPlan) : Prop :=
  ∀ channel ∈ plan.channels, 10 ∣ channel.rxFreq ∧ ∀ txHz ∈ channel.txFreq, 10 ∣ txHz

theorem txFreq_stored (h : ∀ txHz ∈ channel.txFreq, txHz ≠ 0) :
    (stored channel).txFreq = channel.txFreq := by
  show channel.txFreq.filter (· ≠ 0) = channel.txFreq
  cases htx : channel.txFreq with
  | none => rfl
  | some txHz => simp [h txHz htx]

section ReadBack

variable (hindex : ∀ channel ∈ channels, channel.index < channelCount)
  (hrx : ∀ channel ∈ channels, channel.rxFreq ≠ 0)

include hindex hrx

/-- With distinct indices every channel is read back. -/
theorem readBack_perm (hnodup : (channels.map Channel.index).Nodup) :
    (readBack channels).Perm (channels.map stored) := by
  have hsorted : (readBack channels).Nodup :=
    pairwise_readBack.imp fun hlt heq => by simp [heq] at hlt
  have hdistinct : (channels.map stored).Nodup := by
    apply List.Nodup.of_map Channel.index
    rw [List.map_map]
    exact hnodup
  refine (List.perm_ext_iff_of_nodup hsorted hdistinct).mpr fun result => ?_
  rw [mem_readBack, List.mem_map]
  constructor
  · rintro ⟨i, -, channel, hlast, hstored⟩
    exact ⟨channel, (lastAt_eq_some hlast).1, (stored?_eq_some hstored).2⟩
  · rintro ⟨channel, hmem, rfl⟩
    refine ⟨channel.index, hindex channel hmem, channel, lastAt_of_mem hnodup hmem, ?_⟩
    rw [stored?, if_neg (hrx channel hmem)]

omit hindex hrx in
/-- As many channels as the plan has are read back only if their indices are distinct. -/
theorem nodup_of_length_readBack (h : (readBack channels).length = channels.length) :
    (channels.map Channel.index).Nodup := by
  have hsorted : ((readBack channels).map Channel.index).Nodup :=
    List.pairwise_map.mpr (pairwise_readBack.imp fun hlt => hlt.ne)
  have hsub : (readBack channels).map Channel.index ⊆ channels.map Channel.index := by
    intro i hi
    obtain ⟨result, hresult, rfl⟩ := List.mem_map.mp hi
    obtain ⟨j, -, channel, hlast, hstored⟩ := mem_readBack.mp hresult
    obtain ⟨-, rfl⟩ := stored?_eq_some hstored
    exact List.mem_map.mpr ⟨channel, (lastAt_eq_some hlast).1, rfl⟩
  have hperm := (List.subperm_of_subset hsorted hsub).perm_of_length_le (by simp [h])
  exact hperm.nodup_iff.mp hsorted

end ReadBack

/-- A plan the radio has room for is written in full exactly if its frequencies are on the
raster and its indices distinct. -/
theorem writtenInFull_of_fits (hsize : 0x1800 ≤ image.length)
    (hindex : ∀ channel ∈ plan.channels, channel.index < channelCount)
    (hrx : ∀ channel ∈ plan.channels, channel.rxFreq ≠ 0 ∧ channel.rxFreq < 1000000000)
    (htx : ∀ channel ∈ plan.channels, ∀ txHz ∈ channel.txFreq, txHz ≠ 0 ∧ txHz < 1000000000) :
    WrittenInFull plan image ↔ OnRaster plan ∧ (plan.channels.map Channel.index).Nodup := by
  have hdecode (hraster : OnRaster plan) {image' : MemoryImage}
      (hencode : encodeAllChannels plan image = .ok image') :
      decodeAllChannels image' = .ok ⟨readBack plan.channels⟩ := by
    refine decodeAllChannels_encodeAllChannels hsize (fun channel hmem => ?_) hencode
    exact ⟨⟨(hrx channel hmem).2, (hraster channel hmem).1⟩,
      fun txHz h => ⟨(htx channel hmem txHz h).2, (hraster channel hmem).2 txHz h⟩⟩
  constructor
  · rintro ⟨image', decoded, hencode, hdecoded, -, hlength⟩
    have hraster : OnRaster plan := (encodeAllChannels_ok_iff hindex).mp ⟨image', hencode⟩
    obtain rfl := Except.ok.inj ((hdecode hraster hencode).symm.trans hdecoded)
    exact ⟨hraster, nodup_of_length_readBack hlength⟩
  · rintro ⟨hraster, hnodup⟩
    obtain ⟨image', hencode⟩ : ∃ image', encodeAllChannels plan image = .ok image' :=
      (encodeAllChannels_ok_iff hindex).mpr hraster
    have hperm := readBack_perm hindex (fun channel hmem => (hrx channel hmem).1) hnodup
    refine ⟨image', _, hencode, hdecode hraster hencode, fun channel hmem => ?_, ?_⟩
    · refine ⟨stored channel, hperm.mem_iff.mpr (List.mem_map_of_mem hmem), rfl, rfl, ?_⟩
      exact txFreq_stored fun txHz h => (htx channel hmem txHz h).1
    · rw [hperm.length_eq, List.length_map]

/-- **Validation suffices for programming** exactly if the frequencies are on the 10 Hz raster
and no two channels share an index. -/
theorem writtenInFull_iff
    (hradio : constraints = baofengUv5rConstraints ∨ constraints = baofengF8hpConstraints)
    (hvalid : Validates constraints plan) (hsize : 0x1800 ≤ image.length) :
    WrittenInFull plan image ↔ OnRaster plan ∧ (plan.channels.map Channel.index).Nodup := by
  obtain ⟨hcount, hbands⟩ := baofeng_limits hradio
  apply writtenInFull_of_fits hsize
  · exact fun channel hmem => hcount ▸ (hvalid.of_mem hmem).2.2
  · exact fun channel hmem => hbands _ (hvalid.of_mem hmem).1
  · exact fun channel hmem txHz htx => hbands _ ((hvalid.of_mem hmem).2.1 txHz htx)

/-- Two channels in slots of their own. -/
def pairPlan : FrequencyPlan :=
  ⟨[sampleChannel, { sampleChannel with index := 1, rxFreq := 147000000 }]⟩

theorem writtenInFull_pairPlan : WrittenInFull pairPlan (MemoryImage.new 0x1800) := by
  refine (writtenInFull_iff (.inl rfl) (by decide) MemoryImage.le_length_new).mpr ⟨?_, ?_⟩
  · simp [OnRaster, pairPlan, sampleChannel]
  · simp [pairPlan, sampleChannel]

/-- A simplex channel 5 Hz off the calling frequency. -/
def offRasterPlan : FrequencyPlan := ⟨[{ sampleChannel with rxFreq := 146520005 }]⟩

/-- Two channels for slot 0. -/
def sharedSlotPlan : FrequencyPlan := ⟨[sampleChannel, { sampleChannel with rxFreq := 147000000 }]⟩

/-- Both plans validate; the one cannot be encoded, and of the other one channel is lost. -/
theorem validated_but_not_written :
    (Validates baofengUv5rConstraints offRasterPlan ∧
      ¬ WrittenInFull offRasterPlan (MemoryImage.new 0x1800)) ∧
    Validates baofengUv5rConstraints sharedSlotPlan ∧
      ¬ WrittenInFull sharedSlotPlan (MemoryImage.new 0x1800) := by
  refine ⟨⟨by decide, ?_⟩, by decide, ?_⟩
  · rw [writtenInFull_of_fits MemoryImage.le_length_new]
    · simp [OnRaster, offRasterPlan, sampleChannel]
    all_goals simp [offRasterPlan, sampleChannel, channelCount]
  · rw [writtenInFull_of_fits MemoryImage.le_length_new]
    · simp [sharedSlotPlan, sampleChannel]
    all_goals simp [sharedSlotPlan, sampleChannel, channelCount]

/-! ## Names -/

/-- What is read back of a name's bytes: those of an erased slot follow the name. -/
theorem decodeName_nameData (h : ∀ b ∈ nameBytes channel.name, b ≠ 0xFF ∧ b ≠ 0x00) :
    decodeName ((nameData channel).take nameLength) =
      trim ((latin1 (nameBytes channel.name)).take nameLength) := by
  have hfront : ∀ b ∈ (nameBytes channel.name).take nameLength,
      decide (b ≠ 0xFF ∧ b ≠ 0x00) = true :=
    fun b hb => decide_eq_true (h b (List.mem_of_mem_take hb))
  have hback (n : Nat) :
      (List.replicate n (0xFF : UInt8)).takeWhile (fun b => b ≠ 0xFF ∧ b ≠ 0x00) = [] := by
    cases n <;> simp [List.replicate_succ]
  rw [decodeName, nameData, List.take_append, List.take_of_length_le (List.length_take_le _ _),
    List.take_replicate, List.takeWhile_append_of_pos hfront, hback, List.append_nil, latin1,
    List.map_take, latin1]

theorem latin1_nameBytes_of_isAscii {name : List Char} (h : IsAscii name) :
    latin1 (nameBytes name) = name := by
  induction name with
  | nil => rfl
  | cons c name ih =>
      have hc : c.toNat < 0x80 := h c List.mem_cons_self
      have hrest := ih fun d hd => h d (List.mem_cons_of_mem c hd)
      rw [nameBytes, List.flatMap_cons, utf8EncodeChar_of_ascii hc, ← nameBytes]
      simp only [latin1, List.map_cons, List.cons_append, List.nil_append,
        UInt8.toNat_ofNat'] at hrest ⊢
      rw [hrest, Nat.mod_eq_of_lt (by omega), Char.ofNat_toNat]

/-- Printable ASCII: what the keypad of a radio offers. -/
def IsPrintable (name : List Char) : Prop := ∀ c ∈ name, 0x20 ≤ c.toNat ∧ c.toNat ≤ 0x7E

instance {name : List Char} : Decidable (IsPrintable name) :=
  List.decidableBAll (fun c : Char => 0x20 ≤ c.toNat ∧ c.toNat ≤ 0x7E) name

theorem IsPrintable.isAscii {name : List Char} (h : IsPrintable name) : IsAscii name :=
  fun c hc => (h c hc).2.trans_lt (by decide)

theorem mem_nameBytes_of_isAscii {name : List Char} {b : UInt8} (h : IsAscii name)
    (hb : b ∈ nameBytes name) :
    ∃ c ∈ name, b = UInt8.ofNat c.toNat := by
  obtain ⟨c, hc, hb⟩ := List.mem_flatMap.mp hb
  rw [utf8EncodeChar_of_ascii (h c hc)] at hb
  exact ⟨c, hc, List.mem_singleton.mp hb⟩

theorem decodeName_of_isPrintable (h : IsPrintable channel.name) :
    decodeName ((nameData channel).take nameLength) = trim (channel.name.take nameLength) := by
  rw [decodeName_nameData, latin1_nameBytes_of_isAscii h.isAscii]
  intro b hb
  obtain ⟨c, hc, rfl⟩ := mem_nameBytes_of_isAscii h.isAscii hb
  obtain ⟨hlow, hhigh⟩ := h c hc
  constructor
  · rw [Ne, ← UInt8.toNat_inj, UInt8.toNat_ofNat']
    change ¬ c.toNat % 2 ^ 8 = 255
    omega
  · rw [Ne, ← UInt8.toNat_inj, UInt8.toNat_ofNat']
    change ¬ c.toNat % 2 ^ 8 = 0
    omega

/-! ## From plan to memory and back -/

/-- A channel as the memory shows it: seven characters of its name, and the offset that its
transmit frequency amounts to. -/
def remembered (channel : Channel) : Channel :=
  { channel with
    name := trim (channel.name.take nameLength)
    offset := channel.txFreq.elim .none (offsetBetween channel.rxFreq) }

/-- A channel the memory can represent. -/
structure Channel.Representable (channel : Channel) : Prop where
  index : channel.index < channelCount
  rx : 0 < channel.rxFreq ∧ channel.rxFreq < 1000000000 ∧ 10 ∣ channel.rxFreq
  tx : ∀ txHz ∈ channel.txFreq, 0 < txHz ∧ txHz < 1000000000 ∧ 10 ∣ txHz
  tone : channel.tone.Exact
  name : IsPrintable channel.name

theorem Channel.Representable.encodable (h : channel.Representable) : channel.Encodable :=
  ⟨⟨h.rx.2.1, h.rx.2.2⟩, fun txHz htx => ⟨(h.tx txHz htx).2.1, (h.tx txHz htx).2.2⟩⟩

theorem stored_of_representable (h : channel.Representable) :
    stored channel = remembered channel := by
  have htx : channel.txFreq.filter (· ≠ 0) = channel.txFreq :=
    txFreq_stored fun txHz htx => (h.tx txHz htx).1.ne'
  obtain ⟨htone, hlt⟩ := decodeTone_encodeTone h.tone
  rw [stored, remembered, htx, decodeName_of_isPrintable h.name, Nat.mod_eq_of_lt hlt, htone]

/-- **A plan survives the memory**: encoding succeeds, decoding gives the plan's channels in
index order, and nothing outside the two tables changes. -/
theorem plan_round_trip (hsize : 0x1800 ≤ image.length)
    (hnodup : (plan.channels.map Channel.index).Nodup)
    (hplan : ∀ channel ∈ plan.channels, channel.Representable) :
    ∃ image' decoded, encodeAllChannels plan image = .ok image' ∧
      decodeAllChannels image' = .ok decoded ∧
      decoded.channels.Perm (plan.channels.map remembered) ∧
      decoded.channels.Pairwise (fun a b => a.index < b.index) ∧
      Preserves image image' := by
  have hindex : ∀ channel ∈ plan.channels, channel.index < channelCount := fun channel hmem =>
    (hplan channel hmem).index
  obtain ⟨image', hencode⟩ : ∃ image', encodeAllChannels plan image = .ok image' :=
    (encodeAllChannels_ok_iff hindex).mpr fun channel hmem =>
      ⟨(hplan channel hmem).rx.2.2, fun txHz htx => ((hplan channel hmem).tx txHz htx).2.2⟩
  have hdecode := decodeAllChannels_encodeAllChannels hsize
    (fun channel hmem => (hplan channel hmem).encodable) hencode
  refine ⟨image', _, hencode, hdecode, ?_, pairwise_readBack,
    encodeAllChannels_preserves hsize hencode⟩
  have hmap : plan.channels.map remembered = plan.channels.map stored :=
    List.map_congr_left fun channel hmem => (stored_of_representable (hplan channel hmem)).symm
  rw [hmap]
  exact readBack_perm hindex (fun channel hmem => (hplan channel hmem).rx.1.ne') hnodup

/-- A repeater with a tone and a name that is too long. -/
def repeaterChannel : Channel where
  index := 5
  name := "W1AW 2M RPT".toList
  rxFreq := 146940000
  txFreq := some 146340000
  offset := .minus 600000
  tone := .ctcss ⟨(885 : ℕ) / 10, by rw [roundedTenths_div]; decide⟩
  power := .low
  bandwidth := .narrow
  scan := .skip
  busyLock := true

def repeaterPlan : FrequencyPlan := ⟨[repeaterChannel, sampleChannel]⟩

theorem sampleChannel_representable : sampleChannel.Representable :=
  ⟨by decide, ⟨by decide, by decide, by decide⟩, by simp [sampleChannel], trivial, by decide⟩

theorem plan_round_trip_repeater : ∃ image' decoded,
    encodeAllChannels repeaterPlan (MemoryImage.new 0x1800) = .ok image' ∧
      decodeAllChannels image' = .ok decoded ∧
      decoded.channels.Perm [remembered repeaterChannel, remembered sampleChannel] := by
  have hrepeater : repeaterChannel.Representable := by
    refine ⟨by decide, ⟨by decide, by decide, by decide⟩, ?_, ?_, by decide⟩
    · intro txHz htx
      obtain rfl : 146340000 = txHz := Option.some.inj htx
      decide
    · exact exact_ctcss 885 _
  have hplan : ∀ channel ∈ repeaterPlan.channels, channel.Representable := by
    simp [repeaterPlan, hrepeater, sampleChannel_representable]
  obtain ⟨image', decoded, hencode, hdecode, hperm, -⟩ :=
    plan_round_trip MemoryImage.le_length_new (by decide) hplan
  exact ⟨image', decoded, hencode, hdecode, hperm⟩

/-! ## Through the radio and back -/

section Radio

open Driver

/-- Decoding looks at the two tables only. -/
theorem decodeAllChannels_congr (h : ∀ a, InTables a → image'[a]? = image[a]?) :
    decodeAllChannels image' = decodeAllChannels image := by
  have hread : ∀ start, (∀ k < 16, InTables (start + k)) →
      image'.readBytes start 16 = image.readBytes start 16 := by
    intro start hin
    refine List.ext_getElem? fun k => ?_
    by_cases hk : k < 16
    · simp only [MemoryImage.readBytes, Memory.getElem?_slice hk, h _ (hin k hk)]
    · simp [MemoryImage.readBytes, Memory.slice, hk]
  have hslot : ∀ i < channelCount, slotOf image' i = slotOf image i := by
    intro i hi
    simp only [channelCount] at hi
    simp only [slotOf, channelBase, channelStride, nameBase, nameStride]
    rw [hread _ fun k hk => inTables_iff.mpr (by omega),
      hread _ fun k hk => inTables_iff.mpr (by omega)]
  have heach : ∀ indices : List Nat, (∀ i ∈ indices, i < channelCount) →
      decodeEach image' indices = decodeEach image indices := by
    intro indices
    induction indices with
    | nil => exact fun _ => rfl
    | cons i indices ih =>
        intro hi
        obtain ⟨hfirst, hrest⟩ := List.forall_mem_cons.mp hi
        rw [decodeEach, decodeEach, ih hrest, decodeChannel_eq, decodeChannel_eq, hslot i hfirst]
  rw [decodeAllChannels, decodeAllChannels, heach _ fun i hi => List.mem_range.mp hi]

variable {memory : Memory} {treatments : List Treatment} {after : Device}

/-- What an honest radio gives back after an upload decodes as what was uploaded, whatever it held
before and whichever writes it refused or left unanswered. -/
theorem decodeAllChannels_downloaded (variant : RadioVariant)
    (hhonest : (Device.opened memory treatments).Honest)
    (hencode : Session.encodeChannels plan.channels = .ok image)
    (hupload : exec (Session.uploadImage Device.line variant.config image)
      (.opened memory treatments) =
      (.ok ⟨⟩, after)) :
    ∃ readback, exec (Session.downloadImage Device.line variant.config) after =
      (.ok readback, after) ∧
      decodeAllChannels readback = decodeAllChannels image := by
  have hupload' := exec_mapErr_eq_ok.mp hupload
  have hidle := (transferred_of_uploadImage rfl hupload').2.idle
  have hlen := (encoded_outside hencode).1
  refine ⟨_, exec_mapErr_eq_ok.mpr (exec_downloadImage hidle),
    decodeAllChannels_congr fun a hin => ?_⟩
  have ha : a < 0x1800 := by
    rw [inTables_iff] at hin
    omega
  have hsize : a < (downloaded variant.config after.memory).length := by
    rw [length_downloaded]
    split <;> omega
  rw [getElem?_downloaded _ hsize, if_pos (downloaded_of_inTables hin),
    uploadImage_memory rfl hhonest hupload' a, if_pos (uploaded_of_inTables hin),
    List.getD_eq_getElem?_getD, List.getElem?_eq_getElem (by omega), Option.getD_some]

/-- The image of a session is decoded as far as its channels can be encoded. -/
theorem decodeAllChannels_encodeChannels (hplan : ∀ channel ∈ channels, channel.Encodable)
    (hencode : Session.encodeChannels channels = .ok image) :
    decodeAllChannels image = .ok ⟨readBack channels⟩ :=
  decodeAllChannels_encodeAllChannels (by rw [MemoryImage.new, List.length_replicate]; decide) hplan
    (mapError_eq_ok.mp hencode)

/-- **What is programmed is what is read**: after an upload that returned `Ok`, downloading the
memory of an honest radio and decoding it gives the channels of the plan, in index order. -/
theorem programmed_read_back (variant : RadioVariant)
    (hhonest : (Device.opened memory treatments).Honest)
    (hnodup : (plan.channels.map Channel.index).Nodup)
    (hplan : ∀ channel ∈ plan.channels, channel.Representable)
    (hencode : Session.encodeChannels plan.channels = .ok image)
    (hupload : exec (Session.uploadImage Device.line variant.config image)
      (.opened memory treatments) =
      (.ok ⟨⟩, after)) :
    ∃ readback decoded, exec (Session.downloadImage Device.line variant.config) after =
      (.ok readback, after) ∧
      decodeAllChannels readback = .ok decoded ∧
      decoded.channels.Perm (plan.channels.map remembered) ∧
      decoded.channels.Pairwise fun a b => a.index < b.index := by
  obtain ⟨readback, hdownload, hdecode⟩ :=
    decodeAllChannels_downloaded variant hhonest hencode hupload
  rw [decodeAllChannels_encodeChannels (fun channel hmem => (hplan channel hmem).encodable)
    hencode] at hdecode
  refine ⟨readback, _, hdownload, hdecode, ?_, pairwise_readBack⟩
  rw [List.map_congr_left fun channel hmem => (stored_of_representable (hplan channel hmem)).symm]
  exact readBack_perm (fun channel hmem => (hplan channel hmem).index)
    (fun channel hmem => (hplan channel hmem).rx.1.ne') hnodup

/-- A UV-5R, which the comparison of the program rejects, holds the plan all the same. -/
theorem programmed_read_back_uv5r : ∃ image after readback decoded,
    Session.encodeChannels samplePlan.channels = .ok image ∧
      exec (Session.uploadImage Device.line uv5rConfig image) (.opened (fun _ => 0x05) []) =
        (.ok ⟨⟩, after) ∧
      exec (Session.downloadImage Device.line uv5rConfig) after = (.ok readback, after) ∧
      decodeAllChannels readback = .ok decoded ∧
      decoded.channels.Perm [remembered sampleChannel] := by
  obtain ⟨image, memory', hencode, hupload⟩ := samplePlan_uploads .uv5r fun _ => 0x05
  obtain ⟨readback, decoded, hdownload, hdecode, hperm, -⟩ :=
    programmed_read_back .uv5r (opened_honest _)
    (by decide) (by simpa [samplePlan] using sampleChannel_representable) hencode hupload
  exact ⟨image, _, readback, decoded, hencode, hupload, hdownload, hdecode, hperm⟩

end Radio

end Akroasis.Radio
