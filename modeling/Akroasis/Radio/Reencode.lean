import Akroasis.Radio.RoundTrip

/-!
# Akroasis.Radio.Reencode

Images through a plan and back: what `decode_all_channels` reads is encoded into another
image and decoded again.

Two things are lost.  The decoder reads the bytes of a name as Latin-1, the encoder writes
its UTF-8, so that a character beyond ASCII comes back as two others; one sequence of seven
characters alone is its own re-reading (`reread_eq_self_iff`).  And the decoder reads four
zero bytes as a frequency of 0 Hz, which the encoder writes as none.  Nothing else is lost
(`image_round_trip_iff`).
-/

namespace Akroasis.Radio

variable {channel : Channel} {channels : List Channel} {image image' : MemoryImage}
  {plan : FrequencyPlan} {index : Nat}

/-! ## Names -/

/-- The UTF-8 of a name read as Latin-1. -/
def spread (name : List Char) : List Char := latin1 (nameBytes name)

/-- A name after it has been written and read: seven of its bytes, without white space at the
ends. -/
def reread (name : List Char) : List Char := trim ((spread name).take nameLength)

/-- The sequence that is its own UTF-8 read as Latin-1, as far as seven bytes go. -/
def echo : List Char :=
  ['\u00C3', '\u0083', '\u00C2', '\u0083', '\u00C3', '\u0082', '\u00C2']

/-- Names that are read back as they are: ASCII, or ASCII and then the echo up to the end of
the slot. -/
def KeptName (name : List Char) : Prop :=
  IsAscii name ∨ ∃ front, IsAscii front ∧ front.length < nameLength ∧
    name = front ++ echo.take (nameLength - front.length)

/-! ## Channels of an image -/

/-- What a slot can decode to. -/
structure Channel.Decoded (channel : Channel) : Prop where
  encodable : channel.Encodable
  offset : channel.offset = channel.txFreq.elim .none (offsetBetween channel.rxFreq)
  tone : channel.tone.Exact
  trimmed : trim channel.name = channel.name
  short : channel.name.length ≤ nameLength
  chars : ∀ c ∈ channel.name, c.toNat < 0xFF ∧ c.toNat ≠ 0

theorem length_decodeName_le (bytes : Bytes) : (decodeName bytes).length ≤ bytes.length := by
  refine length_trim_le.trans ?_
  rw [latin1, List.length_map]
  exact (List.takeWhile_sublist _).length_le

theorem toNat_of_mem_decodeName {bytes : Bytes} {c : Char} (h : c ∈ decodeName bytes) :
    c.toNat < 0xFF ∧ c.toNat ≠ 0 := by
  obtain ⟨b, hb, rfl⟩ := List.mem_map.mp (mem_of_mem_trim h)
  have hne := List.mem_takeWhile_imp hb
  simp only [decide_eq_true_eq, Ne, ← UInt8.toNat_inj] at hne
  have hlt := b.toNat_lt
  rw [toNat_ofNat_of_lt hlt]
  have h255 : (0xFF : UInt8).toNat = 255 := rfl
  have h0 : (0x00 : UInt8).toNat = 0 := rfl
  omega

section Fields

variable {index rxHz : Nat} {bytes : FixedBytes 4} {result : Option Frequency × FrequencyOffset}

theorem decodeTx_eq_ok : decodeTx index rxHz bytes = .ok result ↔
    (bytes = noFrequency ∧ result = (none, .none)) ∨
      ∃ txHz, bytes ≠ noFrequency ∧ lbcd4Decode bytes = .ok txHz ∧
        result = (some txHz, offsetBetween rxHz txHz) := by
  rw [decodeTx]
  split
  · next herased => simp [herased, eq_comm]
  · next herased =>
      simp only [herased, false_and, false_or]
      constructor
      · intro h
        obtain ⟨txHz, htx, hresult⟩ := bind_eq_ok.mp h
        exact ⟨txHz, herased, mapError_eq_ok.mp htx, (Except.ok.inj hresult).symm⟩
      · rintro ⟨txHz, -, htx, rfl⟩
        exact bind_eq_ok.mpr ⟨txHz, mapError_eq_ok.mpr htx, rfl⟩

theorem offset_of_decodeTx (h : decodeTx index rxHz bytes = .ok result) :
    (∀ txHz ∈ result.1, Encodable txHz) ∧ result.2 = result.1.elim .none (offsetBetween rxHz) := by
  obtain ⟨-, rfl⟩ | ⟨txHz, -, htx, rfl⟩ := decodeTx_eq_ok.mp h
  · simp
  · obtain ⟨hlt, haligned⟩ := lbcd4Decode_lt htx
    refine ⟨fun f hf => ?_, rfl⟩
    obtain rfl : txHz = f := Option.some.inj hf
    exact ⟨hlt, haligned⟩

theorem decodeTx_eq_zero (h : decodeTx index rxHz bytes = .ok result) :
    result.1 = some 0 ↔ bytes = .replicate 4 0 := by
  obtain ⟨rfl, rfl⟩ | ⟨txHz, hne, htx, rfl⟩ := decodeTx_eq_ok.mp h
  · exact iff_of_false (by simp) (by decide)
  · rw [Option.some.injEq, eq_zero_iff_of_lbcd4Decode htx hne]

end Fields

/-- The bytes that the fields of a channel have been read from. -/
structure Channel.ReadFrom (channel : Channel) (i : Nat) (settings label : Bytes) : Prop where
  used : settings.getD 0 0 ≠ 0xFF
  index : channel.index = i
  name : channel.name = decodeName label
  rx : lbcd4Decode (.slice 4 0 settings) = .ok channel.rxFreq
  tx : decodeTx i channel.rxFreq (.slice 4 4 settings) = .ok (channel.txFreq, channel.offset)
  tone : channel.tone = decodeTones (ofLeBytes [settings.getD 8 0, settings.getD 9 0])
    (ofLeBytes [settings.getD 10 0, settings.getD 11 0])

theorem readFrom_of_decodeSlot {ch name : Bytes}
    (h : decodeSlot index ch name = .ok (some channel)) : channel.ReadFrom index ch name := by
  rw [decodeSlot] at h
  split at h
  · simp at h
  · next hused =>
      obtain ⟨rx, hrx, hrest⟩ := bind_eq_ok.mp h
      obtain ⟨⟨txFreq, offset⟩, htx, hresult⟩ := bind_eq_ok.mp hrest
      obtain rfl := Option.some.inj (Except.ok.inj hresult)
      exact ⟨hused, rfl, rfl, mapError_eq_ok.mp hrx, htx, rfl⟩

theorem decoded_of_decodeSlot {ch name : Bytes} (hname : name.length ≤ nameLength)
    (h : decodeSlot index ch name = .ok (some channel)) :
    channel.index = index ∧ channel.Decoded := by
  have hread := readFrom_of_decodeSlot h
  obtain ⟨hlt, haligned⟩ := lbcd4Decode_lt hread.rx
  obtain ⟨htxs, hoffset⟩ := offset_of_decodeTx hread.tx
  refine ⟨hread.index, ⟨⟨⟨hlt, haligned⟩, htxs⟩, hoffset, ?_, ?_, ?_, ?_⟩⟩
  · rw [hread.tone, decodeTones]
    split <;> exact exact_decodeTone _
  · rw [hread.name]
    exact trim_trim
  · rw [hread.name]
    exact (length_decodeName_le name).trans hname
  · rw [hread.name]
    exact fun c hc => toNat_of_mem_decodeName hc

theorem getD_slice (ch : Bytes) : (FixedBytes.slice 4 0 ch).val.getD 0 0 = ch.getD 0 0 := by
  cases ch <;> rfl

/-- The receive bytes of a used slot are not the erased ones. -/
theorem ne_noFrequency_of_used {ch : Bytes} (h : ch.getD 0 0 ≠ 0xFF) :
    FixedBytes.slice 4 0 ch ≠ noFrequency := by
  intro heq
  apply h
  rw [← getD_slice, heq]
  rfl

/-- A slot that survives: an erased one, or one without zero bytes for a frequency and with a
name that is read back as it is. -/
def SlotSurvives (slot : Bytes × Bytes) : Prop :=
  slot.1.getD 0 0 = 0xFF ∨
    (FixedBytes.slice 4 0 slot.1 ≠ .replicate 4 0 ∧ FixedBytes.slice 4 4 slot.1 ≠ .replicate 4 0 ∧
      KeptName (decodeName (slot.2.take nameLength)))

theorem slotSurvives_iff {slot : Bytes × Bytes}
    (h : decodeSlot index slot.1 (slot.2.take nameLength) = .ok (some channel)) :
    SlotSurvives slot ↔ channel.rxFreq ≠ 0 ∧ channel.txFreq ≠ some 0 ∧ KeptName channel.name := by
  have hread := readFrom_of_decodeSlot h
  have hrxZero := eq_zero_iff_of_lbcd4Decode hread.rx (ne_noFrequency_of_used hread.used)
  have htxZero : channel.txFreq = some 0 ↔ _ := decodeTx_eq_zero hread.tx
  rw [SlotSurvives, or_iff_right hread.used, hread.name]
  simp only [Ne, hrxZero, htxZero]

/-- Only an erased slot decodes to no channel. -/
theorem erased_of_decodeSlot {ch name : Bytes} (h : decodeSlot index ch name = .ok none) :
    ch.getD 0 0 = 0xFF := by
  rw [decodeSlot] at h
  split at h
  · assumption
  · obtain ⟨rx, -, hrest⟩ := bind_eq_ok.mp h
    obtain ⟨tx, -, hresult⟩ := bind_eq_ok.mp hrest
    simp at hresult

/-- The channel of a slot, if it decodes to one. -/
def channelAt (image : MemoryImage) (i : Nat) : Option Channel :=
  (decodeChannel image i).toOption.join

theorem decoded_of_channelAt {i : Nat} (h : channelAt image i = some channel) :
    channel.index = i ∧ channel.Decoded := by
  have hslot : decodeChannel image i = .ok (some channel) :=
    toOption_eq_some.mp (Option.join_eq_some_iff.mp h)
  exact decoded_of_decodeSlot (List.length_take_le _ _) hslot

/-- If the slots of an image decode, every one has decoded to its channel. -/
theorem decodeEach_eq_ok {indices : List Nat} (h : decodeEach image indices = .ok channels) :
    (∀ i ∈ indices, decodeChannel image i = .ok (channelAt image i)) ∧
      channels = indices.filterMap (channelAt image) := by
  have hall : ∀ i ∈ indices, decodeChannel image i = .ok (channelAt image i) := by
    induction indices generalizing channels with
    | nil => simp
    | cons i indices ih =>
        obtain ⟨first, hfirst, hrest⟩ := bind_eq_ok.mp h
        obtain ⟨rest, htail, -⟩ := bind_eq_ok.mp hrest
        refine List.forall_mem_cons.mpr ⟨?_, ih htail⟩
        rw [channelAt, hfirst]
        rfl
  exact ⟨hall, Except.ok.inj (h.symm.trans (decodeEach_of_forall hall))⟩

/-- The channels of an image that decodes: one for each slot at most, with its index. -/
theorem decodeAllChannels_eq_ok (h : decodeAllChannels image = .ok plan) :
    (∀ channel ∈ plan.channels, channel.index < channelCount ∧ channel.Decoded) ∧
      plan.channels.Pairwise (fun a b => a.index < b.index) := by
  obtain ⟨channels, hchannels, rfl⟩ := map_eq_ok.mp h
  obtain ⟨-, rfl⟩ := decodeEach_eq_ok hchannels
  constructor
  · intro channel hmem
    obtain ⟨i, hi, hchannel⟩ := List.mem_filterMap.mp hmem
    obtain ⟨rfl, hdecoded⟩ := decoded_of_channelAt hchannel
    exact ⟨List.mem_range.mp hi, hdecoded⟩
  · refine List.Pairwise.filterMap _ (fun i j hlt a ha b hb => ?_) List.pairwise_lt_range
    rw [(decoded_of_channelAt ha).1, (decoded_of_channelAt hb).1]
    exact hlt

/-! ## Names that survive -/

theorem spread_append (front back : List Char) :
    spread (front ++ back) = spread front ++ spread back := by
  simp [spread, nameBytes, latin1]

theorem spread_cons_of_latin1 {c : Char} (hlow : 0x80 ≤ c.toNat) (hhigh : c.toNat < 0xFF)
    (name : List Char) :
    spread (c :: name) =
      Char.ofNat (c.toNat / 64 + 0xC0) :: Char.ofNat (c.toNat % 64 + 0x80) :: spread name := by
  have h1 : (UInt8.ofNat (c.toNat / 64 + 0xC0)).toNat = c.toNat / 64 + 0xC0 := by
    rw [UInt8.toNat_ofNat']
    omega
  have h2 : (UInt8.ofNat (c.toNat % 64 + 0x80)).toNat = c.toNat % 64 + 0x80 := by
    rw [UInt8.toNat_ofNat']
    omega
  rw [spread, nameBytes, List.flatMap_cons, utf8EncodeChar_of_latin1 hlow (by omega), ← nameBytes]
  simp only [latin1, List.cons_append, List.nil_append, List.map_cons, h1, h2, spread]

theorem take_spread_echo : ∀ k < 8, (spread (echo.take k)).take k = echo.take k := by decide

theorem echo_grows : ∀ j < 7, 0 < j → echo.take (j + 1) <+: spread (echo.take j) := by decide

theorem endsClean_echo {j : Nat} (hj : j < 8) : EndsClean (echo.take j) := by
  have hall : ∀ j < 8, (echo.take j).getLast?.any isWhitespace = false := by decide
  intro c hc
  have hlast := hall j hj
  rwa [Option.mem_def.mp hc] at hlast

/-- A character beyond ASCII starts with one of two, neither of them white space. -/
theorem lead_cases {c : Char} (hlow : 0x80 ≤ c.toNat) (hhigh : c.toNat < 0xFF) :
    (c.toNat < 0xC0 ∧ Char.ofNat (c.toNat / 64 + 0xC0) = '\u00C2') ∨
      (0xC0 ≤ c.toNat ∧ Char.ofNat (c.toNat / 64 + 0xC0) = '\u00C3') := by
  by_cases h : c.toNat < 0xC0
  · have hlead : c.toNat / 64 + 0xC0 = 0xC2 := by omega
    exact .inl ⟨h, by rw [hlead]⟩
  · have hlead : c.toNat / 64 + 0xC0 = 0xC3 := by omega
    exact .inr ⟨by omega, by rw [hlead]⟩

section FixedPoint

variable {front back : List Char} {c : Char} (hfront : front.length < nameLength)
  (hascii : IsAscii front) (hlow : 0x80 ≤ c.toNat) (hhigh : c.toNat < 0xFF)
  (hclean : StartsClean (front ++ c :: back))
  (hfixed : reread (front ++ c :: back) = front ++ c :: back)

include hfront hascii hlow hhigh hclean hfixed

/-- The rest of a name that is read back as it is: its own spreading without white space at
the end. -/
theorem trimEnd_of_fixed :
    trimEnd (front ++ (spread (c :: back)).take (nameLength - front.length)) =
    front ++ c :: back := by
  have htake : (spread (front ++ c :: back)).take nameLength =
      front ++ (spread (c :: back)).take (nameLength - front.length) := by
    rw [spread_append, spread, latin1_nameBytes_of_isAscii hascii, List.take_append,
      List.take_of_length_le hfront.le]
  have hstart : StartsClean (front ++ (spread (c :: back)).take (nameLength - front.length)) := by
    cases front with
    | cons d front => simpa [StartsClean] using hclean
    | nil =>
        intro d hd
        rw [spread_cons_of_latin1 hlow hhigh] at hd
        obtain rfl : Char.ofNat (c.toNat / 64 + 0xC0) = d := by simpa [nameLength] using hd
        obtain ⟨-, h⟩ | ⟨-, h⟩ := lead_cases hlow hhigh <;> rw [h] <;> decide
  rw [reread, htake, trim, trimStart_eq_self.mpr hstart] at hfixed
  exact hfixed

/-- What the spreading starts with, and does not end in white space, the name has as well. -/
theorem isPrefix_of_fixed {p : List Char} (hp : p <+: spread (c :: back))
    (hlen : p.length ≤ nameLength - front.length) (hne : p ≠ []) (hend : EndsClean p) :
    p <+: c :: back := by
  have hkept :
      front ++ p <+: trimEnd (front ++ (spread (c :: back)).take (nameLength - front.length)) := by
    apply isPrefix_trimEnd
    · exact (List.prefix_append_right_inj front).mpr (List.prefix_take_iff.mpr ⟨hp, hlen⟩)
    · intro d hd
      rw [List.getLast?_append_of_ne_nil front hne] at hd
      exact hend d hd
  rw [trimEnd_of_fixed hfront hascii hlow hhigh hclean hfixed] at hkept
  exact (List.prefix_append_right_inj front).mp hkept

/-- The echo grows character by character. -/
theorem echo_isPrefix_of_fixed {j : Nat} (hj : j ≤ nameLength - front.length) (hpos : 0 < j) :
    echo.take j <+: c :: back := by
  have hle : nameLength - front.length ≤ 7 := Nat.sub_le _ _
  have hne (k : Nat) (hk : 0 < k) : echo.take k ≠ [] := by
    simp [echo, hk.ne']
  induction j with
  | zero => simp at hpos
  | succ j ih =>
      by_cases hzero : j = 0
      · subst hzero
        -- a character below U+00C0 would start with U+00C2, which is not below it
        have hlead : [Char.ofNat (c.toNat / 64 + 0xC0)] <+: c :: back := by
          apply isPrefix_of_fixed hfront hascii hlow hhigh hclean hfixed
          · rw [spread_cons_of_latin1 hlow hhigh]
            exact List.prefix_append [_] _
          · exact hj
          · simp
          · intro d hd
            obtain rfl : Char.ofNat (c.toNat / 64 + 0xC0) = d := by simpa using hd
            obtain ⟨-, h⟩ | ⟨-, h⟩ := lead_cases hlow hhigh <;> rw [h] <;> decide
        have hc : Char.ofNat (c.toNat / 64 + 0xC0) = c := (List.cons_prefix_cons.mp hlead).1
        obtain ⟨hlt, h⟩ | ⟨-, h⟩ := lead_cases hlow hhigh
        · rw [← hc, h] at hlt
          exact absurd hlt (by decide)
        · rw [h] at hc
          subst hc
          exact List.prefix_append ['\u00C3'] back
      · have hpos : 0 < j := Nat.pos_of_ne_zero hzero
        have hprev := ih (by omega) hpos
        apply isPrefix_of_fixed hfront hascii hlow hhigh hclean hfixed
        · obtain ⟨rest, hrest⟩ := hprev
          rw [← hrest, spread_append]
          exact (echo_grows j (by omega) hpos).trans (List.prefix_append _ _)
        · exact (List.length_take_le _ _).trans hj
        · exact hne (j + 1) (Nat.succ_pos j)
        · exact endsClean_echo (by omega)

end FixedPoint

/-- **Which names survive** being written as UTF-8 and read as Latin-1. -/
theorem reread_eq_self_iff {name : List Char} (htrimmed : trim name = name)
    (hshort : name.length ≤ nameLength) (hchars : ∀ c ∈ name, c.toNat < 0xFF ∧ c.toNat ≠ 0) :
    reread name = name ↔ KeptName name := by
  constructor
  · intro hfixed
    obtain hascii | ⟨front, c, back, hfront, hlow, rfl⟩ := isAscii_or_split name
    · exact .inl hascii
    · have hlen : front.length < nameLength := by
        rw [List.length_append, List.length_cons] at hshort
        omega
      have hecho : echo.take (nameLength - front.length) <+: c :: back :=
        echo_isPrefix_of_fixed hlen hfront hlow (hchars c (by simp)).1
          (trim_eq_self.mp htrimmed).1 hfixed le_rfl (Nat.sub_pos_of_lt hlen)
      have hlength : (echo.take (nameLength - front.length)).length =
          nameLength - front.length := by
        rw [List.length_take]
        exact min_eq_left (Nat.sub_le _ _)
      refine .inr ⟨front, hfront, hlen, ?_⟩
      rw [hecho.eq_of_length_le]
      rw [hlength]
      rw [List.length_append] at hshort
      omega
  · rintro (hascii | ⟨front, hfront, hlen, rfl⟩)
    · rw [reread, spread, latin1_nameBytes_of_isAscii hascii,
        List.take_of_length_le hshort, htrimmed]
    · have htake : (spread (front ++ echo.take (nameLength - front.length))).take nameLength =
          front ++ echo.take (nameLength - front.length) := by
        rw [spread_append, spread, latin1_nameBytes_of_isAscii hfront, List.take_append,
          List.take_of_length_le hlen.le,
          take_spread_echo (nameLength - front.length) (Nat.lt_succ_of_le (Nat.sub_le _ _))]
      rw [reread, htake, htrimmed]

/-- A name read back. -/
theorem decodeName_nameData_of_decoded (h : channel.Decoded) :
    decodeName ((nameData channel).take nameLength) = reread channel.name := by
  rw [decodeName_nameData, reread, spread]
  intro b hb
  obtain ⟨c, hc, hb⟩ := List.mem_flatMap.mp hb
  obtain ⟨hlt, hne⟩ := h.chars c hc
  have hrange : b.toNat ≠ 0xFF ∧ b.toNat ≠ 0 := by
    by_cases hascii : c.toNat < 0x80
    · rw [utf8EncodeChar_of_ascii hascii, List.mem_singleton] at hb
      rw [hb, UInt8.toNat_ofNat']
      omega
    · rw [utf8EncodeChar_of_latin1 (by omega) (by omega)] at hb
      simp only [List.mem_cons, List.not_mem_nil, or_false] at hb
      obtain rfl | rfl := hb <;> rw [UInt8.toNat_ofNat'] <;> omega
  constructor
  · rintro rfl
    exact hrange.1 rfl
  · rintro rfl
    exact hrange.2 rfl

/-! ## Whole images -/

/-- What the memory gives back of a channel it has given: all of it, unless a frequency is
zero or the name does not survive. -/
theorem stored?_eq_self_iff (h : channel.Decoded) : stored? channel = some channel ↔
    channel.rxFreq ≠ 0 ∧ channel.txFreq ≠ some 0 ∧ KeptName channel.name := by
  have htone : decodeTone (encodeTone channel.tone % 0x10000) = channel.tone := by
    obtain ⟨htone, hlt⟩ := decodeTone_encodeTone h.tone
    rw [Nat.mod_eq_of_lt hlt, htone]
  have htx : channel.txFreq.filter (· ≠ 0) = channel.txFreq ↔ channel.txFreq ≠ some 0 := by
    cases htx : channel.txFreq with
    | none => simp
    | some txHz => by_cases hzero : txHz = 0 <;> simp [hzero]
  rw [← reread_eq_self_iff h.trimmed h.short h.chars, ← htx, ← decodeName_nameData_of_decoded h]
  constructor
  · intro hstored
    obtain ⟨hrx, heq⟩ := stored?_eq_some hstored
    exact ⟨hrx, congrArg Channel.txFreq heq, congrArg Channel.name heq⟩
  · rintro ⟨hrx, htx, hname⟩
    rw [stored?, if_neg hrx, stored, htone, hname, htx, ← h.offset]

/-- A list of channels in index order is read back as it is if every one of them is. -/
theorem readBack_eq_self_iff (hindex : ∀ channel ∈ channels, channel.index < channelCount)
    (hsorted : channels.Pairwise fun a b => a.index < b.index) :
    readBack channels = channels ↔ ∀ channel ∈ channels, stored? channel = some channel := by
  have hnodup : (channels.map Channel.index).Nodup :=
    List.pairwise_map.mpr (hsorted.imp fun hlt => hlt.ne)
  constructor
  · intro heq channel hmem
    rw [← heq] at hmem
    obtain ⟨i, -, source, hlast, hstored⟩ := mem_readBack.mp hmem
    obtain ⟨-, rfl⟩ := stored?_eq_some hstored
    have hself := lastAt_of_mem hnodup (heq ▸ hmem)
    obtain ⟨-, rfl⟩ := lastAt_eq_some hlast
    have hsame : source = stored source := Option.some.inj (hlast.symm.trans hself)
    rw [← hsame] at hstored ⊢
    exact hstored
  · intro hall
    have hmap : channels.map stored = channels := by
      conv_rhs => rw [← List.map_id channels]
      exact List.map_congr_left fun channel hmem => (stored?_eq_some (hall channel hmem)).2
    have hperm :=
      readBack_perm hindex (fun channel hmem => (stored?_eq_some (hall channel hmem)).1) hnodup
    rw [hmap] at hperm
    refine List.Perm.eq_of_pairwise (fun a b _ _ hab hba => ?_) pairwise_readBack hsorted hperm
    exact absurd (hab.trans hba) (lt_irrefl _)

/-- What has been decoded can be encoded. -/
theorem encodes_of_decoded (hdecode : decodeAllChannels image = .ok plan) (fresh : MemoryImage) :
    ∃ image', encodeAllChannels plan fresh = .ok image' := by
  obtain ⟨hplan, -⟩ := decodeAllChannels_eq_ok hdecode
  refine (encodeAllChannels_ok_iff fun channel hmem => (hplan channel hmem).1).mpr
    fun channel hmem => ?_
  obtain ⟨hrx, htx⟩ := (hplan channel hmem).2.encodable
  exact ⟨hrx.aligned, fun txHz h => (htx txHz h).aligned⟩

theorem decodeAllChannels_reencoded_iff {fresh : MemoryImage}
    (hdecode : decodeAllChannels image = .ok plan) (hfresh : 0x1800 ≤ fresh.length)
    (hencode : encodeAllChannels plan fresh = .ok image') :
    decodeAllChannels image' = .ok plan ↔
      ∀ channel ∈ plan.channels,
        channel.rxFreq ≠ 0 ∧ channel.txFreq ≠ some 0 ∧ KeptName channel.name := by
  obtain ⟨hplan, hsorted⟩ := decodeAllChannels_eq_ok hdecode
  have hread : decodeAllChannels image' = .ok plan ↔ readBack plan.channels = plan.channels := by
    rw [decodeAllChannels_encodeAllChannels hfresh
      (fun channel hmem => (hplan channel hmem).2.encodable) hencode]
    cases plan
    simp
  rw [hread, readBack_eq_self_iff (fun channel hmem => (hplan channel hmem).1) hsorted]
  exact forall₂_congr fun channel hmem => stored?_eq_self_iff (hplan channel hmem).2

/-- **The slots of an image against its channels**: what holds of erased slots and says of a
used one what `Q` says of its channel. -/
theorem forall_slots_iff (hdecode : decodeAllChannels image = .ok plan) {P : Bytes × Bytes → Prop}
    {Q : Channel → Prop} (herased : ∀ slot : Bytes × Bytes, slot.1.getD 0 0 = 0xFF → P slot)
    (hused : ∀ i (slot : Bytes × Bytes) channel,
      decodeSlot i slot.1 (slot.2.take nameLength) = .ok (some channel) → (P slot ↔ Q channel)) :
    (∀ i < channelCount, P (slotOf image i)) ↔ ∀ channel ∈ plan.channels, Q channel := by
  obtain ⟨channels, hchannels, rfl⟩ := map_eq_ok.mp hdecode
  obtain ⟨hall, rfl⟩ := decodeEach_eq_ok hchannels
  have hslot : ∀ i ∈ List.range channelCount,
      P (slotOf image i) ↔ ∀ channel ∈ channelAt image i, Q channel := by
    intro i hi
    have hread := hall i hi
    rw [decodeChannel_eq] at hread
    cases hchannel : channelAt image i with
    | none =>
        rw [hchannel] at hread
        exact iff_of_true (herased _ (erased_of_decodeSlot hread)) (by simp)
    | some channel =>
        rw [hchannel] at hread
        simp [hused i _ channel hread]
  simp only [← List.mem_range, List.mem_filterMap]
  constructor
  · rintro h channel ⟨i, hi, hchannel⟩
    exact (hslot i hi).mp (h i hi) channel hchannel
  · intro h i hi
    exact (hslot i hi).mpr fun channel hchannel => h channel ⟨i, hi, hchannel⟩

theorem forall_slotSurvives_iff (hdecode : decodeAllChannels image = .ok plan) :
    (∀ i < channelCount, SlotSurvives (slotOf image i)) ↔
      ∀ channel ∈ plan.channels,
        channel.rxFreq ≠ 0 ∧ channel.txFreq ≠ some 0 ∧ KeptName channel.name :=
  forall_slots_iff hdecode (fun _ => .inl) fun _ _ _ => slotSurvives_iff

/-- **When an image survives the way through a plan**: encoding what has been decoded always
succeeds, and gives the same plan again unless a slot has zero bytes for a frequency or a name
that is not its own re-reading. -/
theorem image_round_trip_iff {fresh : MemoryImage} (hdecode : decodeAllChannels image = .ok plan)
    (hfresh : 0x1800 ≤ fresh.length) :
    ∃ image', encodeAllChannels plan fresh = .ok image' ∧
      (decodeAllChannels image' = .ok plan ↔
        ∀ i < channelCount, SlotSurvives (slotOf image i)) := by
  obtain ⟨image', hencode⟩ := encodes_of_decoded hdecode fresh
  refine ⟨image', hencode, ?_⟩
  rw [decodeAllChannels_reencoded_iff hdecode hfresh hencode, forall_slotSurvives_iff hdecode]

/-! ## An image with one channel -/

theorem slotOf_new {i : Nat} (hi : i < channelCount) :
    slotOf (MemoryImage.new 0x1800) i = erasedSlot := by
  simp only [channelCount] at hi
  simp only [slotOf, MemoryImage.readBytes, MemoryImage.new, Memory.slice, List.drop_replicate,
    List.take_replicate, channelBase, channelStride, nameBase, nameStride, erasedSlot]
  rw [min_eq_left (by omega), min_eq_left (by omega)]

/-- An erased image with one channel in its first slot. -/
theorem decodeAllChannels_writeSlot {slot : Bytes × Bytes}
    (hslot : slot.1.length = 16 ∧ slot.2.length = 16)
    (h : decodeSlot 0 slot.1 (slot.2.take nameLength) = .ok (some channel)) :
    decodeAllChannels (writeSlot (MemoryImage.new 0x1800) 0 slot) = .ok ⟨[channel]⟩ := by
  have hdecode : ∀ i ∈ List.range channelCount,
      decodeChannel (writeSlot (MemoryImage.new 0x1800) 0 slot) i =
        .ok (if i = 0 then some channel else none) := by
    intro i hi
    have hi := List.mem_range.mp hi
    rw [decodeChannel_eq, slotOf_writeSlot MemoryImage.le_length_new (by decide) hslot hi]
    by_cases hzero : i = 0
    · rw [if_pos hzero, if_pos hzero, hzero, h]
    · rw [if_neg hzero, if_neg hzero, slotOf_new hi]
      rfl
  have hrest :
      (List.range' 1 127).filterMap (fun i => if i = 0 then some channel else none) = [] := by
    refine List.filterMap_eq_nil_iff.mpr fun i hi => if_neg ?_
    have := (List.mem_range'_1.mp hi).1
    omega
  have hrange : List.range channelCount = 0 :: List.range' 1 127 := List.range_eq_range'
  have hfirst : (0 :: List.range' 1 127).filterMap (fun i => if i = 0 then some channel else none) =
      [channel] := by
    rw [List.filterMap_cons, hrest]
    rfl
  rw [decodeAllChannels, decodeEach_of_forall hdecode, hrange, hfirst]
  rfl

/-- The calling frequency under a name of four bytes. -/
def callingSlot (a b c d : UInt8) : Bytes × Bytes :=
  ([0x00, 0x20, 0x65, 0x14, 0xFF, 0xFF, 0xFF, 0xFF, 0, 0, 0, 0, 0, 0, 0, 0x44],
    [a, b, c, d] ++ List.replicate 12 0xFF)

def callingImage (a b c d : UInt8) : MemoryImage :=
  writeSlot (MemoryImage.new 0x1800) 0 (callingSlot a b c d)

def callingPlan (name : List Char) : FrequencyPlan := ⟨[{ sampleChannel with name := name }]⟩

theorem callingImage_ascii :
    decodeAllChannels (callingImage 0x43 0x41 0x46 0x45) = .ok (callingPlan ['C', 'A', 'F', 'E']) :=
  decodeAllChannels_writeSlot ⟨rfl, rfl⟩ rfl

theorem callingImage_latin1 :
    decodeAllChannels (callingImage 0x43 0x41 0x46 0xE9) =
      .ok (callingPlan ['C', 'A', 'F', '\u00E9']) :=
  decodeAllChannels_writeSlot ⟨rfl, rfl⟩ rfl

theorem image_round_trip_ascii : ∃ image',
    encodeAllChannels (callingPlan ['C', 'A', 'F', 'E']) (MemoryImage.new 0x1800) = .ok image' ∧
      decodeAllChannels image' = .ok (callingPlan ['C', 'A', 'F', 'E']) := by
  obtain ⟨image', hencode, hiff⟩ :=
    image_round_trip_iff callingImage_ascii MemoryImage.le_length_new
  refine ⟨image', hencode, hiff.mpr ((forall_slotSurvives_iff callingImage_ascii).mpr ?_)⟩
  simp [callingPlan, sampleChannel, KeptName, IsAscii]

/-- A name that ends in the Latin-1 byte of an accented letter comes back as another one. -/
theorem latin1_name_lost :
    decodeAllChannels (callingImage 0x43 0x41 0x46 0xE9) =
      .ok (callingPlan ['C', 'A', 'F', '\u00E9']) ∧
      ¬ ∃ image',
          encodeAllChannels (callingPlan ['C', 'A', 'F', '\u00E9']) (MemoryImage.new 0x1800) =
          .ok image' ∧
        decodeAllChannels image' = .ok (callingPlan ['C', 'A', 'F', '\u00E9']) := by
  refine ⟨callingImage_latin1, ?_⟩
  rintro ⟨image', hencode, hdecode⟩
  have hkept :=
    (decodeAllChannels_reencoded_iff callingImage_latin1 MemoryImage.le_length_new hencode).mp
      hdecode
  obtain ⟨-, -, hascii | ⟨front, -, hlen, heq⟩⟩ := hkept _ List.mem_cons_self
  · exact absurd (hascii '\u00E9' (by simp)) (by decide)
  · -- the echo fills the slot to its last byte
    have := congrArg List.length heq
    rw [List.length_append, List.length_take] at this
    simp only [nameLength, echo, List.length_cons, List.length_nil] at this hlen
    omega

end Akroasis.Radio
