import Akroasis.Chirp.CommandLine
import Akroasis.Radio.Reencode
import Akroasis.Radio.RoundTrip

/-!
# Akroasis.Chirp.Backup

A backup of a radio in a CHIRP file of the command line: the channels of an image are
written, read and encoded, and what the two tables then hold is compared with what they
hold when the channels are encoded directly.

The file has no column for the busy lock.  Apart from it everything is restored (`restored`)
but the transmit frequency of a simplex channel, which is written without duplex and read as
a channel that does not transmit: the radio no longer transmits there.  A simplex channel on
0 Hz is the exception, as the codec writes this frequency as none.  `cloned_by_csv` follows the file
into another radio and back out of it.
-/

namespace Akroasis.Chirp.CommandLine

open Csv Decimal Radio

variable {ch : Channel} {image base direct : MemoryImage} {plan : FrequencyPlan} {csv : Library}

/-! ## One channel -/

/-- A channel of a radio after it has been written and read. -/
def restored (ch : Channel) : Channel :=
  { ch with txFreq := if ch.offset = .none then none else ch.txFreq, busyLock := false }

/-- The duplex and offset cells of a channel of a radio give the offset back, and the transmit
frequency with it unless there is no offset. -/
theorem parseOffset_chirpDuplexOffset (h : ch.Decoded) (line : Nat) :
    parseOffset line (chirpDuplexOffset ch).1 (min (2 ^ 64 - 1) ch.rxFreq)
        (min (2 ^ 64 - 1) (chirpDuplexOffset ch).2) =
      .ok (ch.offset, if ch.offset = .none then none else ch.txFreq) := by
  have hrx : ch.rxFreq < 1000000000 := h.encodable.rx.lt
  have hmin {hz : Nat} (hlt : hz < 1000000000) : min (2 ^ 64 - 1) hz = hz := by omega
  have hoffset := h.offset
  rw [chirpDuplexOffset, hmin hrx]
  cases htx : ch.txFreq with
  | none =>
      rw [htx] at hoffset
      simp [hoffset, parseOffset]
  | some txHz =>
      have htxHz : txHz < 1000000000 := (h.encodable.tx txHz htx).lt
      rw [htx, Option.elim_some, offsetBetween] at hoffset
      by_cases heq : txHz = ch.rxFreq
      · rw [if_pos heq] at hoffset
        simp [hoffset, parseOffset]
      · by_cases hgt : txHz > ch.rxFreq
        · have hsum : ch.rxFreq + (txHz - ch.rxFreq) = txHz :=
            Nat.add_sub_cancel' (Nat.le_of_lt hgt)
          have hfits : txHz < 2 ^ 64 := htxHz.trans (by decide)
          rw [if_neg heq, if_pos hgt] at hoffset
          simp only [hoffset, hmin (Nat.lt_of_le_of_lt (Nat.sub_le txHz ch.rxFreq) htxHz),
            parseOffset, if_true, hsum, if_pos hfits]
          rfl
        · have hdiff : ch.rxFreq - (ch.rxFreq - txHz) = txHz :=
            Nat.sub_sub_self (Nat.le_of_not_lt hgt)
          rw [if_neg heq, if_neg hgt] at hoffset
          simp only [hoffset, hmin (Nat.lt_of_le_of_lt (Nat.sub_le ch.rxFreq txHz) hrx),
            parseOffset_minus, if_pos (Nat.sub_le ch.rxFreq txHz), hdiff]
          rfl

theorem not_breaksLine_of_isPrintable {name : Text} (h : IsPrintable name) : ¬ BreaksLine name := by
  intro hbreaks
  exact absurd (h _ hbreaks.cr).1 (by decide)

/-- **A channel of a radio is read back** as `restored` says. -/
theorem reads_restored (h : ch.Decoded) (hindex : ch.index < channelCount) :
    Reads ((recordOf chirpRest ch).map trim) (restored ch) := by
  have hrow : (recordOf chirpRest ch).map trim = recordOf chirpRest ch := by
    rw [recordOf, List.map_cons, List.map_cons, (isPlain_toDigits _).trim, h.trimmed,
      map_trim_of_isPlain (isPlain_chirpRest ch)]
  rw [hrow]
  refine ⟨⟨_, List.mem_cons_self, Nat.toDigits_ne_nil⟩, fun line => ?_⟩
  have hrx : min (2 ^ 64 - 1) ch.rxFreq = ch.rxFreq := by
    have hlt : ch.rxFreq < 1000000000 := h.encodable.rx.lt
    exact Nat.min_eq_right (hlt.le.trans (by decide))
  rw [recordOf_chirpRest, parseRow_frontCells line _ _ _ _ _ (hindex.trans (by decide))
    (by simp [chirpTail]) (.inl rfl), parseOffset_chirpDuplexOffset h, hrx, Except.map,
    rowChannel_chirpTail,
    writtenTone_of_exact h.tone]
  rfl

/-- The channels of a radio with printable names are read back from their file. -/
theorem parseChirpCsv_exportChirpCsv (hcsv : csv.Lawful)
    (hplan : ∀ ch ∈ plan.channels, ch.index < channelCount ∧ ch.Decoded)
    (hnames : ∀ ch ∈ plan.channels, IsPrintable ch.name) :
    parseChirpCsv csv (exportChirpCsv plan) = .ok ⟨plan.channels.map restored⟩ := by
  have htext := exportChirpCsv_encodes fun ch hch => not_breaksLine_of_isPrintable (hnames ch hch)
  apply parseChirpCsv_of_reads hcsv htext (by decide)
  rw [List.forall₂_map_left_iff, List.forall₂_map_right_iff, List.forall₂_same]
  exact fun ch hch => reads_restored (hplan ch hch).2 (hplan ch hch).1

/-! ## The slots of a channel and of what is restored -/

/-- The bytes of a slot with the bit of the busy lock cleared. -/
def withoutBusyLock (slot : Bytes × Bytes) : Bytes × Bytes :=
  (slot.1.modify 15 (· &&& 0xF7), slot.2)

/-- A channel that transmits on its receive frequency. -/
structure Simplex (ch : Channel) : Prop where
  tx : ch.txFreq = some ch.rxFreq
  pos : ch.rxFreq ≠ 0

theorem withoutBusyLock_channelBytes (ch : Channel) (rx tx : FixedBytes 4) (name : Bytes) :
    withoutBusyLock (channelBytes ch rx tx, name) =
      (rx.val ++ (tx.val ++ (leBytes 2 (encodeTone ch.tone) ++ leBytes 2 (encodeTone ch.tone) ++
        [0, 0, powerToBits ch.power, flagBits { ch with busyLock := false }])), name) := by
  have hclear (bandwidth : Bandwidth) (scan : ScanMode) (busyLock : Bool) :
      ((if bandwidth = .wide then 0x40 else 0) ||| (if scan = .included then 0x04 else 0) |||
          (if busyLock then 0x08 else 0)) &&& 0xF7 =
        (if bandwidth = .wide then 0x40 else (0 : UInt8)) |||
          (if scan = .included then 0x04 else 0) |||
          (if false then 0x08 else 0) := by
    cases bandwidth <;> cases scan <;> cases busyLock <;> decide
  have hflags : flagBits ch &&& 0xF7 = flagBits { ch with busyLock := false } :=
    hclear ch.bandwidth ch.scan ch.busyLock
  obtain ⟨a, b, c, d, hrx⟩ := exists_four rx
  obtain ⟨e, f, g, h, htx⟩ := exists_four tx
  rw [withoutBusyLock, channelBytes, hrx, htx, ← hflags]
  rfl

/-- Only the transmit bytes can differ. -/
theorem withoutBusyLock_eq_iff {rx tx tx' : FixedBytes 4} :
    withoutBusyLock (channelBytes ch rx tx, nameData ch) =
      withoutBusyLock (channelBytes (restored ch) rx tx', nameData (restored ch)) ↔ tx = tx' := by
  have hname : nameData (restored ch) = nameData ch := rfl
  have hflags : flagBits { restored ch with busyLock := false } =
      flagBits { ch with busyLock := false } := rfl
  rw [withoutBusyLock_channelBytes, withoutBusyLock_channelBytes, hname, hflags, Prod.mk.injEq,
    and_iff_left rfl, List.append_cancel_left_eq, FixedBytes.ext_iff]
  exact List.append_left_inj _

/-- The transmit bytes differ for simplex channels, 0 Hz apart. -/
theorem encodeTx_restored (h : ch.Decoded) {index : Nat} {tx tx' : FixedBytes 4}
    (htx : encodeTx index ch.txFreq = .ok tx)
    (htx' : encodeTx index (restored ch).txFreq = .ok tx') :
    tx = tx' ↔ ¬ Simplex ch := by
  have hoffset := h.offset
  have hrestored : (restored ch).txFreq = if ch.offset = .none then none else ch.txFreq := rfl
  rw [hrestored] at htx'
  cases hfreq : ch.txFreq with
  | none =>
      rw [hfreq] at htx htx'
      rw [ite_self] at htx'
      exact iff_of_true (Except.ok.inj (htx.symm.trans htx'))
        fun hsimplex => by simpa [hfreq] using hsimplex.tx
  | some txHz =>
      rw [hfreq] at htx htx' hoffset
      rw [Option.elim_some, offsetBetween] at hoffset
      by_cases heq : txHz = ch.rxFreq
      · rw [if_pos heq] at hoffset
        rw [if_pos hoffset] at htx'
        obtain rfl : noFrequency = tx' := Except.ok.inj htx'
        have hencode : lbcd4Encode ch.rxFreq = .ok tx := heq ▸ mapError_eq_ok.mp htx
        constructor
        · rintro rfl hsimplex
          exact (lbcd4Decode_lbcd4Encode h.encodable.rx hsimplex.pos hencode).2 rfl
        · intro hsimplex
          have hzero : ch.rxFreq = 0 := not_not.mp fun hpos => hsimplex ⟨heq ▸ hfreq, hpos⟩
          rw [hzero] at hencode
          exact (Except.ok.inj hencode).symm
      · have hne : ch.offset ≠ .none := by
          rw [hoffset, if_neg heq]
          split <;> simp
        rw [if_neg hne] at htx'
        refine iff_of_true (Except.ok.inj (htx.symm.trans htx')) fun hsimplex => heq ?_
        exact Option.some.inj (hfreq.symm.trans hsimplex.tx)

/-- **A slot is restored** unless its channel is simplex. -/
theorem withoutBusyLock_encodeSlot (h : ch.Decoded) {index : Nat} {slot slot' : Bytes × Bytes}
    (hslot : encodeSlot ch index = .ok slot) (hslot' : encodeSlot (restored ch) index = .ok slot') :
    withoutBusyLock slot = withoutBusyLock slot' ↔ ¬ Simplex ch := by
  obtain ⟨rx, tx, hrx, htx, rfl⟩ := encodeSlot_eq_ok.mp hslot
  obtain ⟨rx', tx', hrx', htx', rfl⟩ := encodeSlot_eq_ok.mp hslot'
  obtain rfl : rx = rx' := Except.ok.inj (hrx.symm.trans hrx')
  rw [withoutBusyLock_eq_iff, encodeTx_restored h htx htx']

/-! ## Whole images -/

/-- A backup of a plan restores the two tables, the busy lock apart: the file is read, both plans
are encoded, and every slot holds the same. -/
def BackupRestores (csv : Library) (plan : FrequencyPlan) (base : MemoryImage) : Prop :=
  ∃ plan' direct copy, parseChirpCsv csv (exportChirpCsv plan) = .ok plan' ∧
    encodeAllChannels plan base = .ok direct ∧ encodeAllChannels plan' base = .ok copy ∧
    ∀ i < channelCount, withoutBusyLock (slotOf direct i) = withoutBusyLock (slotOf copy i)

theorem lastAt_map_restored (channels : List Channel) (i : Nat) :
    lastAt (channels.map restored) i = (lastAt channels i).map restored := by
  rw [lastAt, ← List.map_reverse, List.find?_map]
  rfl

/-- What has been read back of a radio's channels can be encoded. -/
theorem encodes_restored (hplan : ∀ ch ∈ plan.channels, ch.index < channelCount ∧ ch.Decoded)
    (base : MemoryImage) :
    ∃ copy, encodeAllChannels ⟨plan.channels.map restored⟩ base = .ok copy := by
  rw [encodeAllChannels_ok_iff]
  · rw [List.forall_mem_map]
    intro ch hch
    obtain ⟨hrx, htx⟩ := (hplan ch hch).2.encodable
    refine ⟨hrx.aligned, fun txHz hmem => (htx txHz ?_).aligned⟩
    exact (Option.mem_ite_none_left.mp hmem).2
  · rw [List.forall_mem_map]
    exact fun ch hch => (hplan ch hch).1

/-- A backup restores the tables if and only if no channel is simplex. -/
theorem backupRestores_iff (hcsv : csv.Lawful) (hdecode : decodeAllChannels image = .ok plan)
    (hnames : ∀ ch ∈ plan.channels, IsPrintable ch.name) (hbase : 0x1800 ≤ base.length) :
    BackupRestores csv plan base ↔ ∀ ch ∈ plan.channels, ¬ Simplex ch := by
  obtain ⟨hplan, hsorted⟩ := decodeAllChannels_eq_ok hdecode
  have hparse := parseChirpCsv_exportChirpCsv hcsv hplan hnames
  obtain ⟨direct, hdirect⟩ := encodes_of_decoded hdecode base
  obtain ⟨copy, hcopy⟩ := encodes_restored hplan base
  have hnodup : (plan.channels.map Channel.index).Nodup :=
    List.pairwise_map.mpr (hsorted.imp fun hlt => hlt.ne)
  -- an unused slot is erased in both images
  have hunused {i : Nat} (hi : i < channelCount) (hlast : lastAt plan.channels i = none) :
      slotOf direct i = slotOf copy i := by
    have hcopied : lastAt (plan.channels.map restored) i = none := by
      rw [lastAt_map_restored, hlast, Option.map_none]
    rw [(slotOf_encodeAllChannels hbase hi hdirect).2 hlast,
      (slotOf_encodeAllChannels hbase hi hcopy).2 hcopied]
  have hused {ch : Channel} (hch : ch ∈ plan.channels) :
      withoutBusyLock (slotOf direct ch.index) = withoutBusyLock (slotOf copy ch.index) ↔
        ¬ Simplex ch := by
    obtain ⟨hi, hdecoded⟩ := hplan ch hch
    have hlast := lastAt_of_mem hnodup hch
    have hcopied : lastAt (plan.channels.map restored) ch.index = some (restored ch) := by
      rw [lastAt_map_restored, hlast, Option.map_some]
    exact withoutBusyLock_encodeSlot hdecoded
      ((slotOf_encodeAllChannels hbase hi hdirect).1 ch hlast)
      ((slotOf_encodeAllChannels hbase hi hcopy).1 (restored ch) hcopied)
  have hsame : BackupRestores csv plan base ↔
      ∀ i < channelCount, withoutBusyLock (slotOf direct i) = withoutBusyLock (slotOf copy i) := by
    constructor
    · rintro ⟨plan', direct', copy', hplan', hdirect', hcopy', hslots⟩
      obtain rfl := Except.ok.inj (hparse.symm.trans hplan')
      obtain rfl := Except.ok.inj (hdirect.symm.trans hdirect')
      obtain rfl := Except.ok.inj (hcopy.symm.trans hcopy')
      exact hslots
    · exact fun hslots => ⟨_, direct, copy, hparse, hdirect, hcopy, hslots⟩
  rw [hsame]
  constructor
  · exact fun h ch hch => (hused hch).mp (h ch.index (hplan ch hch).1)
  · intro h i hi
    cases hlast : lastAt plan.channels i with
    | none => rw [hunused hi hlast]
    | some ch =>
        obtain ⟨hch, rfl⟩ := lastAt_eq_some hlast
        exact (hused hch).mpr (h ch hch)

/-- A used slot with the same transmit bytes as receive bytes, other than zero. -/
structure SimplexSlot (slot : Bytes × Bytes) : Prop where
  used : slot.1.getD 0 0 ≠ 0xFF
  same : FixedBytes.slice 4 4 slot.1 = FixedBytes.slice 4 0 slot.1
  pos : FixedBytes.slice 4 0 slot.1 ≠ .replicate 4 0

theorem simplexSlot_iff {index : Nat} {slot : Bytes × Bytes}
    (h : decodeSlot index slot.1 (slot.2.take nameLength) = .ok (some ch)) :
    SimplexSlot slot ↔ Simplex ch := by
  have hread := readFrom_of_decodeSlot h
  have hne := ne_noFrequency_of_used hread.used
  have hpos := eq_zero_iff_of_lbcd4Decode hread.rx hne
  obtain ⟨hbytes, heq⟩ | ⟨txHz, hbytes, htxHz, heq⟩ := decodeTx_eq_ok.mp hread.tx
  · -- a channel that does not transmit
    obtain ⟨htx, -⟩ := Prod.mk.inj heq
    refine iff_of_false (fun hsimplex => hne ?_) fun hsimplex => ?_
    · rw [← hsimplex.same, hbytes]
    · simpa [htx] using hsimplex.tx
  · obtain ⟨htx, -⟩ := Prod.mk.inj heq
    constructor
    · rintro ⟨-, hsame, hzero⟩
      refine ⟨?_, fun hrx => hzero (hpos.mp hrx)⟩
      rw [hsame] at htxHz
      rw [htx, Except.ok.inj (htxHz.symm.trans hread.rx)]
    · rintro ⟨hsame, hzero⟩
      refine ⟨hread.used, ?_, fun hrx => hzero (hpos.mpr hrx)⟩
      obtain rfl : txHz = ch.rxFreq := Option.some.inj (htx.symm.trans hsame)
      exact lbcd4Decode_inj hbytes hne htxHz hread.rx

theorem forall_not_simplexSlot_iff (hdecode : decodeAllChannels image = .ok plan) :
    (∀ i < channelCount, ¬ SimplexSlot (slotOf image i)) ↔ ∀ ch ∈ plan.channels, ¬ Simplex ch := by
  have herased (slot : Bytes × Bytes) (herased : slot.1.getD 0 0 = 0xFF) : ¬ SimplexSlot slot :=
    fun hsimplex => hsimplex.used herased
  exact forall_slots_iff hdecode herased fun _ _ _ hslot => not_congr (simplexSlot_iff hslot)

/-- **What a backup in a CHIRP file restores**: both tables but for the busy lock, for every image
of a radio with printable names, if and only if no slot in use has the same bytes for the transmit
frequency as for the receive frequency. -/
theorem csv_backup_iff (hcsv : csv.Lawful) (hdecode : decodeAllChannels image = .ok plan)
    (hnames : ∀ ch ∈ plan.channels, IsPrintable ch.name) (hbase : 0x1800 ≤ base.length) :
    BackupRestores csv plan base ↔ ∀ i < channelCount, ¬ SimplexSlot (slotOf image i) := by
  rw [backupRestores_iff hcsv hdecode hnames hbase, forall_not_simplexSlot_iff hdecode]

/-! ## A repeater and a simplex channel -/

/-- A slot for 146.52 MHz with the name `CALL`. -/
def callSlot (transmit : Bytes) : Bytes × Bytes :=
  ([0x00, 0x20, 0x65, 0x14] ++ transmit ++ [0, 0, 0, 0, 0, 0, 0, 0x44],
    [0x43, 0x41, 0x4C, 0x4C] ++ List.replicate 12 0xFF)

def callImage (transmit : Bytes) : MemoryImage :=
  writeSlot (MemoryImage.new 0x1800) 0 (callSlot transmit)

theorem csv_backup_repeater :
    decodeAllChannels (callImage [0x00, 0x20, 0x71, 0x14]) = .ok ⟨[plusChannel]⟩ ∧
      BackupRestores plain ⟨[plusChannel]⟩ (MemoryImage.new 0x1800) := by
  have hdecode : decodeAllChannels (callImage [0x00, 0x20, 0x71, 0x14]) = .ok ⟨[plusChannel]⟩ :=
    decodeAllChannels_writeSlot ⟨rfl, rfl⟩ rfl
  have hnames : ∀ ch ∈ [plusChannel], IsPrintable ch.name := by decide
  refine ⟨hdecode, (csv_backup_iff plain_lawful hdecode hnames MemoryImage.le_length_new).mpr ?_⟩
  rw [forall_not_simplexSlot_iff hdecode, List.forall_mem_singleton]
  exact fun hsimplex => absurd hsimplex.tx (by decide)

/-- A simplex channel comes back as one that does not transmit. -/
theorem simplex_not_restored :
    decodeAllChannels (callImage [0x00, 0x20, 0x65, 0x14]) = .ok ⟨[namedChannel "CALL".toList]⟩ ∧
      ¬ BackupRestores plain ⟨[namedChannel "CALL".toList]⟩ (MemoryImage.new 0x1800) := by
  have hdecode : decodeAllChannels (callImage [0x00, 0x20, 0x65, 0x14]) =
      .ok ⟨[namedChannel "CALL".toList]⟩ := decodeAllChannels_writeSlot ⟨rfl, rfl⟩ rfl
  have hnames : ∀ ch ∈ [namedChannel "CALL".toList], IsPrintable ch.name := by decide
  refine ⟨hdecode, ?_⟩
  rw [backupRestores_iff plain_lawful hdecode hnames MemoryImage.le_length_new,
    List.forall_mem_singleton, not_not]
  exact ⟨rfl, by decide⟩

/-! ## Another radio -/

open Driver (exec)

/-- What is restored could itself have come from a radio. -/
theorem decoded_restored (h : ch.Decoded) : (restored ch).Decoded where
  encodable :=
    ⟨h.encodable.rx, fun txHz hmem => h.encodable.tx txHz (Option.mem_ite_none_left.mp hmem).2⟩
  offset := by
    by_cases hnone : ch.offset = .none
    · rw [restored, if_pos hnone]
      exact hnone
    · rw [restored, if_neg hnone]
      exact h.offset
  tone := h.tone
  trimmed := h.trimmed
  short := h.short
  chars := h.chars

/-- **A radio cloned through a file**: the channels of an image, written to a file and read from it,
can be encoded, and whatever radio they are uploaded to gives back each of them as `restored` says,
and no other. -/
theorem cloned_by_csv (hcsv : csv.Lawful) (hdecode : decodeAllChannels image = .ok plan)
    (hnames : ∀ ch ∈ plan.channels, IsPrintable ch.name)
    (hfreqs : ∀ ch ∈ plan.channels, ch.rxFreq ≠ 0 ∧ ch.txFreq ≠ some 0) :
    ∃ plan' copy, parseChirpCsv csv (exportChirpCsv plan) = .ok plan' ∧
      Session.encodeChannels plan'.channels = .ok copy ∧
      ∀ (variant : RadioVariant) (memory : Memory) (treatments : List Treatment) (after : Device),
        (Device.opened memory treatments).Honest →
        exec (Session.uploadImage Device.line variant.config copy) (.opened memory treatments) =
          (.ok ⟨⟩, after) →
        ∃ readback, exec (Session.downloadImage Device.line variant.config) after =
          (.ok readback, after) ∧
          decodeAllChannels readback = .ok ⟨plan.channels.map restored⟩ := by
  obtain ⟨hplan, hsorted⟩ := decodeAllChannels_eq_ok hdecode
  obtain ⟨copy, hcopy⟩ := encodes_restored hplan (MemoryImage.new Session.imageSize)
  have hencode : Session.encodeChannels (plan.channels.map restored) = .ok copy :=
    mapError_eq_ok.mpr hcopy
  refine ⟨_, copy, parseChirpCsv_exportChirpCsv hcsv hplan hnames, hencode,
    fun variant memory treatments after hhonest hupload => ?_⟩
  obtain ⟨readback, hdownload, hread⟩ :=
    decodeAllChannels_downloaded variant hhonest hencode hupload
  refine ⟨readback, hdownload, hread.trans ?_⟩
  have hencodable : ∀ ch ∈ plan.channels.map restored, ch.Encodable :=
    List.forall_mem_map.mpr fun ch hch => (decoded_restored (hplan ch hch).2).encodable
  rw [decodeAllChannels_encodeChannels hencodable hencode]
  have hsorted' : (plan.channels.map restored).Pairwise fun a b => a.index < b.index :=
    List.pairwise_map.mpr hsorted
  -- nothing is lost a second time
  congr 2
  refine (readBack_eq_self_iff ?_ hsorted').mpr ?_
  · exact List.forall_mem_map.mpr fun ch hch => (hplan ch hch).1
  · refine List.forall_mem_map.mpr fun ch hch =>
      (stored?_eq_self_iff (decoded_restored (hplan ch hch).2)).mpr
      ⟨(hfreqs ch hch).1, fun htx => (hfreqs ch hch).2 (Option.mem_ite_none_left.mp htx).2, ?_⟩
    exact .inl (hnames ch hch).isAscii

/-- The channel of a repeater on another radio. -/
theorem cloned_by_csv_repeater :
    ∃ plan' copy, parseChirpCsv plain (exportChirpCsv ⟨[plusChannel]⟩) = .ok plan' ∧
    Session.encodeChannels plan'.channels = .ok copy ∧
    ∀ memory after, exec (Session.uploadImage Device.line uv5rConfig copy) (.opened memory []) =
      (.ok ⟨⟩, after) →
      ∃ readback, exec (Session.downloadImage Device.line uv5rConfig) after =
        (.ok readback, after) ∧
        decodeAllChannels readback = .ok ⟨[restored plusChannel]⟩ := by
  have hdecode : decodeAllChannels (callImage [0x00, 0x20, 0x71, 0x14]) = .ok ⟨[plusChannel]⟩ :=
    decodeAllChannels_writeSlot ⟨rfl, rfl⟩ rfl
  obtain ⟨plan', copy, hparse, hencode, hread⟩ :=
    cloned_by_csv plain_lawful hdecode (by decide) (by decide)
  exact ⟨plan', copy, hparse, hencode,
    fun memory after => hread .uv5r memory [] after (opened_honest memory)⟩

end Akroasis.Chirp.CommandLine
