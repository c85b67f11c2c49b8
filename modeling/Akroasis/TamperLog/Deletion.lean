import Akroasis.TamperLog.RotateCrash

/-!
# Akroasis.TamperLog.Deletion

An adversary without the chain key who deletes files of a log or cuts them short
(`Tampered`), and what the segment walk still reports as intact.

A rotated segment passes only if its file is untouched and its seal still authenticates
(`walkSegments_tampered`), and a live file that holds an entry or a valid seal has to
continue the segments that are left.  What gets through is a live file without either
(`UnreportedLoss`): its seal deleted and its contents cut below the four bytes of a
length prefix, it passes as empty, whatever was in it and in the newest segments, if
these were deleted as well.
-/

namespace Akroasis.TamperLog

/-- Every file was deleted, cut to some length, or kept. -/
def Tampered (d d' : Directory) : Prop :=
  ∀ name, d'.lookup name = none ∨
    ∃ bytes k, d.lookup name = some bytes ∧ d'.lookup name = some (bytes.take k)

/-- The file is untouched and its seal still authenticates. -/
def Kept (E : Crates) (key : ChainKey) (d d' : Directory) (name : FileName) : Prop :=
  d'.lookup name = d.lookup name ∧ ∃ count start tip, readSeal E d' name key =
    .valid count start tip

/-- The strings that were hashed for the chain of `H`, and those a verifier hashes when it
tries to continue an earlier segment with the live file's first entry. -/
def hashedStrings (E : Crates) (key : ChainKey) (H : History E) : List Bytes :=
  genesisDomain ::
    ((HashChain.linked (linkHash E key) (genesisHash E key)
        ((H.segments.map Segment.payloads).flatten)).map fun p => p.1 ++ p.2.val) ++
      (H.live.payloads.take 1).flatMap fun p =>
        (List.range H.rotated.length).map fun m => p ++ (startAfter key (H.rotated.take m)).val

/-- The keyed hash does not collide on the strings of this history. -/
def NoCollision (E : Crates) (key : ChainKey) (H : History E) : Prop :=
  Set.InjOn (E.keyedHash key) { s | s ∈ hashedStrings E key H }

variable {E : Crates} {path : FileName} {key : ChainKey} {H : History E} {d d' : Directory}

/-! ## What is left of a segment file -/

/-- A cut file that still streams cleanly holds a number of whole frames: all of them only
if nothing was cut, none only if fewer than four bytes are left. -/
theorem stream_take (start : Hash) (entries offset k : Nat) {ps : List Bytes}
    (hlen : ∀ p ∈ ps, p.length ≤ maxEntryBytes)
    (h : (stream E key start entries offset ((encodeFrames E key start ps).take k)).breakStatus =
      none) :
    ∃ j ≤ ps.length, stream E key start entries offset ((encodeFrames E key start ps).take k) =
        ⟨entries + j, chainEnd E key start (ps.take j), none⟩ ∧
      (j = ps.length → (encodeFrames E key start ps).take k = encodeFrames E key start ps) ∧
      (j = 0 → ((encodeFrames E key start ps).take k).length < 4) := by
  induction ps generalizing start entries offset k with
  | nil => exact ⟨0, by simp, by simp [encodeFrames, stream_short], by simp [encodeFrames],
      by simp [encodeFrames]⟩
  | cons p ps ih =>
      have hp := hlen p List.mem_cons_self
      by_cases hk : (frame p (linkHash E key p start)).length ≤ k
      · -- the first frame is whole
        have htake : (encodeFrames E key start (p :: ps)).take k =
            frame p (linkHash E key p start) ++
              (encodeFrames E key (linkHash E key p start) ps).take
              (k - (frame p (linkHash E key p start)).length) := by
          rw [encodeFrames, List.take_append, List.take_of_length_le hk]
        rw [htake, stream_frame _ _ _ _ hp] at h ⊢
        obtain ⟨j, hj, hstream, hfull, -⟩ :=
          ih _ _ _ _ (fun q hq => hlen q (List.mem_cons_of_mem _ hq)) h
        refine ⟨j + 1, by simpa using hj, ?_, ?_, by omega⟩
        · rw [hstream, List.take_succ_cons, chainEnd_cons, Nat.add_assoc, Nat.add_comm 1 j]
        · intro hjn
          rw [hfull (by simpa using hjn), encodeFrames]
      · -- it is cut: nothing but a piece of its length prefix streams cleanly
        have htake : (encodeFrames E key start (p :: ps)).take k =
            (frame p (linkHash E key p start)).take k := by
          rw [encodeFrames, List.take_append_of_le_length (by omega)]
        rw [htake] at h ⊢
        by_cases h4 : 4 ≤ k
        · rw [stream_eq] at h
          obtain hr | hr :=
              readFrame_take hp (linkHash E key p start) h4 (Nat.lt_of_not_le hk) <;>
            simp [hr] at h
        · have hshort : ((frame p (linkHash E key p start)).take k).length < 4 := by
            rw [List.length_take]; omega
          exact ⟨0, by simp, by rw [stream_short _ _ _ hshort]; simp, by simp, fun _ => hshort⟩

/-! ## What is left of a seal -/

/-- A seal that authenticates carries the count and the start that stand in its first
forty bytes. -/
theorem readSealBytes_fields {count c : Nat} {start s : Hash} {rest : Bytes}
    {t : Option TipProvenance} (hcount : count < 2 ^ 64)
    (h : readSealBytes E (leBytes 8 count ++ (start.val ++ rest)) key = .valid c s t) :
    c = count ∧ s = start := by
  have hc : ofLeBytes ((leBytes 8 count ++ (start.val ++ rest)).take 8) = count :=
    count_of_head hcount _
  have hs : FixedBytes.slice 32 8 (leBytes 8 count ++ (start.val ++ rest)) = start :=
    FixedBytes.slice_append _ _ _ (length_leBytes 8 count)
  unfold readSealBytes at h
  split at h
  · simp only [readUnsignedSeal, hc, hs] at h
    split at h
    · simp only [SealState.valid.injEq] at h
      exact ⟨h.1.symm, h.2.1.symm⟩
    · cases h
  · split at h
    · simp only [readSignedSeal, hc, hs] at h
      split at h
      · simp only [SealState.valid.injEq] at h
        exact ⟨h.1.symm, h.2.1.symm⟩
      · cases h
    · cases h

/-- Cutting a seal never changes what it authenticates. -/
theorem readSealBytes_take {count c k : Nat} {start s : Hash} {tip t : Option TipProvenance}
    (hcount : count < 2 ^ 64)
    (h : readSealBytes E ((sealBytes E key count start tip).take k) key = .valid c s t) :
    c = count ∧ s = start := by
  obtain ⟨rest, hrest⟩ : ∃ rest, sealBytes E key count start tip =
      leBytes 8 count ++ (start.val ++ rest) := by
    cases tip with
    | none => exact ⟨_, rfl⟩
    | some tip => exact ⟨_, rfl⟩
  rw [hrest] at h
  have hk : 40 ≤ k := by
    by_contra hlt
    have hlen : ((leBytes 8 count ++ (start.val ++ rest)).take k).length < 72 := by
      rw [List.length_take]; omega
    rw [readSealBytes, if_neg (by simp only [sealFileLen]; omega),
      if_neg (by simp only [signedSealFileLen]; omega)] at h
    cases h
  have htake : (leBytes 8 count ++ (start.val ++ rest)).take k =
      leBytes 8 count ++ (start.val ++ rest.take (k - 8 - 32)) := by
    rw [List.take_append, List.take_of_length_le (by simp; omega), length_leBytes,
      List.take_append, List.take_of_length_le (by simp; omega), FixedBytes.length_val]
  rw [htake] at h
  exact readSealBytes_fields hcount h

/-! ## Rotated segments -/

section

variable {name : FileName} {start : Hash} {seg : Segment E}

/-- Whatever is left of a segment's seal claims the segment's own count and start. -/
theorem SegmentFile.readSeal_tampered (h : SegmentFile d key name start seg) (ht : Tampered d d')
    {c : Nat} {s : Hash} {t : Option TipProvenance}
    (hv : TamperLog.readSeal E d' name key = .valid c s t) :
    c = seg.records.length ∧ s = start := by
  obtain ⟨tip, htip⟩ := h.sealed
  rw [TamperLog.readSeal] at hv
  rcases ht (sealPath name) with hnone | ⟨bytes, k, hbytes, hcut⟩
  · rw [hnone] at hv; cases hv
  · rw [htip] at hbytes
    obtain rfl := Option.some.inj hbytes
    rw [hcut] at hv
    exact readSealBytes_take h.count_lt hv

/-- A kept segment streams as it did and is acceptable. -/
theorem SegmentFile.of_kept (h : SegmentFile d key name start seg) (hne : seg.records ≠ [])
    (ht : Tampered d d') (hkept : Kept E key d d' name) :
    TamperLog.streamVerify E d' name key start =
        .ok ⟨seg.records.length, chainEnd E key start seg.payloads, none⟩ ∧
      segmentOk (segmentStatus ⟨seg.records.length, chainEnd E key start seg.payloads, none⟩
        (TamperLog.readSeal E d' name key)) false = true := by
  obtain ⟨hfile, count, start', tip, hvalid⟩ := hkept
  obtain ⟨rfl, rfl⟩ := h.readSeal_tampered ht hvalid
  have hlen : seg.records.length ≠ 0 := fun h0 => hne (List.eq_nil_of_length_eq_zero h0)
  constructor
  · have := h.streamVerify
    rwa [TamperLog.streamVerify, ← hfile] at this
  · simp only [segmentStatus, hvalid, Option.getD_none, classifyTerminal_exact, if_neg hlen,
      segmentOk]

/-- A segment that is acceptable was kept. -/
theorem SegmentFile.kept (h : SegmentFile d key name start seg) (ht : Tampered d d')
    {s : StreamResult} (hs : TamperLog.streamVerify E d' name key start = .ok s)
    (hok : segmentOk (segmentStatus s (TamperLog.readSeal E d' name key)) false = true) :
    Kept E key d d' name := by
  rw [TamperLog.streamVerify] at hs
  rcases ht name with hnone | ⟨bytes, k, hbytes, hcut⟩
  · rw [hnone] at hs; cases hs
  · rw [h.contents] at hbytes
    obtain rfl := Option.some.inj hbytes
    simp only [hcut, Except.ok.injEq] at hs
    cases hbreak : s.breakStatus with
    | some status =>
        have hbad := segmentOk_of_break (hs ▸ hbreak) false
        rw [segmentStatus, hbreak, Option.getD_some, hbad] at hok
        contradiction
    | none =>
        obtain ⟨j, hj, hstream, hfull, -⟩ :=
          stream_take start 0 0 k seg.payloads_fit (hs ▸ hbreak)
        have hentries : s.entriesVerified = j := by rw [← hs, hstream]; simp
        rw [segmentStatus, hbreak, Option.getD_none, hentries] at hok
        -- only an intact status is left, and that takes a seal with the exact count
        cases hseal : TamperLog.readSeal E d' name key with
        | absent =>
            rw [hseal, classifyTerminal] at hok
            split at hok <;> simp [segmentOk] at hok
        | invalid =>
            rw [hseal, classifyTerminal] at hok
            split at hok <;> simp [segmentOk] at hok
        | valid count start' tip =>
            obtain ⟨rfl, rfl⟩ := h.readSeal_tampered ht hseal
            have hjn : j = seg.payloads.length := by
              rw [seg.length_payloads]
              rw [hseal, classifyTerminal] at hok
              grind [segmentOk]
            exact ⟨by rw [hcut, hfull hjn, h.contents], _, _, _, hseal⟩

end

/-- The walk over a run of tampered segments is intact exactly when all of them were kept
and the walk is intact from there on. -/
theorem walkSegments_tampered (ht : Tampered d d') (before segs : List (Segment E))
    (first total count : Nat) {t s : Nat} (hne : ∀ seg ∈ segs, seg.records ≠ [])
    (hfiles : ∀ i seg, segs[i]? = some seg →
      SegmentFile d key (rotationPath path (first + i))
        (startAfter key (before ++ segs.take i)) seg)
    (hcount : count + segs.length < 2 ^ 32) :
    walkSegments E d' path key (List.range' first segs.length) (startAfter key before) total count =
        .ok (.intact t s) ↔
      (∀ i < segs.length, Kept E key d d' (rotationPath path (first + i))) ∧
      verifyLive E d' path key (startAfter key (before ++ segs))
        (total + History.rotatedTotal segs) (count + segs.length) = .ok (.intact t s) := by
  induction segs generalizing before first total count with
  | nil => simp [History.rotatedTotal, walkSegments]
  | cons seg segs ih =>
      have hfile := hfiles 0 seg rfl
      rw [List.take_zero, List.append_nil, Nat.add_zero] at hfile
      have hmod : (count + 1) % 2 ^ 32 = count + 1 := by
        simp only [List.length_cons] at hcount
        exact Nat.mod_eq_of_lt (by omega)
      have hsplit : (∀ i < (seg :: segs).length, Kept E key d d' (rotationPath path (first + i))) ↔
          Kept E key d d' (rotationPath path first) ∧
            ∀ i < segs.length, Kept E key d d' (rotationPath path (first + 1 + i)) := by
        rw [List.length_cons, Nat.forall_lt_succ_left]
        simp only [Nat.add_zero, Nat.add_assoc, Nat.add_comm 1]
      have htotal : total + seg.records.length + History.rotatedTotal segs =
          total + History.rotatedTotal (seg :: segs) := by
        simp only [History.rotatedTotal, List.map_cons, List.sum_cons]
        omega
      have ih' := ih (before ++ [seg]) (first + 1) (total + seg.records.length) (count + 1)
        (fun x hx => hne x (List.mem_cons_of_mem _ hx)) (segmentFiles_tail hfiles)
        (by simp only [List.length_cons] at hcount; omega)
      rw [htotal, List.append_assoc, List.singleton_append, Nat.add_assoc count 1,
        Nat.add_comm 1 segs.length, startAfter_append_singleton] at ih'
      rw [hsplit, List.length_cons, List.range'_succ, walkSegments]
      constructor
      · intro hw
        cases hs : streamVerify E d' (rotationPath path first) key (startAfter key before) with
        | error e => rw [hs] at hw; cases hw
        | ok r =>
            simp only [hs] at hw
            by_cases hok : segmentOk (segmentStatus r
                (readSeal E d' (rotationPath path first) key)) false = true
            · have hkept := hfile.kept ht hs hok
              obtain ⟨hs', -⟩ := hfile.of_kept (hne seg List.mem_cons_self) ht hkept
              obtain rfl := Except.ok.inj (hs.symm.trans hs')
              rw [if_pos hok, hmod] at hw
              obtain ⟨hrest, hlive⟩ := ih'.mp hw
              exact ⟨⟨hkept, hrest⟩, hlive⟩
            · rw [if_neg hok] at hw; cases hw
      · rintro ⟨⟨hkept, hrest⟩, hlive⟩
        obtain ⟨hs, hok⟩ := hfile.of_kept (hne seg List.mem_cons_self) ht hkept
        rw [hs]
        simp only [hok, if_true, hmod]
        exact ih'.mpr ⟨hrest, hlive⟩

/-! ## What the chain rules out -/

theorem startAfter_eq_chainEnd (segs : List (Segment E)) :
    startAfter key segs =
      chainEnd E key (genesisHash E key) ((segs.map Segment.payloads).flatten) := by
  induction segs using List.reverseRecOn with
  | nil => rfl
  | append_singleton segs seg ih =>
      rw [startAfter_append_singleton, ih, List.map_append, List.flatten_append, chainEnd_append]
      simp

/-- Entries and the genesis string start with different bytes. -/
theorem Segment.ne_genesisDomain {seg : Segment E} {p : Bytes} (hp : p ∈ seg.payloads) (h : Hash) :
    p ++ h.val ≠ genesisDomain := by
  obtain ⟨r, -, rfl⟩ := List.mem_map.mp hp
  have hhead := E.head_toCbor r.entry r.payload r.encoded
  intro heq
  have hgenesis : (r.payload ++ h.val).head? = some 0x6B := by rw [heq]; decide +kernel
  rw [List.head?_append, hhead] at hgenesis
  simp at hgenesis

namespace NoCollision

/-- Linking does not collide along the chain of the history. -/
theorem injOn_linked (h : NoCollision E key H) :
    Set.InjOn (fun p : Bytes × Hash => linkHash E key p.1 p.2)
      { p | p ∈ HashChain.linked (linkHash E key) (genesisHash E key)
        ((H.segments.map Segment.payloads).flatten) } := by
  refine (injOn_linkHash h).mono fun p hp => ?_
  exact List.mem_append_left _ (List.mem_cons_of_mem _ (List.mem_map.mpr ⟨p, hp, rfl⟩))

/-- No entry links to the genesis hash. -/
theorem link_ne_genesis (h : NoCollision E key H) {p : Bytes × Hash}
    (hp : p ∈ HashChain.linked (linkHash E key) (genesisHash E key)
      ((H.segments.map Segment.payloads).flatten)) :
    linkHash E key p.1 p.2 ≠ genesisHash E key := by
  intro heq
  have hstring : p.1 ++ p.2.val ∈ hashedStrings E key H :=
    List.mem_append_left _ (List.mem_cons_of_mem _ (List.mem_map.mpr ⟨p, hp, rfl⟩))
  have hgenesis : genesisDomain ∈ hashedStrings E key H :=
    List.mem_append_left _ List.mem_cons_self
  obtain ⟨ps, hps, hmem⟩ := List.mem_flatten.mp (HashChain.fst_mem_of_mem_linked _ hp)
  obtain ⟨seg, -, rfl⟩ := List.mem_map.mp hps
  exact Segment.ne_genesisDomain hmem p.2 (h hstring hgenesis heq)

/-- The segments end at pairwise different hashes: the live file's start is not that of an
earlier segment. -/
theorem startAfter_ne (h : NoCollision E key H) {m : Nat} (hm : m < H.rotated.length) :
    startAfter key (H.rotated.take m) ≠ H.liveStart key := by
  have hsplit : (H.rotated.map Segment.payloads).flatten =
      ((H.rotated.take m).map Segment.payloads).flatten ++
        ((H.rotated.drop m).map Segment.payloads).flatten := by
    rw [← List.flatten_append, ← List.map_append, List.take_append_drop]
  have hne : ((H.rotated.drop m).map Segment.payloads).flatten ≠ [] := by
    intro hnil
    have hget : H.rotated[m] ∈ H.rotated.drop m := by
      rw [List.drop_eq_getElem_cons hm]; exact List.mem_cons_self
    have hempty := List.flatten_eq_nil_iff.mp hnil _ (List.mem_map.mpr ⟨_, hget, rfl⟩)
    refine H.rotated_ne_nil _ (List.getElem_mem hm) ?_
    simpa [Segment.payloads] using hempty
  rw [History.liveStart, startAfter_eq_chainEnd, startAfter_eq_chainEnd, hsplit]
  refine (HashChain.chain_append_ne (linkHash E key) h.injOn_linked
    (fun p hp => h.link_ne_genesis hp) ?_ hne).symm
  intro p hp
  change p ∈ HashChain.linked _ _ _
  rw [History.segments, List.map_append, List.flatten_append, hsplit, HashChain.linked_append]
  exact List.mem_append_left _ hp

/-- The live file's first entry does not continue an earlier segment. -/
theorem link_ne (h : NoCollision E key H) {m : Nat} (hm : m < H.rotated.length) {p : Bytes}
    {ps : List Bytes} (hlive : H.live.payloads = p :: ps) :
    linkHash E key p (startAfter key (H.rotated.take m)) ≠ linkHash E key p (H.liveStart key) := by
  intro heq
  have hearly : p ++ (startAfter key (H.rotated.take m)).val ∈ hashedStrings E key H := by
    refine List.mem_append_right _ ?_
    rw [hlive, List.take_succ_cons, List.take_zero, List.flatMap_singleton]
    exact List.mem_map.mpr ⟨m, List.mem_range.mpr hm, rfl⟩
  have htrue : p ++ (H.liveStart key).val ∈ hashedStrings E key H := by
    refine List.mem_append_left _ (List.mem_cons_of_mem _ (List.mem_map.mpr
      ⟨(p, H.liveStart key), ?_, rfl⟩))
    have hmem := HashChain.mem_linked (linkHash E key) (genesisHash E key)
      ((H.rotated.map Segment.payloads).flatten) ps p
    rw [History.liveStart, startAfter_eq_chainEnd]
    rw [History.segments, List.map_append, List.flatten_append]
    simpa [hlive, chainEnd] using hmem
  have hstrings := h hearly htrue heq
  exact h.startAfter_ne hm (FixedBytes.ext (List.append_cancel_left hstrings))

end NoCollision

/-! ## The live file -/

/-- A live file that streams cleanly from the end of an earlier segment holds no whole
entry. -/
theorem NoCollision.stream_live (h : NoCollision E key H) {m k entries offset : Nat}
    (hm : m < H.rotated.length)
    (hclean : (stream E key (startAfter key (H.rotated.take m)) entries offset
      ((encodeFrames E key (H.liveStart key) H.live.payloads).take k)).breakStatus = none) :
    ((encodeFrames E key (H.liveStart key) H.live.payloads).take k).length < 4 := by
  cases hlive : H.live.payloads with
  | nil => simp [encodeFrames]
  | cons p ps =>
      have hp : p.length ≤ maxEntryBytes := H.live.payloads_fit p (by rw [hlive]; simp)
      rw [hlive, stream_eq] at hclean
      by_cases hk : (frame p (linkHash E key p (H.liveStart key))).length ≤ k
      · -- a whole entry is linked to another hash
        have htake : (encodeFrames E key (H.liveStart key) (p :: ps)).take k =
            frame p (linkHash E key p (H.liveStart key)) ++
              (encodeFrames E key (linkHash E key p (H.liveStart key)) ps).take
                (k - (frame p (linkHash E key p (H.liveStart key))).length) := by
          rw [encodeFrames, List.take_append, List.take_of_length_le hk]
        rw [htake, readFrame_frame hp] at hclean
        simp only [if_pos (h.link_ne hm hlive)] at hclean
        cases hclean
      · have htake : (encodeFrames E key (H.liveStart key) (p :: ps)).take k =
            (frame p (linkHash E key p (H.liveStart key))).take k := by
          rw [encodeFrames, List.take_append_of_le_length (by omega)]
        rw [htake] at hclean ⊢
        by_contra h4
        rw [List.length_take] at h4
        rcases readFrame_take hp (linkHash E key p (H.liveStart key)) (k := k) (by omega)
          (Nat.lt_of_not_le hk) with hr | hr <;> simp [hr] at hclean

section

variable {m k total : Nat} {live : StreamResult}
  (hlive : stream E key (startAfter key (H.rotated.take m)) 0 0
    ((encodeFrames E key (H.liveStart key) H.live.payloads).take k) = live)
  (hclean : live.breakStatus = none)

include hlive hclean

/-- From the end of all segments a clean stream reads the first entries of the live file,
and if there are none it stops below four bytes. -/
theorem entriesVerified_live (hm : m = H.rotated.length) :
    live.entriesVerified ≤ H.live.records.length ∧ (live.entriesVerified = 0 →
      ((encodeFrames E key (H.liveStart key) H.live.payloads).take k).length < 4) := by
  have hstart : startAfter key (H.rotated.take m) = H.liveStart key := by
    rw [hm, List.take_length]; rfl
  rw [hstart] at hlive
  rw [← hlive] at hclean
  obtain ⟨j, hj, hstream, -, hshort⟩ :=
    stream_take (H.liveStart key) 0 0 k H.live.payloads_fit hclean
  have hentries : live.entriesVerified = j := by rw [← hlive, hstream]; simp
  rw [hentries]
  exact ⟨by rwa [← H.live.length_payloads], hshort⟩

/-- The true seal is passed by the whole live file only, and only after all segments. -/
theorem NoCollision.live_of_sealed (h : NoCollision E key H) (hm : m ≤ H.rotated.length)
    {tip : Option TipProvenance}
    (hok : segmentOk (liveStatus live (.valid H.live.records.length (H.liveStart key) tip)
      (startAfter key (H.rotated.take m)) total) true = true) :
    m = H.rotated.length ∧ live.entriesVerified = H.live.records.length := by
  have hmn : m = H.rotated.length := by
    by_contra hne
    have := h.startAfter_ne (show m < H.rotated.length by omega)
    simp [liveStatus, hclean, this.symm, segmentOk] at hok
  refine ⟨hmn, ?_⟩
  have hstart : startAfter key (H.rotated.take m) = H.liveStart key := by
    rw [hmn, List.take_length]; rfl
  obtain ⟨hle, -⟩ := entriesVerified_live hlive hclean hmn
  simp only [liveStatus, hclean, hstart, ne_eq, not_true_eq_false, if_false,
    classifyTerminal] at hok
  grind [segmentOk]

/-- Without a seal only an empty live file passes. -/
theorem NoCollision.live_of_unsealed (h : NoCollision E key H) (hm : m ≤ H.rotated.length)
    (hok : segmentOk (liveStatus live .absent (startAfter key (H.rotated.take m)) total)
      true = true) :
    live.entriesVerified = 0 ∧
      ((encodeFrames E key (H.liveStart key) H.live.payloads).take k).length < 4 := by
  have hzero : live.entriesVerified = 0 := by
    by_contra hne
    simp [liveStatus, hclean, classifyTerminal, hne, segmentOk] at hok
  refine ⟨hzero, ?_⟩
  by_cases hmn : m = H.rotated.length
  · exact (entriesVerified_live hlive hclean hmn).2 hzero
  · exact h.stream_live (by omega) (hlive ▸ hclean)

end

/-- A live file that passes continues all segments and is whole, or it has lost its seal
and is cut below four bytes. -/
theorem verifyLive_tampered (h : Represents d path key H) (hideal : NoCollision E key H)
    (ht : Tampered d d') {m total count t s : Nat} (hm : m ≤ H.rotated.length)
    (hv : verifyLive E d' path key (startAfter key (H.rotated.take m)) total count =
      .ok (.intact t s)) :
    (m = H.rotated.length ∧ t = total + H.live.records.length) ∨
      (d'.lookup (sealPath path) = none ∧
        (∃ bytes, d'.lookup path = some bytes ∧ bytes.length < 4) ∧ t = total) := by
  rw [verifyLive, streamVerify] at hv
  rcases ht path with hnone | ⟨bytes, k, hbytes, hcut⟩
  · rw [hnone] at hv; cases hv
  · have hcontents : d.lookup path =
        some (encodeFrames E key (H.liveStart key) H.live.payloads) := h.contents
    rw [hcontents] at hbytes
    obtain rfl := Option.some.inj hbytes
    simp only [hcut] at hv
    generalize hlive : stream E key (startAfter key (H.rotated.take m)) 0 0
      ((encodeFrames E key (H.liveStart key) H.live.payloads).take k) = live at hv
    by_cases hok : segmentOk (liveStatus live (readSeal E d' path key)
        (startAfter key (H.rotated.take m)) total) true = true
    · rw [if_pos hok] at hv
      obtain ⟨htotal, -⟩ := SegmentChainStatus.intact.inj (Except.ok.inj hv)
      cases hclean : live.breakStatus with
      | some status =>
          have hbad := segmentOk_of_break (hlive ▸ hclean) true
          simp only [liveStatus, hclean, hbad] at hok
          contradiction
      | none =>
          cases hseal : readSeal E d' path key with
          | valid c st tip =>
              -- a valid seal names the true start, which only the full set of segments has
              obtain ⟨rfl, rfl⟩ := h.live.readSeal_tampered ht hseal
              rw [hseal] at hok
              obtain ⟨hmn, hcount⟩ := hideal.live_of_sealed hlive hclean hm hok
              exact .inl ⟨hmn, by rw [← htotal, hcount]⟩
          | invalid =>
              simp only [liveStatus, hclean, hseal, classifyTerminal] at hok
              split at hok <;> simp [segmentOk] at hok
          | absent =>
              rw [hseal] at hok
              obtain ⟨hzero, hshort⟩ := hideal.live_of_unsealed hlive hclean hm hok
              exact .inr ⟨(readSeal_eq_absent E).mp hseal, ⟨_, hcut, hshort⟩,
                by rw [← htotal, hzero]; rfl⟩
    · rw [if_neg hok] at hv; cases hv

/-- A live file without a seal and of fewer than four bytes passes as empty. -/
theorem verifyLive_short {bytes : Bytes} (hseal : d'.lookup (sealPath path) = none)
    (hlive : d'.lookup path = some bytes) (hshort : bytes.length < 4) (start : Hash)
    (total count : Nat) :
    verifyLive E d' path key start total count = .ok (.intact total ((count + 1) % 2 ^ 32)) := by
  have habsent : readSeal E d' path key = .absent := (readSeal_eq_absent E).mpr hseal
  rw [verifyLive, streamVerify, hlive]
  simp only [stream_short _ _ _ hshort, habsent]
  rfl

/-! ## The whole log -/

theorem Tampered.lookup_isSome (ht : Tampered d d') {name : FileName}
    (h : (d'.lookup name).isSome) : (d.lookup name).isSome := by
  rcases ht name with hnone | ⟨bytes, k, hbytes, -⟩
  · rw [hnone] at h; contradiction
  · rw [hbytes]; rfl

theorem Tampered.refl (d : Directory) : Tampered d d := by
  intro name
  cases h : d.lookup name with
  | none => exact .inl rfl
  | some bytes => exact .inr ⟨bytes, bytes.length, rfl, by rw [List.take_length]⟩

/-- One more file is deleted. -/
theorem Tampered.erase (ht : Tampered d d') (name : FileName) : Tampered d (d'.erase name) := by
  intro n
  rw [Table.lookup_erase_ite]
  split
  · exact .inl rfl
  · exact ht n

/-- One more file is cut to nothing. -/
theorem Tampered.cut (ht : Tampered d d') {name : FileName} (h : (d.lookup name).isSome) :
    Tampered d (d'.insert name []) := by
  intro n
  rw [Table.lookup_insert_ite]
  split
  · next heq =>
    subst heq
    obtain ⟨bytes, hbytes⟩ := Option.isSome_iff_exists.mp h
    exact .inr ⟨bytes, 0, hbytes, rfl⟩
  · exact ht n

theorem Tampered.ownFiles (ht : Tampered d d') (h : OwnFiles d path) : OwnFiles d' path := by
  intro name hmem hstem
  rw [Table.mem_keys_iff, ← Option.isSome_iff_exists] at hmem
  refine h name ((Table.mem_keys_iff d name).mpr ?_) hstem
  exact Option.isSome_iff_exists.mp (ht.lookup_isSome hmem)

/-- With exactly the first `m` segment files left, the walk is intact if and only if these
were kept and the live file passes after them. -/
theorem verifySegmentChain_tampered (h : Represents d path key H) (ht : Tampered d d')
    {m t s : Nat} (hm : m ≤ H.rotated.length)
    (hfiles : ∀ n, (file d' path (.segment n)).isSome ↔ 1 ≤ n ∧ n ≤ m) :
    verifySegmentChain E d' path key = .ok (.intact t s) ↔
      (∀ i < m, Kept E key d d' (rotationPath path (1 + i))) ∧
      verifyLive E d' path key (startAfter key (H.rotated.take m))
        (History.rotatedTotal (H.rotated.take m)) m = .ok (.intact t s) := by
  have hlen : (H.rotated.take m).length = m := List.length_take_of_le hm
  have hbound := h.bound
  have hmax : m < 2 ^ 32 := by
    have : maxU32 < 2 ^ 32 := by decide
    omega
  have hsegs : ∀ i seg, (H.rotated.take m)[i]? = some seg →
      SegmentFile d key (rotationPath path (1 + i))
        (startAfter key ([] ++ (H.rotated.take m).take i)) seg := by
    intro i seg hi
    obtain ⟨him, hi'⟩ : i < m ∧ H.rotated[i]? = some seg := by
      rw [List.getElem?_take] at hi
      split at hi
      · exact ⟨‹_›, hi⟩
      · contradiction
    have hfile := h.files i seg hi'
    rwa [List.nil_append, List.take_take, Nat.min_eq_left him.le, Nat.add_comm 1 i]
  have hwalk := walkSegments_tampered (t := t) (s := s) ht [] (H.rotated.take m) 1 0 0
    (fun seg hseg => H.rotated_ne_nil seg (List.mem_of_mem_take hseg)) hsegs (by rw [hlen]; omega)
  rw [hlen, List.nil_append, Nat.zero_add, Nat.zero_add] at hwalk
  rw [verifySegmentChain_eq_walk E key (ht.ownFiles h.own) (by omega) hfiles]
  exact hwalk

/-- What the walk does not see: the first `m` segments are kept and the newer ones deleted,
and of the live file neither the seal nor a length prefix is left. -/
structure UnreportedLoss (E : Crates) (key : ChainKey) (path : FileName) (H : History E)
    (d d' : Directory) (m : Nat) : Prop where
  le : m ≤ H.rotated.length
  kept : ∀ i < m, Kept E key d d' (rotationPath path (1 + i))
  deleted : ∀ i, m < i → i ≤ H.rotated.length → d'.lookup (rotationPath path i) = none
  sealDeleted : d'.lookup (sealPath path) = none
  liveShort : ∃ bytes, d'.lookup path = some bytes ∧ bytes.length < 4
  lossy : m < H.rotated.length ∨ H.live.records ≠ []

/-- Whoever deletes the newest segments or empties the live file loses entries. -/
theorem History.rotatedTotal_take_lt {m : Nat}
    (hlossy : m < H.rotated.length ∨ H.live.records ≠ []) :
    History.rotatedTotal (H.rotated.take m) < H.records.length := by
  have hsplit : History.rotatedTotal H.rotated =
      History.rotatedTotal (H.rotated.take m) + History.rotatedTotal (H.rotated.drop m) := by
    simp only [History.rotatedTotal, ← List.sum_append, ← List.map_append, List.take_append_drop]
  rw [H.length_records, hsplit]
  rcases hlossy with hm | hlive
  · have hseg := H.rotated_ne_nil _ (List.getElem_mem hm)
    have hpos := List.length_pos_iff.mpr hseg
    rw [List.drop_eq_getElem_cons hm]
    simp only [History.rotatedTotal, List.map_cons, List.sum_cons]
    omega
  · have hpos := List.length_pos_iff.mpr hlive
    omega

/-- Such a loss passes as intact with the entries of the segments that are left. -/
theorem UnreportedLoss.verifySegmentChain {m : Nat} (hloss : UnreportedLoss E key path H d d' m)
    (h : Represents d path key H) (ht : Tampered d d') :
    TamperLog.verifySegmentChain E d' path key =
      .ok (.intact (History.rotatedTotal (H.rotated.take m)) ((m + 1) % 2 ^ 32)) := by
  obtain ⟨bytes, hlive, hshort⟩ := hloss.liveShort
  refine (verifySegmentChain_tampered h ht hloss.le fun n => ?_).mpr
    ⟨hloss.kept, verifyLive_short hloss.sealDeleted hlive hshort _ _ _⟩
  constructor
  · intro hn
    obtain ⟨h1, hle⟩ := h.numbers n (ht.lookup_isSome hn)
    refine ⟨h1, ?_⟩
    by_contra hlt
    have hnone := hloss.deleted n (by omega) hle
    rw [file] at hn
    change (d'.lookup (rotationPath path n)).isSome at hn
    rw [hnone] at hn
    contradiction
  · rintro ⟨h1, hle⟩
    obtain ⟨i, rfl⟩ : ∃ i, n = 1 + i := ⟨n - 1, by omega⟩
    change (d'.lookup (rotationPath path (1 + i))).isSome
    rw [(hloss.kept i (by omega)).1, Nat.add_comm]
    exact (h.toRotatedFiles.segment_isSome (i + 1)).mpr (by have := hloss.le; omega)

/-- **Deletion and truncation**: let the files of the log of `H` be deleted or cut in any
combination.  An intact result counts every entry that had been appended, if and only if
the change is not an `UnreportedLoss`. -/
theorem intact_counts_all_iff (h : Represents d path key H) (hideal : NoCollision E key H)
    (ht : Tampered d d') :
    (∀ total segments, verifySegmentChain E d' path key = .ok (.intact total segments) →
        total = H.records.length) ↔
      ¬ ∃ m, UnreportedLoss E key path H d d' m := by
  constructor
  · rintro hall ⟨m, hloss⟩
    have hcount := hall _ _ (hloss.verifySegmentChain h ht)
    have hlt := H.rotatedTotal_take_lt hloss.lossy
    omega
  · intro hnone total segments hv
    obtain ⟨m, hm, hfiles⟩ := numbers_of_intact E (ht.ownFiles h.own) h.bound
      (fun n hn => h.numbers n (ht.lookup_isSome hn)) hv
    obtain ⟨hkept, hlive⟩ := (verifySegmentChain_tampered h ht hm hfiles).mp hv
    rcases verifyLive_tampered h hideal ht hm hlive with ⟨rfl, htotal⟩ | ⟨hseal, hshort, htotal⟩
    · rw [htotal, List.take_length, H.length_records]
    · by_cases hlossy : m < H.rotated.length ∨ H.live.records ≠ []
      · refine absurd ⟨m, hm, hkept, fun i hi hle => ?_, hseal, hshort, hlossy⟩ hnone
        have hgone := (hfiles i).not.mpr (by omega)
        exact Option.not_isSome_iff_eq_none.mp hgone
      · push Not at hlossy
        obtain rfl : m = H.rotated.length := by omega
        rw [htotal, List.take_length, H.length_records, hlossy.2, List.length_nil, Nat.add_zero]

/-! ## A log of three entries -/

/-- The record with a given number that `sampleCrates` serializes. -/
def sampleRecord (sequence : Nat) (h : sequence < 24) : Record sampleCrates where
  entry := ⟨sequence, 0, sampleKind⟩
  payload := sampleCbor sequence
  encoded := by simp [sampleCrates, h]
  fits := by
    change 76 ≤ maxEntryBytes
    decide

/-- Two entries in the first segment, one in the live file. -/
def sampleHistory : History sampleCrates where
  rotated := [⟨[sampleRecord 0 (by decide), sampleRecord 1 (by decide)], rfl⟩]
  live := ⟨[sampleRecord 0 (by decide)], rfl⟩
  rotated_ne_nil := by simp

/-- The directory after the first segment, its seal and the live seal were deleted and the
live file was cut to nothing. -/
def wiped (d : Directory) : Directory :=
  (((d.erase (rotationPath samplePath 1)).erase (sealPath (rotationPath samplePath 1))).erase
    (sealPath samplePath)).insert samplePath []

theorem tampered_wiped (h : (d.lookup samplePath).isSome) : Tampered d (wiped d) :=
  (((Tampered.refl d).erase _).erase _).erase _ |>.cut h

/-- Of three entries in two segments nothing is left, and the walk is intact. -/
theorem wiped_intact :
    ∃ w d', sampleWorld 150 3 = some w ∧ w.appended.length = 3 ∧ w.rotations = 1 ∧
      Tampered w.dir d' ∧
      verifySegmentChain sampleCrates d' samplePath default = .ok (.intact 0 1) := by
  have hsample : (sampleWorld 150 3).map (fun w => (w.appended.length, w.rotations,
      (w.dir.lookup samplePath).isSome,
      verifySegmentChain sampleCrates (wiped w.dir) samplePath default)) =
        some (3, 1, true, .ok (.intact 0 1)) := by
    decide +kernel
  obtain ⟨w, hw, hfields⟩ := Option.map_eq_some_iff.mp hsample
  simp only [Prod.mk.injEq] at hfields
  obtain ⟨happended, hrotations, hlive, hintact⟩ := hfields
  exact ⟨w, wiped w.dir, hw, happended, hrotations, tampered_wiped hlive, hintact⟩

/-- The files of the sample log. -/
theorem sampleHistory_represents {w : World} (hw : sampleWorld 150 3 = some w) :
    Represents w.dir samplePath default sampleHistory := by
  have hsample : (sampleWorld 150 3).map (fun w => (w.rotations,
      decide (w.dir.lookup (rotationPath samplePath 1) = some (encodeFrames sampleCrates default
        (genesisHash sampleCrates default) [sampleCbor 0, sampleCbor 1])),
      decide (w.dir.lookup (sealPath (rotationPath samplePath 1)) =
        some (sealBytes sampleCrates default 2 (genesisHash sampleCrates default) none)),
      decide (w.dir.lookup samplePath = some (encodeFrames sampleCrates default
        (sampleHistory.liveStart default) [sampleCbor 0])),
      decide (w.dir.lookup (sealPath samplePath) =
        some (sealBytes sampleCrates default 1 (sampleHistory.liveStart default) none)))) =
          some (1, true, true, true, true) := by
    decide +kernel
  rw [hw] at hsample
  simp only [Option.map_some, Option.some.injEq, Prod.mk.injEq, decide_eq_true_eq] at hsample
  obtain ⟨hrot, hseg, hsegSeal, hlive, hliveSeal⟩ := hsample
  obtain ⟨H, hH⟩ := sampleWorld_tracks hw (by rw [hrot]; decide)
  have hlen : H.rotated.length = sampleHistory.rotated.length := by rw [hH.rotations, hrot]; rfl
  have hrep := hH.represents
  exact
    { own := hrep.own
      files := by
        intro i seg hi
        cases i with
        | zero =>
            obtain rfl := Option.some.inj hi
            exact ⟨hseg, ⟨none, hsegSeal⟩, by decide⟩
        | succ i => cases hi
      numbers := fun n hn => hlen ▸ hrep.numbers n hn
      seals := fun n hn => hlen ▸ hrep.seals n hn
      bound := by decide
      contents := hlive
      count_lt := by decide
      sealed := ⟨none, hliveSeal⟩ }

theorem sampleHistory_noCollision : NoCollision sampleCrates default sampleHistory := by
  have hstrings : ∀ s ∈ hashedStrings sampleCrates default sampleHistory,
      ∀ t ∈ hashedStrings sampleCrates default sampleHistory,
        sampleCrates.keyedHash default s = sampleCrates.keyedHash default t → s = t := by
    decide +kernel
  exact fun s hs t ht heq => hstrings s hs t ht heq

/-- The sample log: left alone it is counted in full, wiped it is not. -/
theorem intact_counts_all_sample :
    ∃ w, sampleWorld 150 3 = some w ∧
      (∀ total segments, verifySegmentChain sampleCrates w.dir samplePath default =
        .ok (.intact total segments) → total = 3) ∧
      ¬ ∀ total segments, verifySegmentChain sampleCrates (wiped w.dir) samplePath default =
        .ok (.intact total segments) → total = 3 := by
  have hsample : (sampleWorld 150 3).map (fun w =>
      ((w.dir.lookup (sealPath samplePath)).isSome, (w.dir.lookup samplePath).isSome,
        ((wiped w.dir).lookup (rotationPath samplePath 1)).isSome,
        ((wiped w.dir).lookup (sealPath samplePath)).isSome)) =
          some (true, true, false, false) := by
    decide +kernel
  obtain ⟨w, hw, hfields⟩ := Option.map_eq_some_iff.mp hsample
  simp only [Prod.mk.injEq] at hfields
  obtain ⟨hseal, hlive, hsegGone, hsealGone⟩ := hfields
  have hrep := sampleHistory_represents hw
  refine ⟨w, hw, ?_, fun hall => ?_⟩
  · refine (intact_counts_all_iff hrep sampleHistory_noCollision (Tampered.refl w.dir)).mpr ?_
    rintro ⟨m, hloss⟩
    rw [hloss.sealDeleted] at hseal
    contradiction
  · refine (intact_counts_all_iff hrep sampleHistory_noCollision (tampered_wiped hlive)).mp hall ?_
    refine ⟨0, by simp, by simp, fun i hi hle => ?_, by simpa using hsealGone,
      ⟨[], by simp [wiped], by simp⟩, .inl (by decide)⟩
    obtain rfl : i = 1 := Nat.le_antisymm hle hi
    simpa using hsegGone

end Akroasis.TamperLog
