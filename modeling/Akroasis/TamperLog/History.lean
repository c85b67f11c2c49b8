import Akroasis.TamperLog.Segments

/-!
# Akroasis.TamperLog.History

What a log is for: a history of entries, cut into segments, the last of which is still
growing.  `Represents d path key H` says that the files of `d` hold the history `H`,
each segment under a seal with its exact count and start.

The verifiers report such a directory as intact with the history's own numbers
(`Represents.verifySegmentChain`, `SegmentFile.verifyChain`).
-/

namespace Akroasis.TamperLog

/-! ## Histories -/

/-- An entry together with the serialization the encoder accepted. -/
structure Record (E : Crates) where
  entry : LogEntry
  payload : Bytes
  encoded : E.toCbor entry = some payload
  fits : payload.length ≤ maxEntryBytes

/-- The records of one segment, numbered from zero. -/
structure Segment (E : Crates) where
  records : List (Record E)
  numbered : records.map (·.entry.sequence) = List.range records.length

/-- The segments a log has rotated away, oldest first, and the one it appends to. -/
structure History (E : Crates) where
  rotated : List (Segment E)
  live : Segment E
  rotated_ne_nil : ∀ seg ∈ rotated, seg.records ≠ []

variable {E : Crates} {d : Directory} {key : ChainKey}

namespace Segment

/-- The segment without entries. -/
def empty : Segment E := ⟨[], rfl⟩

/-- The segment with one more record, which carries the next number. -/
def push (seg : Segment E) (r : Record E) (h : r.entry.sequence = seg.records.length) :
    Segment E where
  records := seg.records ++ [r]
  numbered := by
    rw [List.map_append, seg.numbered, List.length_append, List.length_singleton,
      List.range_succ, List.map_singleton, h]

/-- The payloads of the segment's file. -/
def payloads (seg : Segment E) : List Bytes := seg.records.map Record.payload

@[simp] theorem length_payloads (seg : Segment E) : seg.payloads.length = seg.records.length := by
  simp [payloads]

@[simp] theorem payloads_empty : (empty : Segment E).payloads = [] := rfl

@[simp] theorem records_empty : (empty : Segment E).records = [] := rfl

theorem payloads_push (seg : Segment E) (r : Record E)
    (h : r.entry.sequence = seg.records.length) :
    (seg.push r h).payloads = seg.payloads ++ [r.payload] := by
  simp [payloads, push]

theorem payloads_fit (seg : Segment E) : ∀ p ∈ seg.payloads, p.length ≤ maxEntryBytes := by
  intro p hp
  obtain ⟨r, -, rfl⟩ := List.mem_map.mp hp
  exact r.fits

end Segment

/-- The hash reached after a list of segments. -/
def startAfter (key : ChainKey) (segs : List (Segment E)) : Hash :=
  segs.foldl (fun start seg => chainEnd E key start seg.payloads) (genesisHash E key)

theorem startAfter_append_singleton (key : ChainKey) (segs : List (Segment E))
    (seg : Segment E) :
    startAfter key (segs ++ [seg]) = chainEnd E key (startAfter key segs) seg.payloads := by
  simp [startAfter, List.foldl_append]

namespace History

/-- The history of a log that was just created. -/
def empty : History E := ⟨[], Segment.empty, by simp⟩

/-- The hash the live segment is linked from. -/
def liveStart (H : History E) (key : ChainKey) : Hash := startAfter key H.rotated

/-- The hash of the last entry. -/
def tip (H : History E) (key : ChainKey) : Hash := chainEnd E key (H.liveStart key) H.live.payloads

/-- All records, oldest first. -/
def records (H : History E) : List (Record E) :=
  (H.rotated.map Segment.records).flatten ++ H.live.records

/-- The number of entries in the rotated segments. -/
def rotatedTotal (segs : List (Segment E)) : Nat := (segs.map fun seg => seg.records.length).sum

theorem length_records (H : History E) :
    H.records.length = rotatedTotal H.rotated + H.live.records.length := by
  simp [records, rotatedTotal, List.length_flatten, Function.comp_def]

/-- Append one record to the live segment. -/
def push (H : History E) (r : Record E) (h : r.entry.sequence = H.live.records.length) :
    History E :=
  { H with live := H.live.push r h }

theorem records_push (H : History E) (r : Record E)
    (h : r.entry.sequence = H.live.records.length) : (H.push r h).records = H.records ++ [r] := by
  simp [records, push, Segment.push]

theorem tip_push (H : History E) (key : ChainKey) (r : Record E)
    (h : r.entry.sequence = H.live.records.length) :
    (H.push r h).tip key = linkHash E key r.payload (H.tip key) := by
  simp [tip, push, liveStart, Segment.payloads_push, chainEnd_append]

/-- Close the live segment and start the next one. -/
def rotate (H : History E) (h : H.live.records ≠ []) : History E where
  rotated := H.rotated ++ [H.live]
  live := Segment.empty
  rotated_ne_nil := by
    intro seg hseg
    rcases List.mem_append.mp hseg with hseg | hseg
    · exact H.rotated_ne_nil seg hseg
    · rwa [List.mem_singleton.mp hseg]

theorem records_rotate (H : History E) (h : H.live.records ≠ []) :
    (H.rotate h).records = H.records := by
  simp [records, rotate]

/-- Rotation does not reset the chain. -/
theorem liveStart_rotate (H : History E) (key : ChainKey) (h : H.live.records ≠ []) :
    (H.rotate h).liveStart key = H.tip key :=
  startAfter_append_singleton key H.rotated H.live

/-- The segments in the order the verifier walks them. -/
def segments (H : History E) : List (Segment E) := H.rotated ++ [H.live]

/-- The record at position `j` of segment `i`. -/
def recordAt (H : History E) (i j : Nat) : Option (Record E) :=
  (H.segments[i]?).bind fun seg => seg.records[j]?

/-- Every record of `H` is in `H'` at the same position. -/
def Extends (H' H : History E) : Prop := ∀ i j r, H.recordAt i j = some r → H'.recordAt i j = some r

theorem Extends.refl (H : History E) : H.Extends H := fun _ _ _ h => h

theorem Extends.trans {H H' H'' : History E} (h' : H''.Extends H') (h : H'.Extends H) :
    H''.Extends H := fun i j r hr => h' i j r (h i j r hr)

theorem extends_push (H : History E) (r : Record E)
    (h : r.entry.sequence = H.live.records.length) : (H.push r h).Extends H := by
  intro i j x hx
  simp only [recordAt, segments, push] at hx ⊢
  by_cases hi : i < H.rotated.length
  · rwa [List.getElem?_append_left hi] at hx ⊢
  · rw [List.getElem?_append_right (Nat.le_of_not_lt hi)] at hx ⊢
    cases hk : i - H.rotated.length with
    | zero =>
        simp only [hk, List.getElem?_cons_zero, Option.bind_some] at hx ⊢
        change (H.live.records ++ [r])[j]? = some x
        rwa [List.getElem?_append_left (List.getElem?_eq_some_iff.mp hx).1]
    | succ k => simp [hk] at hx

theorem extends_rotate (H : History E) (h : H.live.records ≠ []) : (H.rotate h).Extends H := by
  intro i j x hx
  simp only [recordAt, segments, rotate] at hx ⊢
  cases hseg : (H.rotated ++ [H.live])[i]? with
  | none => simp [hseg] at hx
  | some seg =>
      have hlt := (List.getElem?_eq_some_iff.mp hseg).1
      rw [List.getElem?_append_left hlt, hseg]
      rwa [hseg] at hx

end History

/-! ## Files that hold a history -/

/-- The file `name` holds `seg` chained from `start`, and its seal says so. -/
structure SegmentFile (d : Directory) (key : ChainKey) (name : FileName) (start : Hash)
    (seg : Segment E) : Prop where
  contents : d.lookup name = some (encodeFrames E key start seg.payloads)
  sealed : ∃ tip, d.lookup (sealPath name) = some (sealBytes E key seg.records.length start tip)
  count_lt : seg.records.length < 2 ^ 64

/-- The rotated segment files of the directory are exactly `segs`. -/
structure RotatedFiles (d : Directory) (path : FileName) (key : ChainKey)
    (segs : List (Segment E)) : Prop where
  own : OwnFiles d path
  files : ∀ i seg, segs[i]? = some seg →
    SegmentFile d key (rotationPath path (i + 1)) (startAfter key (segs.take i)) seg
  numbers : ∀ n, (file d path (.segment n)).isSome → 1 ≤ n ∧ n ≤ segs.length
  seals : ∀ n, (file d path (.segmentSeal n)).isSome → n ≤ segs.length
  bound : segs.length ≤ maxU32

/-- The directory holds the history, whatever the live file's seal says. -/
structure Stored (d : Directory) (path : FileName) (key : ChainKey) (H : History E) : Prop
    extends RotatedFiles d path key H.rotated where
  contents : file d path .live = some (encodeFrames E key (H.liveStart key) H.live.payloads)
  count_lt : H.live.records.length < 2 ^ 64

/-- The directory holds the history and the live file's seal is exact. -/
structure Represents (d : Directory) (path : FileName) (key : ChainKey) (H : History E) : Prop
    extends Stored d path key H where
  sealed : ∃ tip, file d path .liveSeal =
    some (sealBytes E key H.live.records.length (H.liveStart key) tip)

/-- The live file of a represented history. -/
theorem Represents.live {path : FileName} {H : History E}
    (h : Represents d path key H) : SegmentFile d key path (H.liveStart key) H.live :=
  ⟨h.contents, h.sealed, h.count_lt⟩

namespace SegmentFile

variable {d : Directory} {key : ChainKey} {name : FileName} {start : Hash} {seg : Segment E}

/-- A segment file whose two files did not change is still one. -/
theorem congr {d' : Directory} (h : SegmentFile d key name start seg)
    (hfile : d'.lookup name = d.lookup name)
    (hseal : d'.lookup (sealPath name) = d.lookup (sealPath name)) :
    SegmentFile d' key name start seg where
  contents := hfile.trans h.contents
  sealed := by rw [hseal]; exact h.sealed
  count_lt := h.count_lt

theorem streamVerify (h : SegmentFile d key name start seg) :
    streamVerify E d name key start =
      .ok ⟨seg.records.length, chainEnd E key start seg.payloads, none⟩ := by
  have hs : stream E key start 0 0 (encodeFrames E key start seg.payloads ++ []) = _ :=
    stream_intact start (by simp) seg.payloads_fit
  rw [List.append_nil, seg.length_payloads] at hs
  rw [TamperLog.streamVerify, h.contents]
  simp only [hs]

theorem readSeal (h : SegmentFile d key name start seg) :
    ∃ tip, readSeal E d name key = .valid seg.records.length start tip := by
  obtain ⟨tip, htip⟩ := h.sealed
  refine ⟨tip, ?_⟩
  rw [TamperLog.readSeal, htip]
  exact readSealBytes_sealBytes E key start tip h.count_lt

end SegmentFile

/-! ## Verifying a represented history -/

/-- An exact seal makes a segment intact, or empty when there is nothing in it. -/
theorem classifyTerminal_exact (count : Nat) (start : Hash) (tip : Option TipProvenance) :
    classifyTerminal (.valid count start tip) count = if count = 0 then .empty else .intact := by
  by_cases h : count = 0
  · simp [classifyTerminal, h]
  · simp [classifyTerminal, h]

/-- A segment file verifies on its own. -/
theorem SegmentFile.verifyChain {name : FileName} {start : Hash}
    {seg : Segment E} (h : SegmentFile d key name start seg) :
    verifyChain E d name key = .ok
      { entriesVerified := seg.records.length
        status := if seg.records.length = 0 then .empty else .intact } := by
  obtain ⟨tip, hseal⟩ := h.readSeal
  simp only [TamperLog.verifyChain, hseal, resolveStartHash, h.streamVerify,
    Option.getD_none, classifyTerminal_exact]

/-- A run of segment files without its first one. -/
theorem segmentFiles_tail {path : FileName}
    {before segs : List (Segment E)} {seg : Segment E} {first : Nat}
    (hfiles : ∀ i s, (seg :: segs)[i]? = some s → SegmentFile d key (rotationPath path (first + i))
      (startAfter key (before ++ (seg :: segs).take i)) s) :
    ∀ i s, segs[i]? = some s → SegmentFile d key (rotationPath path (first + 1 + i))
      (startAfter key (before ++ [seg] ++ segs.take i)) s := by
  intro i s hs
  have hfile := hfiles (i + 1) s hs
  rw [List.take_succ_cons] at hfile
  rw [List.append_assoc, List.singleton_append, Nat.add_right_comm, Nat.add_assoc]
  exact hfile

/-- The walk passes a run of good segments and goes on with the numbers after them. -/
theorem walkSegments_append {path : FileName}
    (before segs : List (Segment E)) (rest : List Nat) {first total count : Nat}
    (hne : ∀ seg ∈ segs, seg.records ≠ [])
    (hfiles : ∀ i seg, segs[i]? = some seg →
      SegmentFile d key (rotationPath path (first + i))
        (startAfter key (before ++ segs.take i)) seg)
    (hcount : count + segs.length < 2 ^ 32) :
    walkSegments E d path key (List.range' first segs.length ++ rest) (startAfter key before)
        total count =
      walkSegments E d path key rest (startAfter key (before ++ segs))
        (total + History.rotatedTotal segs) (count + segs.length) := by
  induction segs generalizing before first total count with
  | nil => simp [History.rotatedTotal]
  | cons seg segs ih =>
      have hfile := hfiles 0 seg rfl
      rw [List.take_zero, List.append_nil, Nat.add_zero] at hfile
      obtain ⟨tip, hseal⟩ := hfile.readSeal
      have hlen : seg.records.length ≠ 0 := fun h =>
        hne seg List.mem_cons_self (List.eq_nil_of_length_eq_zero h)
      have hmod : (count + 1) % 2 ^ 32 = count + 1 := by
        simp only [List.length_cons] at hcount
        exact Nat.mod_eq_of_lt (by omega)
      have hstart : chainEnd E key (startAfter key before) seg.payloads =
          startAfter key (before ++ [seg]) := (startAfter_append_singleton key before seg).symm
      rw [List.length_cons, List.range'_succ, List.cons_append, walkSegments, hfile.streamVerify]
      simp only [segmentStatus, hseal, Option.getD_none, classifyTerminal_exact, if_neg hlen,
        segmentOk, if_true, hmod, hstart]
      rw [ih (before ++ [seg]) (fun s hs => hne s (List.mem_cons_of_mem _ hs))
        (segmentFiles_tail hfiles) ?_]
      · rw [List.append_assoc, List.singleton_append]
        simp only [History.rotatedTotal, List.map_cons, List.sum_cons]
        congr 1 <;> omega
      · simp only [List.length_cons] at hcount; omega

section

variable {d d' : Directory} {path : FileName} {key : ChainKey} {H : History E}
  {segs : List (Segment E)}

namespace RotatedFiles

/-- The segment files that exist. -/
theorem segment_isSome (h : RotatedFiles d path key segs) (n : Nat) :
    (file d path (.segment n)).isSome ↔ 1 ≤ n ∧ n ≤ segs.length := by
  constructor
  · exact h.numbers n
  · rintro ⟨h1, h2⟩
    have hget : segs[n - 1]? = some (segs[n - 1]) := List.getElem?_eq_getElem (by omega)
    have hfile := (h.files _ _ hget).contents
    rw [Nat.sub_add_cancel h1] at hfile
    change (d.lookup (rotationPath path n)).isSome
    rw [hfile]; rfl

/-- Segment files that did not change are still there. -/
theorem congr (h : RotatedFiles d path key segs) (hown : OwnFiles d' path)
    (hseg : ∀ n, file d' path (.segment n) = file d path (.segment n))
    (hsegSeal : ∀ n, file d' path (.segmentSeal n) = file d path (.segmentSeal n)) :
    RotatedFiles d' path key segs where
  own := hown
  files i seg hi := (h.files i seg hi).congr (hseg (i + 1)) (hsegSeal (i + 1))
  numbers n hn := h.numbers n (by rwa [← hseg n])
  seals n hn := h.seals n (by rwa [← hsegSeal n])
  bound := h.bound

/-- One more segment file, with its seal. -/
theorem snoc (h : RotatedFiles d path key segs) (hown : OwnFiles d' path)
    (hbound : segs.length < maxU32) {seg : Segment E} (hcount : seg.records.length < 2 ^ 64)
    (tip : Option TipProvenance)
    (hseg : ∀ n, file d' path (.segment n) =
      if n = segs.length + 1 then some (encodeFrames E key (startAfter key segs) seg.payloads)
      else file d path (.segment n))
    (hsegSeal : ∀ n, file d' path (.segmentSeal n) =
      if n = segs.length + 1 then
        some (sealBytes E key seg.records.length (startAfter key segs) tip)
      else file d path (.segmentSeal n)) :
    RotatedFiles d' path key (segs ++ [seg]) where
  own := hown
  files := by
    intro i s hi
    by_cases hlast : i < segs.length
    · -- an older segment: neither of its files is touched
      rw [List.getElem?_append_left hlast] at hi
      rw [List.take_append_of_le_length hlast.le]
      refine (h.files i s hi).congr ((hseg (i + 1)).trans ?_) ((hsegSeal (i + 1)).trans ?_) <;>
      · rw [if_neg (by omega)]; rfl
    · -- the segment that is new
      have hi' : i = segs.length := by
        have := (List.getElem?_eq_some_iff.mp hi).1
        simp only [List.length_append, List.length_singleton] at this
        omega
      subst hi'
      rw [List.getElem?_append_right (Nat.le_refl _), Nat.sub_self] at hi
      simp only [List.getElem?_cons_zero, Option.some.injEq] at hi
      subst hi
      rw [List.take_left]
      exact ⟨(hseg (segs.length + 1)).trans (if_pos rfl),
        ⟨tip, (hsegSeal (segs.length + 1)).trans (if_pos rfl)⟩, hcount⟩
  numbers := by
    intro n hn
    rw [hseg] at hn
    rw [List.length_append, List.length_singleton]
    by_cases hlast : n = segs.length + 1
    · omega
    · rw [if_neg hlast] at hn
      have := h.numbers n hn
      omega
  seals := by
    intro n hn
    rw [hsegSeal] at hn
    rw [List.length_append, List.length_singleton]
    by_cases hlast : n = segs.length + 1
    · omega
    · rw [if_neg hlast] at hn
      have := h.seals n hn
      omega
  bound := by
    rw [List.length_append, List.length_singleton]
    omega

/-- The walk passes all rotated segments and ends at the live file. -/
theorem verifySegmentChain (h : RotatedFiles d path key segs)
    (hne : ∀ seg ∈ segs, seg.records ≠ []) :
    verifySegmentChain E d path key =
      verifyLive E d path key (startAfter key segs) (History.rotatedTotal segs) segs.length := by
  have hwalk : walkSegments E d path key (List.range' 1 segs.length ++ [])
      (startAfter key []) 0 0 = _ :=
    walkSegments_append [] segs [] hne
      (fun i seg hseg => by simpa [Nat.add_comm] using h.files i seg hseg)
      (by have := h.bound; simp only [maxU32] at this; omega)
  rw [verifySegmentChain_eq_walk E key h.own h.bound h.segment_isSome]
  rw [List.append_nil, List.nil_append, Nat.zero_add, Nat.zero_add] at hwalk
  exact hwalk

end RotatedFiles

namespace Represents

/-- The live file passes the end of the walk. -/
theorem verifyLive (h : Represents d path key H) (total count : Nat) :
    verifyLive E d path key (H.liveStart key) total count =
      .ok (.intact (total + H.live.records.length) ((count + 1) % 2 ^ 32)) := by
  obtain ⟨tip, hseal⟩ := h.live.readSeal
  have hok : segmentOk (liveStatus ⟨H.live.records.length, H.tip key, none⟩
      (.valid H.live.records.length (H.liveStart key) tip) (H.liveStart key) total) true =
        true := by
    simp only [liveStatus, ne_eq, not_true_eq_false, if_false, classifyTerminal_exact]
    split <;> rfl
  rw [TamperLog.verifyLive, h.live.streamVerify]
  simp only [hseal]
  exact if_pos hok

/-- **Intact**: the segment walk reports the history's own numbers. -/
theorem verifySegmentChain (h : Represents d path key H) :
    verifySegmentChain E d path key =
      .ok (.intact H.records.length ((H.rotated.length + 1) % 2 ^ 32)) := by
  rw [h.toRotatedFiles.verifySegmentChain H.rotated_ne_nil, H.length_records]
  exact h.verifyLive _ _

end Represents

end

end Akroasis.TamperLog
