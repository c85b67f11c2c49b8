import Akroasis.HashChain
import Akroasis.TamperLog.Seal

/-!
# Akroasis.TamperLog.Verify

Chain verification of one segment file (`tamper_log_verify.rs`).

`streamVerify` reads frames to the end of the file and recomputes every link;
`verifyChain` seeds it from the seal and cross-checks the entry count with
`classifyTerminal`.  The loop runs on fuel so that it computes; `stream` is the
loop with enough of it, and `stream_eq` is its unfolding, which every proof uses
instead of the fuel.

Two lemmas say all that is needed about the format:

* `stream_encodeFrames` — the stream walks over the frames of any payload list;
* `stream_sound` — a stream that meets no break has read exactly such frames,
  with fewer than four bytes left over.
-/

namespace Akroasis.TamperLog

/-- Result of a chain verification pass. -/
structure VerificationResult where
  entriesVerified : Nat
  status : ChainStatus
  deriving DecidableEq

/-- Outcome of streaming one segment file's hash chain from a starting hash. -/
structure StreamResult where
  entriesVerified : Nat
  terminalHash : Hash
  breakStatus : Option ChainStatus
  deriving DecidableEq

/-- What the three reads of one loop turn can find. -/
inductive FrameRead where
  | eof
  | oversized
  | shortPayload
  | shortHash (payloadLen : Nat)
  | frame (payload : Bytes) (storedHash : Hash) (rest : Bytes)
  deriving DecidableEq

/-- The reads of one loop turn of `stream_verify`: the length prefix, the payload,
the stored hash.  A length prefix cut short is an ordinary end of file. -/
def readFrame (bs : Bytes) : FrameRead :=
  match readExact 4 bs with
  | none => .eof
  | some (lenBuf, rest) =>
      if maxEntryBytes < ofLeBytes lenBuf then .oversized
      else match readExact (ofLeBytes lenBuf) rest with
        | none => .shortPayload
        | some (payload, rest) =>
            match readExact 32 rest with
            | none => .shortHash (ofLeBytes lenBuf)
            | some (hash, rest) => .frame payload (FixedBytes.slice 32 0 hash) rest

section

variable (E : Crates)

/-! ## Streaming -/

/-- The loop of `stream_verify`. -/
def streamLoop (key : ChainKey) : Nat → Hash → Nat → Nat → Bytes → StreamResult
  | 0, prev, entries, offset, _ => ⟨entries, prev, some (.corrupted offset)⟩
  | fuel + 1, prev, entries, offset, bs =>
      match readFrame bs with
      | .eof => ⟨entries, prev, none⟩
      | .oversized => ⟨entries, prev, some (.corrupted offset)⟩
      | .shortPayload => ⟨entries, prev, some (.corrupted (offset + 4))⟩
      | .shortHash payloadLen => ⟨entries, prev, some (.corrupted (offset + 4 + payloadLen))⟩
      | .frame payload stored rest =>
          let expected := linkHash E key payload prev
          if expected ≠ stored then
            let sequence := ((E.fromCbor payload).map LogEntry.sequence).getD entries
            ⟨entries, prev, some (.broken sequence expected stored)⟩
          else
            streamLoop key fuel expected (entries + 1) (offset + 4 + payload.length + 32) rest

/-- The loop started anywhere with enough fuel. -/
def stream (key : ChainKey) (prev : Hash) (entries offset : Nat) (bs : Bytes) : StreamResult :=
  streamLoop E key (bs.length + 1) prev entries offset bs

/-- `stream_verify`. -/
def streamVerify (d : Directory) (path : FileName) (key : ChainKey) (start : Hash) :
    Except TamperLogError StreamResult :=
  match d.lookup path with
  | none => .error (.io path)
  | some bs => .ok (stream E key start 0 0 bs)

/-! ## Seal cross-check -/

/-- `resolve_start_hash`. -/
def resolveStartHash (sealed : SealState) (key : ChainKey) : Hash :=
  match sealed with
  | .valid _ start _ => start
  | .absent | .invalid => genesisHash E key

/-- `classify_terminal`: the status of a segment that streamed cleanly to its end. -/
def classifyTerminal (sealed : SealState) (entries : Nat) : ChainStatus :=
  if entries = 0 then
    match sealed with
    | .absent => .empty
    | .valid count _ _ => if count = 0 then .empty else .truncated (some count)
    | .invalid => .truncated none
  else
    match sealed with
    | .valid count _ _ =>
        if count = entries then .intact
        else if count < entries then .unsealed entries count
        else .truncated (some count)
    | .absent | .invalid => .truncated none

/-- `verify_chain`. -/
def verifyChain (d : Directory) (path : FileName) (key : ChainKey) :
    Except TamperLogError VerificationResult :=
  let sealed := readSeal E d path key
  let start := resolveStartHash E sealed key
  match streamVerify E d path key start with
  | .error e => .error e
  | .ok s => .ok
      { entriesVerified := s.entriesVerified
        status := s.breakStatus.getD (classifyTerminal sealed s.entriesVerified) }

/-! ## The chain of a payload list -/

/-- The hash a chain reaches after linking `payloads` in order. -/
def chainEnd (key : ChainKey) (start : Hash) (payloads : List Bytes) : Hash :=
  HashChain.chain (linkHash E key) start payloads

/-- The file contents that hold `payloads` chained from `start`. -/
def encodeFrames (key : ChainKey) : Hash → List Bytes → Bytes
  | _, [] => []
  | prev, p :: ps => frame p (linkHash E key p prev) ++ encodeFrames key (linkHash E key p prev) ps

end

variable {E : Crates} {key : ChainKey} {payload bs rest : Bytes}

@[simp] theorem chainEnd_nil (start : Hash) : chainEnd E key start [] = start := rfl

@[simp] theorem chainEnd_cons (start : Hash) (p : Bytes) (ps : List Bytes) :
    chainEnd E key start (p :: ps) = chainEnd E key (linkHash E key p start) ps := rfl

theorem chainEnd_append (start : Hash) (ps qs : List Bytes) :
    chainEnd E key start (ps ++ qs) = chainEnd E key (chainEnd E key start ps) qs :=
  HashChain.chain_append (linkHash E key) start ps qs

theorem encodeFrames_append (start : Hash) (ps qs : List Bytes) :
    encodeFrames E key start (ps ++ qs) =
      encodeFrames E key start ps ++ encodeFrames E key (chainEnd E key start ps) qs := by
  induction ps generalizing start with
  | nil => rfl
  | cons p ps ih => simp [encodeFrames, ih]

/-- Every frame takes at least its 36 bytes of framing. -/
theorem length_le_length_encodeFrames (E : Crates) (key : ChainKey) (start : Hash)
    (ps : List Bytes) :
    36 * ps.length ≤ (encodeFrames E key start ps).length := by
  induction ps generalizing start with
  | nil => simp
  | cons p ps ih =>
      have := ih (linkHash E key p start)
      simp only [encodeFrames, List.length_append, length_frame, List.length_cons]
      omega

/-- A payload and the hash behind it can be told apart. -/
theorem append_hash_injective {p q : Bytes} {g h : Hash} (heq : p ++ g.val = q ++ h.val) :
    p = q ∧ g = h := by
  have hlen : g.val.length = h.val.length := g.property.trans h.property.symm
  obtain ⟨hp, hg⟩ := List.append_inj' heq hlen
  exact ⟨hp, FixedBytes.ext hg⟩

/-- Hashing payload and previous hash in one string loses nothing. -/
theorem injOn_linkHash {S : Set Bytes} (hinj : S.InjOn (E.keyedHash key)) :
    {p : Bytes × Hash | p.1 ++ p.2.val ∈ S}.InjOn fun p => linkHash E key p.1 p.2 := by
  intro p hp q hq heq
  obtain ⟨h1, h2⟩ := append_hash_injective (hinj hp hq heq)
  exact Prod.ext h1 h2

/-! ## Reading one frame -/

theorem slice_zero (hash : Hash) : FixedBytes.slice 32 0 hash.val = hash := by
  simpa using FixedBytes.slice_append [] hash [] rfl

/-- A written frame is read back from the front of the file. -/
theorem readFrame_frame (hlen : payload.length ≤ maxEntryBytes) (hash : Hash)
    (rest : Bytes) : readFrame (frame payload hash ++ rest) = .frame payload hash rest := by
  have hsplit : frame payload hash ++ rest =
      leBytes 4 payload.length ++ (payload ++ (hash.val ++ rest)) := by
    simp [frame]
  rw [readFrame, hsplit, readExact_append (length_leBytes 4 _)]
  simp only [ofLeBytes_length hlen]
  rw [if_neg (by omega), readExact_append rfl]
  simp only
  rw [readExact_append hash.property]
  simp only [slice_zero]

/-- What a successful read of a frame says about the file. -/
theorem readFrame_eq_frame {hash : Hash}
    (h : readFrame bs = .frame payload hash rest) :
    bs = frame payload hash ++ rest ∧ payload.length ≤ maxEntryBytes := by
  unfold readFrame at h
  cases h4 : readExact 4 bs with
  | none => simp [h4] at h
  | some r4 =>
      obtain ⟨lenBuf, rest1⟩ := r4
      obtain ⟨hbs, hlb⟩ := readExact_eq_some h4
      simp only [h4] at h
      by_cases hmax : maxEntryBytes < ofLeBytes lenBuf
      · rw [if_pos hmax] at h; contradiction
      · rw [if_neg hmax] at h
        cases hp : readExact (ofLeBytes lenBuf) rest1 with
        | none => simp [hp] at h
        | some rp =>
            obtain ⟨p, rest2⟩ := rp
            obtain ⟨hrest1, hplen⟩ := readExact_eq_some hp
            simp only [hp] at h
            cases hh : readExact 32 rest2 with
            | none => simp [hh] at h
            | some rh =>
                obtain ⟨hb, rest3⟩ := rh
                obtain ⟨hrest2, hhlen⟩ := readExact_eq_some hh
                simp only [hh, FrameRead.frame.injEq] at h
                obtain ⟨rfl, rfl, rfl⟩ := h
                have hlenBuf : leBytes 4 p.length = lenBuf := by
                  rw [hplen, ← hlb]; exact leBytes_ofLeBytes lenBuf
                have hslice : (FixedBytes.slice 32 0 hb : Hash).val = hb := by
                  have := slice_zero ⟨hb, hhlen⟩
                  exact congrArg Subtype.val this
                refine ⟨?_, by omega⟩
                rw [frame, hlenBuf, hslice, hbs, hrest1, hrest2]
                simp

/-- The stream ends cleanly exactly when fewer than four bytes are left. -/
theorem readFrame_eq_eof : readFrame bs = .eof ↔ bs.length < 4 := by
  rw [← readExact_eq_none]
  unfold readFrame
  cases h4 : readExact 4 bs with
  | none => simp
  | some r4 =>
      simp only [reduceCtorEq, iff_false]
      split
      · simp
      · split
        · simp
        · split <;> simp

/-- A frame cut anywhere after its length prefix is neither a frame nor an end of
file. -/
theorem readFrame_take (hlen : payload.length ≤ maxEntryBytes) (hash : Hash)
    {k : Nat} (h4 : 4 ≤ k) (hk : k < (frame payload hash).length) :
    readFrame ((frame payload hash).take k) = .shortPayload ∨
      readFrame ((frame payload hash).take k) = .shortHash payload.length := by
  have htake : (frame payload hash).take k =
      leBytes 4 payload.length ++ (payload ++ hash.val).take (k - 4) := by
    rw [frame, List.take_append, length_leBytes, List.take_of_length_le (by simpa using h4)]
  rw [readFrame, htake, readExact_append (length_leBytes 4 _)]
  simp only [ofLeBytes_length hlen]
  rw [if_neg (by omega)]
  by_cases hp : k - 4 < payload.length
  · left
    have hnone : readExact payload.length ((payload ++ hash.val).take (k - 4)) = none := by
      rw [readExact_eq_none]; simp; omega
    rw [hnone]
  · right
    have hsplit : (payload ++ hash.val).take (k - 4) =
        payload ++ hash.val.take (k - 4 - payload.length) := by
      rw [List.take_append, List.take_of_length_le (by omega)]
    have hnone : readExact 32 (hash.val.take (k - 4 - payload.length)) = none := by
      rw [readExact_eq_none]
      rw [length_frame] at hk
      simp; omega
    rw [hsplit, readExact_append rfl]
    simp only [hnone]

/-! ## Unfolding the stream -/

/-- A frame that was read leaves less to read. -/
theorem readFrame_rest_lt {hash : Hash}
    (h : readFrame bs = .frame payload hash rest) : rest.length < bs.length := by
  obtain ⟨rfl, -⟩ := readFrame_eq_frame h
  simp only [List.length_append, length_frame]
  omega

/-- Fuel beyond the length of the input does not matter. -/
theorem streamLoop_fuel {f g : Nat} {prev : Hash} {entries offset : Nat}
    (hf : bs.length < f) (hg : bs.length < g) :
    streamLoop E key f prev entries offset bs = streamLoop E key g prev entries offset bs := by
  induction f generalizing g prev entries offset bs with
  | zero => omega
  | succ f ih =>
      obtain ⟨g, rfl⟩ : ∃ g', g = g' + 1 := ⟨g - 1, by omega⟩
      simp only [streamLoop]
      cases hr : readFrame bs with
      | frame payload stored rest =>
          have hlt := readFrame_rest_lt hr
          simp only
          split
          · rfl
          · exact ih (by omega) (by omega)
      | _ => rfl

/-- One turn of the stream. -/
theorem stream_eq (prev : Hash) (entries offset : Nat) (bs : Bytes) :
    stream E key prev entries offset bs =
      match readFrame bs with
      | .eof => ⟨entries, prev, none⟩
      | .oversized => ⟨entries, prev, some (.corrupted offset)⟩
      | .shortPayload => ⟨entries, prev, some (.corrupted (offset + 4))⟩
      | .shortHash payloadLen => ⟨entries, prev, some (.corrupted (offset + 4 + payloadLen))⟩
      | .frame payload stored rest =>
          if linkHash E key payload prev ≠ stored then
            ⟨entries, prev, some (.broken
              (((E.fromCbor payload).map LogEntry.sequence).getD entries)
              (linkHash E key payload prev) stored)⟩
          else
            stream E key (linkHash E key payload prev) (entries + 1)
              (offset + 4 + payload.length + 32) rest := by
  rw [stream, streamLoop]
  cases hr : readFrame bs with
  | frame payload stored rest =>
      have hlt := readFrame_rest_lt hr
      simp only
      split
      · rfl
      · exact streamLoop_fuel (by omega) (by omega)
  | _ => rfl

/-- Walking over one good frame. -/
theorem stream_frame (prev : Hash) (entries offset : Nat) (rest : Bytes)
    (hlen : payload.length ≤ maxEntryBytes) :
    stream E key prev entries offset (frame payload (linkHash E key payload prev) ++ rest) =
      stream E key (linkHash E key payload prev) (entries + 1)
        (offset + 4 + payload.length + 32) rest := by
  rw [stream_eq, readFrame_frame hlen]
  simp

/-- Walking over the frames of a payload list. -/
theorem stream_encodeFrames (prev : Hash) (entries offset : Nat) {ps : List Bytes} (rest : Bytes)
    (hlen : ∀ p ∈ ps, p.length ≤ maxEntryBytes) :
    stream E key prev entries offset (encodeFrames E key prev ps ++ rest) =
      stream E key (chainEnd E key prev ps) (entries + ps.length)
        (offset + (encodeFrames E key prev ps).length) rest := by
  induction ps generalizing prev entries offset with
  | nil => simp [encodeFrames]
  | cons p ps ih =>
      rw [encodeFrames, List.append_assoc, stream_frame _ _ _ _ (hlen p List.mem_cons_self),
        ih _ _ _ fun q hq => hlen q (List.mem_cons_of_mem _ hq)]
      simp only [chainEnd_cons, List.length_cons, List.length_append, length_frame]
      congr 1 <;> omega

/-- A tail too short for a length prefix ends the stream. -/
theorem stream_short (prev : Hash) (entries offset : Nat) (h : bs.length < 4) :
    stream E key prev entries offset bs = ⟨entries, prev, none⟩ := by
  rw [stream_eq, readFrame_eq_eof.mpr h]

/-- The whole stream over intact contents. -/
theorem stream_intact (start : Hash) {ps : List Bytes} (h : rest.length < 4)
    (hlen : ∀ p ∈ ps, p.length ≤ maxEntryBytes) :
    stream E key start 0 0 (encodeFrames E key start ps ++ rest) =
      ⟨ps.length, chainEnd E key start ps, none⟩ := by
  rw [stream_encodeFrames _ _ _ _ hlen, stream_short _ _ _ h, Nat.zero_add]

/-- **Soundness**: a stream without a break has read frames chained from its start,
with fewer than four bytes left over. -/
theorem stream_sound {prev : Hash} {entries offset : Nat}
    (h : (stream E key prev entries offset bs).breakStatus = none) :
    ∃ ps rest, bs = encodeFrames E key prev ps ++ rest ∧ rest.length < 4 ∧
      (∀ p ∈ ps, p.length ≤ maxEntryBytes) ∧
      stream E key prev entries offset bs =
        ⟨entries + ps.length, chainEnd E key prev ps, none⟩ := by
  -- the induction is on the length of what is left to read
  induction hn : bs.length using Nat.strong_induction_on generalizing prev entries offset bs with
  | _ n ih =>
      rw [stream_eq] at h
      cases hr : readFrame bs with
      | eof =>
          have hlt := readFrame_eq_eof.mp hr
          exact ⟨[], bs, by simp [encodeFrames], hlt, by simp, stream_short prev entries offset hlt⟩
      | oversized => simp [hr] at h
      | shortPayload => simp [hr] at h
      | shortHash len => simp [hr] at h
      | frame payload stored rest =>
          simp only [hr] at h
          by_cases heq : linkHash E key payload prev = stored
          · rw [if_neg (not_not.mpr heq)] at h
            obtain ⟨hbs, hlen⟩ := readFrame_eq_frame hr
            subst hn
            obtain ⟨ps, tail, hrest, htail, hps, hstream⟩ :=
              ih rest.length (readFrame_rest_lt hr) h rfl
            refine ⟨payload :: ps, tail, ?_, htail, ?_, ?_⟩
            · rw [hbs, encodeFrames, List.append_assoc, ← hrest, heq]
            · intro p hp
              rcases List.mem_cons.mp hp with rfl | hp
              · exact hlen
              · exact hps p hp
            · rw [hbs, ← heq, stream_frame _ _ _ _ hlen, hstream, chainEnd_cons]
              simp only [List.length_cons, StreamResult.mk.injEq, and_true]
              omega
          · rw [if_pos heq] at h; contradiction

/-- `verify_chain` over a file of frames: the seal alone decides. -/
theorem verifyChain_of_frames {d : Directory} {path : FileName} {start : Hash} {ps : List Bytes}
    (hd : d.lookup path = some (encodeFrames E key start ps ++ rest))
    (hrest : rest.length < 4) (hlen : ∀ p ∈ ps, p.length ≤ maxEntryBytes)
    (hstart : resolveStartHash E (readSeal E d path key) key = start) :
    verifyChain E d path key =
      .ok ⟨ps.length, classifyTerminal (readSeal E d path key) ps.length⟩ := by
  have hstream :
      streamVerify E d path key start = .ok ⟨ps.length, chainEnd E key start ps, none⟩ := by
    rw [streamVerify, hd]
    simp only [stream_intact start hrest hlen]
  simp only [verifyChain, hstart, hstream, Option.getD_none]

end Akroasis.TamperLog
