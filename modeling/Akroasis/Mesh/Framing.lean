import Akroasis.Scanner
import Akroasis.Mesh.Proto

/-!
# Akroasis.Mesh.Framing

The serial frame codec (`codec.rs`).  On the wire a payload stands behind two magic bytes
and its big-endian length.  The protobuf decoder of a payload is the parameter `parse`.

`decode` looks for the magic bytes in what is buffered so far and throws away what stands
before them, so what it does to one buffer depends on where the buffer ends.  What the
calls of a whole stream do does not: they are the moves of a `Scanner` that looks at two
bytes at a time (`drain_eq`), and `decode_chunks` follows from the scanner's laws.  So does
`drain_noisy`, that frames are found again in noise.
-/

namespace Akroasis.Mesh

/-- `FRAME_MAGIC`. -/
def frameMagic : UInt8 × UInt8 := (0x94, 0xC3)

namespace MeshCodec

variable {M : Type*} {noise : Bytes}

/-- `u16::from_be_bytes`. -/
def payloadLen (msb lsb : UInt8) : Nat := msb.toNat * 256 + lsb.toNat

/-- `encode`, of a payload already encoded: the bytes put into the buffer. -/
def encode (payload : Bytes) : Except Error Bytes :=
  if maxPacketSize < payload.length then
    .error (.sendFailed
      s!"encoded ToRadio too large: {payload.length} bytes (max {maxPacketSize})")
  else
    .ok (frameMagic.1 :: frameMagic.2 :: UInt8.ofNat (payload.length / 256) ::
      UInt8.ofNat payload.length :: payload)

/-- The first position of the magic pair. -/
def magicPos (src : Bytes) : Option Nat :=
  (List.range (src.length - 1)).find? fun i =>
    src[i]? = some frameMagic.1 ∧ src[i + 1]? = some frameMagic.2

/-- How a turn of the loop of `decode` ends. -/
inductive Turn (M : Type*) where
  | again (src : Bytes)
  | done (result : Except Error (Option M)) (src : Bytes)

/-- One turn of the loop of `decode`. -/
def turn (parse : Bytes → Option M) (src : Bytes) : Turn M :=
  if src.length < 2 then .done (.ok none) src
  else
    match magicPos src with
    -- the last byte may be the first half of the pair
    | none => .done (.ok none) (src.drop (src.length - 1))
    | some (n + 1) => .again (src.drop (n + 1))
    | some 0 =>
        if src.length < 4 then .done (.ok none) src
        else
          match src[2]?, src[3]? with
          | some msb, some lsb =>
              if maxPacketSize < payloadLen msb lsb then .again (src.drop 2)
              else if payloadLen msb lsb = 0 then .again (src.drop 4)
              else if src.length < 4 + payloadLen msb lsb then .done (.ok none) src
              else
                let body := src.drop 4
                match parse (body.take (payloadLen msb lsb)) with
                | some msg => .done (.ok (some msg)) (body.drop (payloadLen msb lsb))
                | none => .again (body.drop (payloadLen msb lsb))
          | _, _ => .done (.ok none) src

/-- At most `fuel` turns; `none` if they are not enough. -/
def decodeLoop (parse : Bytes → Option M) : Nat → Bytes → Option (Except Error (Option M) × Bytes)
  | 0, _ => none
  | fuel + 1, src =>
      match turn parse src with
      | .again src => decodeLoop parse fuel src
      | .done result src => some (result, src)

/-- `decode`: the result and the buffer after it. -/
def decode (parse : Bytes → Option M) (src : Bytes) : Option (Except Error (Option M) × Bytes) :=
  decodeLoop parse (src.length + 1) src

/-- At most `fuel` calls of `decode`, until one returns `None` or an error. -/
def drainLoop (parse : Bytes → Option M) : Nat → Bytes → Option (Except Error (List M) × Bytes)
  | 0, _ => none
  | fuel + 1, src =>
      match decode parse src with
      | none => none
      | some (.error e, src) => some (.error e, src)
      | some (.ok none, src) => some (.ok [], src)
      | some (.ok (some msg), src) =>
          (drainLoop parse fuel src).map fun (result, src) => (result.map (msg :: ·), src)

/-- `decode` until it returns `None`. -/
def drain (parse : Bytes → Option M) (src : Bytes) : Option (Except Error (List M) × Bytes) :=
  drainLoop parse (src.length + 1) src

/-- Chunks are appended to the buffer one after another, which is drained after each. -/
def feed (parse : Bytes → Option M) (src : Bytes) :
    List Bytes → Option (Except Error (List M) × Bytes)
  | [] => some (.ok [], src)
  | chunk :: chunks =>
      match drain parse (src ++ chunk) with
      | none => none
      | some (.error e, src) => some (.error e, src)
      | some (.ok msgs, src) =>
          (feed parse src chunks).map fun (result, src) => (result.map (msgs ++ ·), src)

/-! ## The scanner behind it -/

/-- One move: a byte that does not start the magic pair, or the header of a frame that
cannot be, or a frame. -/
def frameMove (parse : Bytes → Option M) : Bytes → Option (Option M × Bytes)
  | b₀ :: b₁ :: src =>
      if b₀ = frameMagic.1 ∧ b₁ = frameMagic.2 then
        match src with
        | msb :: lsb :: body =>
            if maxPacketSize < payloadLen msb lsb then some (none, src)
            else if body.length < payloadLen msb lsb then none
            else if payloadLen msb lsb = 0 then some (none, body)
            else some (parse (body.take (payloadLen msb lsb)), body.drop (payloadLen msb lsb))
        | _ => none
      else some (none, b₁ :: src)
  | _ => none

/-- The frames of a stream. -/
def frames (parse : Bytes → Option M) : Scanner UInt8 M where
  move := frameMove parse
  shrinks := by
    intro src item rest h
    unfold frameMove at h
    grind
  stable := by
    intro src item rest more h
    unfold frameMove at h ⊢
    grind

variable {parse : Bytes → Option M} {src src' : Bytes}

theorem frames_move : (frames parse).move = frameMove parse := rfl

theorem magicPos_cons_cons (b₀ b₁ : UInt8) (src : Bytes) :
    magicPos (b₀ :: b₁ :: src) =
      if b₀ = frameMagic.1 ∧ b₁ = frameMagic.2 then some 0
      else (magicPos (b₁ :: src)).map (· + 1) := by
  have hrange : List.range ((b₀ :: b₁ :: src).length - 1) =
      0 :: (List.range ((b₁ :: src).length - 1)).map (· + 1) := by
    simp [List.range_succ_eq_map]
  rw [magicPos, hrange, List.find?_cons]
  by_cases h : b₀ = frameMagic.1 ∧ b₁ = frameMagic.2
  · simp [h]
  · simp only [if_neg h, List.getElem?_cons_zero, List.getElem?_cons_succ, Option.some.injEq,
      decide_eq_false h, List.find?_map, magicPos]
    rfl

/-- Two bytes that are not the magic pair: the first is thrown away. -/
theorem drain_skip {b₀ b₁ : UInt8} (h : ¬ (b₀ = frameMagic.1 ∧ b₁ = frameMagic.2)) (src : Bytes) :
    (frames parse).drain (b₀ :: b₁ :: src) = (frames parse).drain (b₁ :: src) := by
  have hmove : (frames parse).move (b₀ :: b₁ :: src) = some (none, b₁ :: src) := if_neg h
  rw [Scanner.drain_of_some hmove]
  rfl

/-- What stands before the magic pair is thrown away. -/
theorem drain_magicPos {n : Nat} (h : magicPos src = some n) :
    (frames parse).drain src = (frames parse).drain (src.drop n) := by
  induction src generalizing n with
  | nil => cases h
  | cons b₀ src ih =>
      cases src with
      | nil => cases h
      | cons b₁ src =>
          rw [magicPos_cons_cons] at h
          split at h
          · obtain rfl := Option.some.inj h
            rfl
          · next hpair =>
            obtain ⟨k, hk, rfl⟩ := Option.map_eq_some_iff.mp h
            rw [drain_skip hpair, ih hk, List.drop_succ_cons]

/-- Without the magic pair, all but the last byte are. -/
theorem drain_no_magic (h : magicPos src = none) :
    (frames parse).drain src = ([], src.drop (src.length - 1)) := by
  induction src with
  | nil => rfl
  | cons b₀ src ih =>
      cases src with
      | nil => rfl
      | cons b₁ src =>
          rw [magicPos_cons_cons] at h
          split at h
          · cases h
          · next hpair =>
            rw [drain_skip hpair, ih (Option.map_eq_none_iff.mp h)]
            rfl

/-- At the magic pair the buffer starts with it. -/
theorem eq_cons_of_magicPos (h : magicPos src = some 0) :
    ∃ body, src = frameMagic.1 :: frameMagic.2 :: body := by
  match src with
  | [] => cases h
  | [_] => cases h
  | b₀ :: b₁ :: body =>
      rw [magicPos_cons_cons] at h
      split at h
      · next hpair => exact ⟨body, by rw [hpair.1, hpair.2]⟩
      · obtain ⟨k, -, hk⟩ := Option.map_eq_some_iff.mp h
        exact absurd hk (Nat.succ_ne_zero k)

/-- A move at a whole header. -/
theorem move_header (parse : Bytes → Option M) (msb lsb : UInt8) (body : Bytes) :
    (frames parse).move (frameMagic.1 :: frameMagic.2 :: msb :: lsb :: body) =
      if maxPacketSize < payloadLen msb lsb then some (none, msb :: lsb :: body)
      else if body.length < payloadLen msb lsb then none
      else if payloadLen msb lsb = 0 then some (none, body)
      else some (parse (body.take (payloadLen msb lsb)), body.drop (payloadLen msb lsb)) := by
  rw [frames_move, frameMove, if_pos ⟨rfl, rfl⟩]

/-- What a turn of the loop does, in terms of the scanner. -/
inductive Turns (parse : Bytes → Option M) (src : Bytes) : Turn M → Prop where
  | again {rest : Bytes} (hlt : rest.length < src.length)
      (h : (frames parse).drain src = (frames parse).drain rest) : Turns parse src (.again rest)
  | wait {rest : Bytes} (h : (frames parse).drain src = ([], rest)) :
      Turns parse src (.done (.ok none) rest)
  | item {msg : M} {rest : Bytes} (hlt : rest.length < src.length)
      (h : (frames parse).drain src =
        (msg :: ((frames parse).drain rest).1, ((frames parse).drain rest).2)) :
      Turns parse src (.done (.ok (some msg)) rest)

/-- A turn at a whole header. -/
theorem turn_header (parse : Bytes → Option M) (msb lsb : UInt8) (body : Bytes) :
    turn parse (frameMagic.1 :: frameMagic.2 :: msb :: lsb :: body) =
      if maxPacketSize < payloadLen msb lsb then .again (msb :: lsb :: body)
      else if payloadLen msb lsb = 0 then .again body
      else if body.length < payloadLen msb lsb then
        .done (.ok none) (frameMagic.1 :: frameMagic.2 :: msb :: lsb :: body)
      else
        match parse (body.take (payloadLen msb lsb)) with
        | some msg => .done (.ok (some msg)) (body.drop (payloadLen msb lsb))
        | none => .again (body.drop (payloadLen msb lsb)) := by
  have hlen : ∀ k, (frameMagic.1 :: frameMagic.2 :: msb :: lsb :: body).length < 4 + k ↔
      body.length < k := by
    intro k
    simp only [List.length_cons]
    omega
  have hfour : ¬ (frameMagic.1 :: frameMagic.2 :: msb :: lsb :: body).length < 4 := by simp
  have hpos : magicPos (frameMagic.1 :: frameMagic.2 :: msb :: lsb :: body) = some 0 := by
    rw [magicPos_cons_cons, if_pos ⟨rfl, rfl⟩]
  rw [turn, if_neg (by simp), hpos]
  simp only [if_neg hfour, hlen, List.getElem?_cons_succ, List.getElem?_cons_zero,
    List.drop_succ_cons, List.drop_zero]

theorem turns_header (parse : Bytes → Option M) (msb lsb : UInt8) (body : Bytes) :
    Turns parse (frameMagic.1 :: frameMagic.2 :: msb :: lsb :: body)
      (turn parse (frameMagic.1 :: frameMagic.2 :: msb :: lsb :: body)) := by
  have hmove := move_header parse msb lsb body
  rw [turn_header]
  split
  · next hbig =>
    rw [if_pos hbig] at hmove
    exact .again (by simp) (Scanner.drain_of_some hmove)
  · next hbig =>
    rw [if_neg hbig] at hmove
    split
    · next hzero =>
      rw [if_neg (by omega), if_pos hzero] at hmove
      exact .again (by simp only [List.length_cons]; omega) (Scanner.drain_of_some hmove)
    · next hzero =>
      split
      · next hshort =>
        rw [if_pos hshort] at hmove
        exact .wait (Scanner.drain_of_none hmove)
      · next hshort =>
        rw [if_neg hshort, if_neg hzero] at hmove
        have hlt : (body.drop (payloadLen msb lsb)).length <
            (frameMagic.1 :: frameMagic.2 :: msb :: lsb :: body).length := by
          simp only [List.length_drop, List.length_cons]
          omega
        have hdrain := Scanner.drain_of_some hmove
        split
        · next msg hparse =>
          rw [hparse] at hdrain
          exact .item hlt hdrain
        · next hparse =>
          rw [hparse] at hdrain
          exact .again hlt hdrain

theorem turns (parse : Bytes → Option M) (src : Bytes) : Turns parse src (turn parse src) := by
  by_cases hshort : src.length < 2
  · rw [turn, if_pos hshort]
    refine .wait ?_
    match src, hshort with
    | [], _ => rfl
    | [b], _ => rfl
  · cases hpos : magicPos src with
    | none =>
        rw [turn, if_neg hshort, hpos]
        exact .wait (drain_no_magic hpos)
    | some n =>
        cases n with
        | succ n =>
            rw [turn, if_neg hshort, hpos]
            refine .again ?_ (drain_magicPos hpos)
            rw [List.length_drop]
            omega
        | zero =>
            obtain ⟨body, rfl⟩ := eq_cons_of_magicPos hpos
            match body with
            | [] => exact .wait rfl
            | [b] => exact .wait rfl
            | msb :: lsb :: body => exact turns_header parse msb lsb body

/-- **`decode` never fails** and always ends: it waits, with nothing more to find, or
returns the next item. -/
theorem decodeLoop_spec (parse : Bytes → Option M) {fuel : Nat} (h : src.length < fuel) :
    (∃ rest, decodeLoop parse fuel src = some (.ok none, rest) ∧
        (frames parse).drain src = ([], rest)) ∨
      ∃ msg rest, decodeLoop parse fuel src = some (.ok (some msg), rest) ∧
        rest.length < src.length ∧
        (frames parse).drain src =
          (msg :: ((frames parse).drain rest).1, ((frames parse).drain rest).2) := by
  induction fuel generalizing src with
  | zero => exact absurd h (Nat.not_lt_zero _)
  | succ fuel ih =>
      have hturn := turns parse src
      rw [decodeLoop]
      generalize turn parse src = result at hturn ⊢
      cases hturn with
      | again hlt hdrain =>
          obtain ⟨rest, hloop, hrest⟩ | ⟨msg, rest, hloop, hshorter, hrest⟩ :=
            ih (hlt.trans_le (Nat.le_of_lt_succ h))
          · exact .inl ⟨rest, hloop, hdrain.trans hrest⟩
          · exact .inr ⟨msg, rest, hloop, by omega, hdrain.trans hrest⟩
      | wait hdrain => exact .inl ⟨_, rfl, hdrain⟩
      | item hlt hdrain => exact .inr ⟨_, _, rfl, hlt, hdrain⟩

theorem drainLoop_eq {fuel : Nat} (h : src.length < fuel) :
    drainLoop parse fuel src =
      some (.ok ((frames parse).drain src).1, ((frames parse).drain src).2) := by
  induction fuel generalizing src with
  | zero => exact absurd h (Nat.not_lt_zero _)
  | succ fuel ih =>
      rw [drainLoop, decode]
      obtain ⟨rest, hdecode, hdrain⟩ | ⟨msg, rest, hdecode, hlt, hdrain⟩ :=
        decodeLoop_spec parse (Nat.lt_succ_self src.length)
      · rw [hdecode, hdrain]
      · rw [hdecode, hdrain]
        simp only [ih (show rest.length < fuel by omega), Option.map_some, Except.map]

/-- Draining a buffer ends, without an error, and finds what the scanner finds. -/
theorem drain_eq (parse : Bytes → Option M) (src : Bytes) :
    drain parse src = some (.ok ((frames parse).drain src).1, ((frames parse).drain src).2) :=
  drainLoop_eq (Nat.lt_succ_self _)

theorem feed_eq (parse : Bytes → Option M) (src : Bytes) (chunks : List Bytes) :
    ∃ msgs rest, feed parse src chunks = some (.ok msgs, rest) ∧
      ∀ items, (frames parse).feed (items, src) chunks = (items ++ msgs, rest) := by
  induction chunks generalizing src with
  | nil => exact ⟨[], src, rfl, fun items => by simp [Scanner.feed]⟩
  | cons chunk chunks ih =>
      obtain ⟨msgs, rest, hfeed, hscan⟩ := ih ((frames parse).drain (src ++ chunk)).2
      refine ⟨((frames parse).drain (src ++ chunk)).1 ++ msgs, rest, ?_, fun items => ?_⟩
      · rw [feed, drain_eq]
        simp only [hfeed, Option.map_some, Except.map]
      · rw [← List.append_assoc]
        exact hscan _

/-- **Chunks do not matter**: `decode` returns no error and ends on every buffer, draining
ends, and a stream fed in chunks yields the messages and leaves the buffer that the whole
stream yields and leaves. -/
theorem decode_chunks (parse : Bytes → Option M) :
    (∀ src, ∃ msg rest, decode parse src = some (.ok msg, rest)) ∧
      (∀ src, ∃ msgs rest, drain parse src = some (.ok msgs, rest)) ∧
      ∀ chunks, feed parse [] chunks = drain parse chunks.flatten := by
  refine ⟨fun src => ?_, fun src => ⟨_, _, drain_eq parse src⟩, fun chunks => ?_⟩
  · obtain ⟨rest, h, -⟩ | ⟨msg, rest, h, -⟩ :=
      decodeLoop_spec parse (Nat.lt_succ_self src.length)
    · exact ⟨none, rest, h⟩
    · exact ⟨some msg, rest, h⟩
  · obtain ⟨msgs, rest, hfeed, hscan⟩ := feed_eq parse [] chunks
    have hwhole := hscan []
    rw [Scanner.feed_eq_drain rfl, List.nil_append] at hwhole
    rw [hfeed, drain_eq, hwhole]

/-! ## Round trip -/

theorem payloadLen_bytes {n : Nat} (h : n < 2 ^ 16) :
    payloadLen (UInt8.ofNat (n / 256)) (UInt8.ofNat n) = n := by
  simp only [payloadLen, UInt8.toNat_ofNat']
  omega

/-- **Round trip**: behind a frame that `encode` wrote, a drain goes on with the rest of
the stream, and has found its payload if that is not empty and parses. -/
theorem drain_encode {payload frame : Bytes} (h : encode payload = .ok frame)
    (hpayload : payload ≠ []) (parse : Bytes → Option M) (rest : Bytes) :
    (frames parse).drain (frame ++ rest) =
      ((parse payload).toList ++ ((frames parse).drain rest).1, ((frames parse).drain rest).2) := by
  unfold encode at h
  split at h
  · cases h
  · next hsize =>
    obtain rfl := Except.ok.inj h
    have hlen : payloadLen (UInt8.ofNat (payload.length / 256)) (UInt8.ofNat payload.length) =
        payload.length := by
      refine payloadLen_bytes (lt_of_le_of_lt (Nat.le_of_not_lt hsize) ?_)
      decide
    have hmove := move_header parse (UInt8.ofNat (payload.length / 256))
      (UInt8.ofNat payload.length) (payload ++ rest)
    rw [hlen, if_neg hsize, if_neg (by simp), if_neg (by simpa using hpayload),
      take_append_of_length rfl, drop_append_of_length rfl] at hmove
    exact Scanner.drain_of_some hmove

/-! ## Recovery from noise -/

/-- Noise in which the magic pair does not occur. -/
def Silent (noise : Bytes) : Prop := ¬ [frameMagic.1, frameMagic.2] <:+: noise

instance (noise : Bytes) : Decidable (Silent noise) := inferInstanceAs (Decidable (¬ _))

theorem Silent.tail {b : UInt8} (h : Silent (b :: noise)) : Silent noise :=
  fun hpair => h (hpair.trans (List.suffix_cons b noise).isInfix)

theorem Silent.ne_magic {b₀ b₁ : UInt8} (h : Silent (b₀ :: b₁ :: noise)) :
    ¬ (b₀ = frameMagic.1 ∧ b₁ = frameMagic.2) := by
  rintro ⟨rfl, rfl⟩
  exact h (List.prefix_append [frameMagic.1, frameMagic.2] noise).isInfix

theorem Silent.magicPos (h : Silent noise) : magicPos noise = none := by
  induction noise with
  | nil => rfl
  | cons b₀ noise ih =>
      cases noise with
      | nil => rfl
      | cons b₁ noise => rw [magicPos_cons_cons, if_neg h.ne_magic, ih h.tail, Option.map_none]

/-- Noise before a frame is thrown away: its last byte cannot make a pair with the first byte
of the frame. -/
theorem Silent.drain_append (h : Silent noise) (src : Bytes) :
    (frames parse).drain (noise ++ frameMagic.1 :: src) =
      (frames parse).drain (frameMagic.1 :: src) := by
  induction noise with
  | nil => rfl
  | cons b₀ noise ih =>
      cases noise with
      | nil => exact drain_skip (fun hpair => absurd hpair.2 (by decide)) src
      | cons b₁ noise =>
          rw [← ih h.tail]
          exact drain_skip h.ne_magic (noise ++ frameMagic.1 :: src)

theorem eq_cons_of_encode {payload frame : Bytes} (h : encode payload = .ok frame) :
    ∃ body, frame = frameMagic.1 :: body := by
  unfold encode at h
  split at h
  · cases h
  · exact ⟨_, (Except.ok.inj h).symm⟩

/-- A stream of the frames of `msgs`, with noise before, between and after them. -/
inductive Noisy (toBytes : M → Bytes) : List M → Bytes → Prop where
  | last {noise : Bytes} (hnoise : Silent noise) : Noisy toBytes [] noise
  | frame {noise frame rest : Bytes} {msg : M} {msgs : List M} (hnoise : Silent noise)
      (hne : toBytes msg ≠ []) (hencode : encode (toBytes msg) = .ok frame)
      (hrest : Noisy toBytes msgs rest) : Noisy toBytes (msg :: msgs) (noise ++ frame ++ rest)

/-- The scanner finds the messages of the frames and keeps at most one byte. -/
theorem Noisy.drain {toBytes : M → Bytes} {msgs : List M} (h : Noisy toBytes msgs src)
    (hparse : ∀ msg ∈ msgs, parse (toBytes msg) = some msg) :
    ((frames parse).drain src).1 = msgs ∧ ((frames parse).drain src).2.length ≤ 1 := by
  induction h with
  | last hnoise =>
      rw [drain_no_magic hnoise.magicPos, List.length_drop]
      exact ⟨rfl, by omega⟩
  | @frame noise frame rest msg msgs hnoise hne hencode hrest ih =>
      obtain ⟨hmsgs, hleft⟩ := ih fun m hm => hparse m (List.mem_cons_of_mem _ hm)
      obtain ⟨body, hbody⟩ := eq_cons_of_encode hencode
      have hskip : (frames parse).drain (noise ++ frame ++ rest) =
          (frames parse).drain (frame ++ rest) := by
        rw [List.append_assoc, hbody]
        exact hnoise.drain_append (body ++ rest)
      rw [hskip, drain_encode hencode hne, hparse msg List.mem_cons_self]
      exact ⟨by simp [hmsgs], hleft⟩

/-- **Frame recovery**: from frames in noise, `decode` yields exactly the messages framed,
whatever stands in the payloads and however the stream arrives; what is left is at most the
last byte. -/
theorem drain_noisy {parse : Bytes → Option M} {toBytes : M → Bytes} {msgs : List M} {src : Bytes}
    (h : Noisy toBytes msgs src) (hparse : ∀ msg ∈ msgs, parse (toBytes msg) = some msg) :
    ∃ rest, rest.length ≤ 1 ∧ drain parse src = some (.ok msgs, rest) ∧
      ∀ chunks : List Bytes, chunks.flatten = src →
        feed parse [] chunks = some (.ok msgs, rest) := by
  obtain ⟨hmsgs, hleft⟩ := h.drain hparse
  have hdrain : MeshCodec.drain parse src = some (.ok msgs, ((frames parse).drain src).2) := by
    rw [drain_eq, hmsgs]
  refine ⟨_, hleft, hdrain, fun chunks hchunks => ?_⟩
  rw [(decode_chunks parse).2.2, hchunks, hdrain]

/-- The first payload ends in half a magic pair, which the noise behind it completes; the
second is a magic pair. -/
theorem drain_noisy_two :
    let parse : Bytes → Option Bytes := some
    let src : Bytes := [7, 0x94] ++ [0x94, 0xC3, 0, 2, 1, 0x94] ++ ([0xC3, 0x94] ++
      [0x94, 0xC3, 0, 2, 0x94, 0xC3] ++ [9, 0x94])
    ∃ rest, drain parse src = some (.ok [[1, 0x94], [0x94, 0xC3]], rest) ∧
      feed parse [] (src.map fun b => [b]) = some (.ok [[1, 0x94], [0x94, 0xC3]], rest) := by
  intro parse src
  have hnoisy : Noisy (M := Bytes) id [[1, 0x94], [0x94, 0xC3]] src :=
    .frame (by decide) (by decide) rfl (.frame (by decide) (by decide) rfl (.last (by decide)))
  obtain ⟨rest, -, hdrain, hfeed⟩ := @drain_noisy Bytes parse id _ src hnoisy fun msg _ => rfl
  exact ⟨rest, hdrain, hfeed _ (by decide)⟩

end MeshCodec

end Akroasis.Mesh
