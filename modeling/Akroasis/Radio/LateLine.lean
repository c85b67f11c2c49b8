import Akroasis.Radio.Transfer

/-!
# Akroasis.Radio.LateLine

Downloads over a line that may be slow.  The radio answers each read command with the
header and the stored bytes, in order and uncorrupted, but an answer may come after the
read has timed out.  It then stays on the line, and a later read takes it for its own.

The bytes on the way to the host are the rest of the answer that has been read in part, and
whole answers behind it.  A schedule says how many of them are there before a read gives up.
The driver recognises an answer by its header alone: if it asks for a block while the rest
of an earlier answer begins with the very header it expects, it takes stored bytes for a
header.  `misled` keeps whether that has happened.  It is the only way to a wrong image
(`getElem?_downloadImage_of_not_misled`): the bytes of a header are no `0x58` but the first
one, so that no header is found across the boundary between two answers.
-/

namespace Akroasis.Radio

open Driver

/-- A radio at the end of a slow line. -/
structure LateLine where
  memory : Memory
  /-- What is unread of an answer that has been read in part. -/
  rest : Bytes
  /-- The answers behind it. -/
  answers : List Bytes
  /-- How many of the unread bytes have arrived. -/
  arrived : Nat
  /-- How many more arrive before each of the next reads gives up; `none` if all of them do, as
  before every read after those. -/
  schedule : List (Option Nat)
  /-- A block has been asked for while `rest` began with its header. -/
  misled : Bool

namespace LateLine

variable {l l' : LateLine} {addr : UInt16} {len : UInt8} {n : Nat} {image : MemoryImage}

/-- A radio in programming mode, with nothing on the line. -/
def opened (memory : Memory) (schedule : List (Option Nat)) : LateLine :=
  ⟨memory, [], [], 0, schedule, false⟩

/-- The header of the answer to a read command. -/
def header (high low len : UInt8) : Bytes := [cmdReadResponse, high, low, len]

/-- The answer to a read command. -/
def answer (memory : Memory) (high low len : UInt8) : Bytes :=
  header high low len ++ memory.fetch (high.toNat * 256 + low.toNat) len.toNat

/-- The bytes on the way to the host. -/
def unread (l : LateLine) : Bytes := l.rest ++ l.answers.flatten

/-- How many unread bytes have arrived when the next read gives up. -/
def arrivals (l : LateLine) : Nat :=
  match l.schedule with
  | some more :: _ => min l.unread.length (l.arrived + more)
  | _ => l.unread.length

theorem arrivals_le : l.arrivals ≤ l.unread.length := by
  rw [arrivals]
  split
  · exact Nat.min_le_left _ _
  · exact le_rfl

/-- What is unread, as the rest of an answer and whole answers, after `n` bytes have been read. -/
def skip : Nat → Bytes → List Bytes → Bytes × List Bytes
  | n, rest, [] => (rest.drop n, [])
  | n, rest, first :: more =>
      if n ≤ rest.length then (rest.drop n, first :: more) else skip (n - rest.length) first more

/-- The line after a read has taken `n` of the bytes that have arrived. -/
def take (l : LateLine) (n : Nat) : LateLine :=
  { l with
    rest := (skip n l.rest l.answers).1
    answers := (skip n l.rest l.answers).2
    arrived := l.arrivals - n
    schedule := l.schedule.tail }

/-- Bytes that the host has sent: a read command, or anything else, such as the acknowledgement
of a block, to which the radio does not answer. -/
def receive (l : LateLine) : Bytes → LateLine
  | [command, high, low, len] =>
      if command = cmdRead then
        { l with
          answers := l.answers ++ [answer l.memory high low len]
          misled := l.misled || decide (l.rest.take 4 = header high low len) }
      else l
  | _ => l

/-- The line to the radio.  A read that times out has taken what was there. -/
def line : SerialPort LateLine where
  writeAll packet := ofExec fun l => (.ok ⟨⟩, l.receive packet)
  readExact n := ofExec fun l =>
    if h : n ≤ l.arrivals then
      (.ok ⟨l.unread.take n, List.length_take_of_le (h.trans arrivals_le)⟩, l.take n)
    else (.error (.timedOut "timed out"), l.take l.arrivals)

/-! ## Single calls -/

theorem exec_writeAll {ε : Type} {f : IoError → ε} {packet : Bytes} :
    exec ((line.writeAll packet).mapErr f) l = (.ok ⟨⟩, l.receive packet) := rfl

theorem exec_readExactTimeout (h : n ≤ l.arrivals) : exec (readExactTimeout line n) l =
    (.ok ⟨l.unread.take n, List.length_take_of_le (h.trans arrivals_le)⟩, l.take n) := by
  have hread : exec (line.readExact n) l =
      (.ok ⟨l.unread.take n, List.length_take_of_le (h.trans arrivals_le)⟩, l.take n) := by
    simp [line, h]
  exact exec_mapErr_eq_ok.mpr hread

theorem exec_readExactTimeout_of_short (h : l.arrivals < n) :
    exec (readExactTimeout line n) l = (.error .timeout, l.take l.arrivals) := by
  simp [readExactTimeout, mapErr, line, Nat.not_le.mpr h]

theorem exec_readExactTimeout_eq_ok {bytes : FixedBytes n}
    (h : exec (readExactTimeout line n) l = (.ok bytes, l')) :
    bytes.val = l.unread.take n ∧ l' = l.take n := by
  by_cases hn : n ≤ l.arrivals
  · rw [exec_readExactTimeout hn] at h
    obtain ⟨hbytes, hline⟩ := Prod.mk.inj h
    exact ⟨congrArg Subtype.val (Except.ok.inj hbytes).symm, hline.symm⟩
  · rw [exec_readExactTimeout_of_short (Nat.not_le.mp hn)] at h
    simp at h

/-- A read command. -/
theorem receive_cmdRead {high low : UInt8} : l.receive [cmdRead, high, low, len] =
    { l with
      answers := l.answers ++ [answer l.memory high low len]
      misled := l.misled || decide (l.rest.take 4 = header high low len) } := by
  rw [receive, if_pos rfl]

theorem exec_sendAck : exec (sendAck line) l = (.ok ⟨⟩, l) := rfl

/-! ## What every call keeps -/

/-- Behind the first answer there are whole answers of the radio. -/
def Answering (l : LateLine) : Prop :=
  ∀ a ∈ l.answers, ∃ high low len, a = answer l.memory high low len

/-- What a call keeps whatever its outcome. -/
structure Keeps (l l' : LateLine) : Prop where
  memory : l'.memory = l.memory
  answering : l.Answering → l'.Answering
  misled : l.misled = true → l'.misled = true

theorem Keeps.refl (l : LateLine) : Keeps l l := ⟨rfl, id, id⟩

theorem Keeps.trans (s t u : LateLine) (h : Keeps s t) (h' : Keeps t u) : Keeps s u :=
  ⟨h'.memory.trans h.memory, fun hs => h'.answering (h.answering hs),
    fun hs => h'.misled (h.misled hs)⟩

theorem Keeps.not_misled (h : Keeps l l') (hl' : l'.misled = false) : l.misled = false :=
  Bool.eq_false_iff.mpr fun hl => Bool.eq_false_iff.mp hl' (h.misled hl)

theorem mem_of_mem_skip {rest a : Bytes} {answers : List Bytes} (h : a ∈ (skip n rest answers).2) :
    a ∈ answers := by
  induction answers generalizing n rest with
  | nil => simp [skip] at h
  | cons first more ih =>
      rw [skip] at h
      split at h
      · exact h
      · exact List.mem_cons_of_mem first (ih h)

theorem keeps_take (l : LateLine) (n : Nat) : Keeps l (l.take n) :=
  ⟨rfl, fun h a ha => h a (mem_of_mem_skip ha), id⟩

theorem keeps_receive (l : LateLine) (high low len : UInt8) :
    Keeps l (l.receive [cmdRead, high, low, len]) := by
  rw [receive_cmdRead]
  refine ⟨rfl, fun h a ha => ?_, fun h => by simp [h]⟩
  obtain ha | ha := List.mem_append.mp ha
  · exact h a ha
  · exact ⟨high, low, len, List.mem_singleton.mp ha⟩

theorem moves_readExactTimeout (n : Nat) : Moves Keeps (readExactTimeout line n) := by
  intro l
  by_cases hn : n ≤ l.arrivals
  · rw [exec_readExactTimeout hn]
    exact keeps_take l n
  · rw [exec_readExactTimeout_of_short (Nat.not_le.mp hn)]
    exact keeps_take l _

theorem moves_readBlock (addr : UInt16) (len : UInt8) : Moves Keeps (readBlock line addr len) := by
  rw [readBlock]
  refine Moves.bind Keeps.trans (fun l => keeps_receive l _ _ _) fun _ => ?_
  refine (moves_readExactTimeout 4).bind Keeps.trans fun bytes => ?_
  split
  · exact Keeps.refl
  · exact (moves_readExactTimeout _).bind Keeps.trans fun data => Keeps.refl

theorem moves_readBlockWithRetry (addr : UInt16) (len : UInt8) :
    Moves Keeps (readBlockWithRetry line addr len) :=
  (moves_readBlock addr len).retrying Keeps.trans Keeps.refl _

/-! ## Headers -/

/-- The header of the answer to a block. -/
abbrev headerOf (addr : UInt16) (len : UInt8) : Bytes := header (addrHigh addr) (addrLow addr) len

/-- Only the first byte of the block's header is the one that starts a header. -/
structure StartsOnce (addr : UInt16) (len : UInt8) : Prop where
  high : addrHigh addr ≠ cmdReadResponse
  low : addrLow addr ≠ cmdReadResponse
  len : len ≠ cmdReadResponse

theorem startsOnce_of_aligned (haligned : addr.toNat % 16 = 0) (hsmall : addr.toNat < 0x2000)
    (hlen : len ≠ cmdReadResponse) : StartsOnce addr len := by
  refine ⟨fun h => ?_, fun h => ?_, hlen⟩
  · have hnat := congrArg UInt8.toNat h
    simp only [addrHigh, UInt8.toNat_ofNat', cmdReadResponse, UInt8.reduceToNat] at hnat
    omega
  · have hnat := congrArg UInt8.toNat h
    simp only [addrLow, UInt8.toNat_ofNat', cmdReadResponse, UInt8.reduceToNat] at hnat
    omega

/-- **A header is that of a whole answer** unless the rest of the answer before begins with it. -/
theorem answer_of_header (honce : StartsOnce addr len) (hanswering : l.Answering)
    (hne : l.answers ≠ []) (hclear : l.rest.take 4 ≠ headerOf addr len)
    (hread : l.unread.take 4 = headerOf addr len) :
    l.rest = [] ∧ ∃ more,
      l.answers = answer l.memory (addrHigh addr) (addrLow addr) len :: more := by
  obtain ⟨first, more, hanswers⟩ := List.exists_cons_of_ne_nil hne
  obtain ⟨high, low, len', rfl⟩ := hanswering first (hanswers ▸ List.mem_cons_self)
  rw [unread, hanswers] at hread
  -- how much of the header would be taken from the rest
  match hrest : l.rest with
  | [] =>
      simp only [hrest, answer, header, headerOf, List.nil_append, List.flatten_cons,
        List.cons_append, List.take_succ_cons, List.take_zero, List.cons.injEq, true_and,
        and_true] at hread
      obtain ⟨rfl, rfl, rfl⟩ := hread
      exact ⟨rfl, more, hanswers⟩
  | [_] =>
      simp only [hrest, answer, header, headerOf, List.flatten_cons, List.cons_append,
        List.nil_append, List.take_succ_cons, List.take_zero, List.cons.injEq] at hread
      exact absurd hread.2.1.symm honce.high
  | [_, _] =>
      simp only [hrest, answer, header, headerOf, List.flatten_cons, List.cons_append,
        List.nil_append, List.take_succ_cons, List.take_zero, List.cons.injEq] at hread
      exact absurd hread.2.2.1.symm honce.low
  | [_, _, _] =>
      simp only [hrest, answer, header, headerOf, List.flatten_cons, List.cons_append,
        List.nil_append, List.take_succ_cons, List.take_zero, List.cons.injEq] at hread
      exact absurd hread.2.2.2.1.symm honce.len
  | _ :: _ :: _ :: _ :: _ =>
      rw [hrest] at hread hclear
      exact absurd hread hclear

/-- What is unread after the header of a whole answer. -/
theorem skip_header (memory : Memory) (high low len : UInt8) (more : List Bytes) :
    skip 4 [] (answer memory high low len :: more) =
      (memory.fetch (high.toNat * 256 + low.toNat) len.toNat, more) := by
  rw [skip, if_neg (by simp)]
  cases more with
  | nil => rfl
  | cons second more =>
      rw [skip, if_pos]
      · rfl
      · simp [answer, header]

/-- What is unread after the rest of an answer. -/
theorem skip_rest (rest : Bytes) (answers : List Bytes) :
    skip rest.length rest answers = ([], answers) := by
  cases answers <;> simp [skip]

/-- **A block that is read without being misled** is the one in the memory. -/
theorem fetch_of_readBlock {data : Bytes} (honce : StartsOnce addr len) (hanswering : l.Answering)
    (h : exec (readBlock line addr len) l = (.ok data, l')) (hmisled : l'.misled = false) :
    data = l.memory.fetch addr.toNat len.toNat := by
  obtain ⟨_, asked, hasked, h⟩ := exec_bind_eq_ok.mp h
  obtain rfl : l.receive [cmdRead, addrHigh addr, addrLow addr, len] = asked :=
    congrArg Prod.snd hasked
  obtain ⟨bytes, behind, hheader, h⟩ := exec_bind_eq_ok.mp h
  obtain ⟨hbytes, rfl⟩ := exec_readExactTimeout_eq_ok hheader
  split at h
  · simp at h
  · next hmatch =>
      obtain ⟨body, done, hbody, h⟩ := exec_bind_eq_ok.mp h
      obtain ⟨hdata, rfl⟩ := exec_readExactTimeout_eq_ok hbody
      rw [exec_bind_ok exec_sendAck, exec_pure] at h
      obtain ⟨hok, rfl⟩ := Prod.mk.inj h
      have hkeeps := keeps_receive l (addrHigh addr) (addrLow addr) len
      rw [Decidable.not_not, hbytes] at hmatch
      have hclear : l.rest.take 4 ≠ headerOf addr len := by
        have hflag : (l.receive [cmdRead, addrHigh addr, addrLow addr, len]).misled = false :=
          hmisled
        rw [receive_cmdRead] at hflag
        simpa using (Bool.or_eq_false_iff.mp hflag).2
      have hne : (l.receive [cmdRead, addrHigh addr, addrLow addr, len]).answers ≠ [] := by
        simp [receive_cmdRead]
      have hrest : (l.receive [cmdRead, addrHigh addr, addrLow addr, len]).rest = l.rest := by
        rw [receive_cmdRead]
      obtain ⟨hempty, more, hanswers⟩ := answer_of_header honce (hkeeps.answering hanswering) hne
        (hrest.symm ▸ hclear) hmatch
      rw [← Except.ok.inj hok, hdata, unread, take, hempty, hanswers, skip_header,
        Device.toNat_addrHigh_addrLow, hkeeps.memory, take_append_of_length Memory.length_fetch]

/-! ## Blocks and images -/

theorem fetch_of_readBlockWithRetry {data : Bytes} (honce : StartsOnce addr len)
    (hanswering : l.Answering) (h : exec (readBlockWithRetry line addr len) l = (.ok data, l'))
    (hmisled : l'.misled = false) : data = l.memory.fetch addr.toNat len.toNat := by
  refine retrying_induction
    (motive := fun l l' => l.Answering → l'.misled = false →
      data = l.memory.fetch addr.toNat len.toNat)
    (fun l l' hread hanswering hmisled => fetch_of_readBlock honce hanswering hread hmisled) ?_
    h hanswering hmisled
  intro l failed l' e hfailed ih hanswering hmisled
  have hkeeps := (moves_readBlock addr len).of_exec hfailed
  rw [← hkeeps.memory]
  exact ih (hkeeps.answering hanswering) hmisled

theorem moves_readBlocks (len : UInt8) (addrs : List UInt16) (image : MemoryImage) :
    Moves Keeps (readBlocks line len addrs image) := by
  induction addrs generalizing image with
  | nil => exact Keeps.refl
  | cons addr addrs ih =>
      exact (moves_readBlockWithRetry addr len).bind Keeps.trans fun data => ih _

/-- Blocks that are read without being misled are copied from the memory. -/
theorem loadBlocks_of_readBlocks {addrs : List UInt16} {image' : MemoryImage}
    (honce : ∀ addr ∈ addrs, StartsOnce addr len) (hanswering : l.Answering)
    (h : exec (readBlocks line len addrs image) l = (.ok image', l'))
    (hmisled : l'.misled = false) :
    image' = Memory.loadBlocks image l.memory len.toNat (addrs.map UInt16.toNat) := by
  induction addrs generalizing image l with
  | nil => exact (Except.ok.inj (congrArg Prod.fst h)).symm
  | cons addr addrs ih =>
      obtain ⟨data, after, hread, hrest⟩ := exec_bind_eq_ok.mp h
      have hkeeps := (moves_readBlockWithRetry addr len).of_exec hread
      have hdata := fetch_of_readBlockWithRetry (honce addr List.mem_cons_self) hanswering hread
        (((moves_readBlocks len addrs _).of_exec hrest).not_misled hmisled)
      rw [ih (fun b hb => honce b (List.mem_cons_of_mem addr hb)) (hkeeps.answering hanswering)
        hrest, hdata, hkeeps.memory]
      rfl

theorem startsOnce_of_mem_blockAddrs {start stop : UInt16} {size : UInt8}
    (hstart : start.toNat % 16 = 0) (hsize : size.toNat % 16 = 0) (hstop : stop.toNat ≤ 0x2000)
    (hlen : len ≠ cmdReadResponse) (h : addr ∈ blockAddrs start stop size) :
    StartsOnce addr len := by
  obtain ⟨b, hb, rfl⟩ := List.mem_map.mp h
  have hlt := Memory.lt_of_mem_blocks hb
  obtain ⟨i, -, rfl⟩ := List.mem_range'.mp hb
  have haddr : (UInt16.ofNat (start.toNat + size.toNat * i)).toNat = start.toNat + size.toNat * i :=
    UInt16.toNat_ofNat_of_lt' (hlt.trans stop.toNat_lt)
  apply startsOnce_of_aligned _ _ hlen
  · rw [haddr, Nat.add_mod, Nat.mul_mod, hstart, hsize]
    simp
  · omega

/-- **A download that is not misled** returns the image of the memory. -/
theorem downloaded_of_downloadImage {config : VariantConfig}
    (hanswering : l.Answering) (h : exec (downloadImage line config) l = (.ok image, l'))
    (hmisled : l'.misled = false) : image = downloaded config l.memory := by
  have hmain : ∀ addr ∈ blockAddrs mainBlockStart mainBlockEnd readBlockSize,
      StartsOnce addr readBlockSize := fun addr =>
    startsOnce_of_mem_blockAddrs (by decide) (by decide) (by decide) (by decide)
  have haux (start : UInt16) (hstart : start.toNat % 16 = 0) :
      ∀ addr ∈ blockAddrs start auxBlockEnd auxReadBlockSize, StartsOnce addr auxReadBlockSize :=
    fun addr => startsOnce_of_mem_blockAddrs hstart (by decide) (by decide) (by decide)
  obtain ⟨main, after, hread, h⟩ := exec_bind_eq_ok.mp h
  have hkeeps := (moves_readBlocks _ _ _).of_exec hread
  have hanswers := hkeeps.answering hanswering
  have hpart (hclear : after.misled = false) :
      main = mainPart (if config.hasAuxBlock then 0x2000 else 0x1800) l.memory := by
    rw [loadBlocks_of_readBlocks hmain hanswering hread hclear, toNat_blockAddrs]
    rfl
  rw [downloaded]
  cases hconfig : config.hasAuxBlock with
  | false =>
      simp only [hconfig, Bool.not_false, if_true, exec_pure, Prod.mk.injEq,
        Except.ok.injEq] at h hpart
      obtain ⟨rfl, rfl⟩ := h
      exact hpart hmisled
  | true =>
      simp only [hconfig, Bool.not_true, Bool.false_eq_true, if_false, if_true] at h hpart ⊢
      cases hwarmup : config.needsAuxWarmup with
      | false =>
          simp only [hwarmup, Bool.false_eq_true, if_false] at h
          have hclear := ((moves_readBlocks _ _ _).of_exec h).not_misled hmisled
          rw [loadBlocks_of_readBlocks (haux _ (by decide)) hanswers h hmisled, toNat_blockAddrs,
            hpart hclear, hkeeps.memory]
          rfl
      -- the warm-up read is the first block of the auxiliary block
      | true =>
          simp only [hwarmup, if_true] at h
          obtain ⟨first, warm, hfirst, h⟩ := exec_bind_eq_ok.mp h
          have hwarm := (moves_readBlockWithRetry _ _).of_exec hfirst
          have hclear := ((moves_readBlocks _ _ _).of_exec h).not_misled hmisled
          have honce : StartsOnce auxBlockStart auxReadBlockSize :=
            ⟨by decide, by decide, by decide⟩
          have hdata := fetch_of_readBlockWithRetry honce hanswers hfirst hclear
          have hblocks : Memory.blocks 0x1E80 0x2000 16 = 0x1E80 ::
              Memory.blocks 0x1E90 0x2000 16 := rfl
          rw [loadBlocks_of_readBlocks (haux _ (by decide)) (hwarm.answering hanswers) h hmisled,
            toNat_blockAddrs, hpart (hwarm.not_misled hclear), hwarm.memory, hdata, hkeeps.memory,
            hblocks, Memory.loadBlocks_cons]
          rfl

/-- **Late answers do not reach the image** of a download in which no block is asked for while
the rest of an earlier answer begins with the header of the block. -/
theorem getElem?_downloadImage_of_not_misled (config : VariantConfig) (memory : Memory)
    (schedule : List (Option Nat))
    (h : exec (downloadImage line config) (opened memory schedule) = (.ok image, l'))
    (hmisled : l'.misled = false) (a : Nat) (ha : Downloaded config a) :
    image[a]? = some (memory a) := by
  have hanswering : (opened memory schedule).Answering := fun a ha => absurd ha List.not_mem_nil
  obtain rfl := downloaded_of_downloadImage hanswering h hmisled
  have hlen : a < (downloaded config memory).length := by
    rw [length_downloaded]
    simp only [Downloaded, mainBlockStart, mainBlockEnd, auxBlockStart, auxBlockEnd,
      UInt16.reduceToNat] at ha
    split
    · omega
    · next haux =>
        exact (ha.resolve_right fun h => haux h.1).2
  have hbyte := getElem?_downloaded memory hlen
  rwa [if_pos ha] at hbyte

/-! ## Answers on time, and one that is late -/

section Schedules

variable {memory : Memory} {later : List (Option Nat)}

/-- A read for which everything is there in time. -/
theorem exec_readExactTimeout_onTime {xs ys : Bytes} (hschedule : l.schedule = none :: later)
    (hunread : l.unread = xs ++ ys) (hlen : xs.length = n) :
    exec (readExactTimeout line n) l =
      (.ok ⟨xs, hlen⟩,
        { l with
          rest := (skip n l.rest l.answers).1
          answers := (skip n l.rest l.answers).2
          arrived := ys.length
          schedule := later }) := by
  have harrivals : l.arrivals = n + ys.length := by
    rw [arrivals, hschedule]
    simp only [hunread, List.length_append, hlen]
  have hbytes : l.unread.take n = xs := by rw [hunread, take_append_of_length hlen]
  rw [exec_readExactTimeout (by omega)]
  simp [take, harrivals, hschedule, hbytes]

/-- A block whose answer is the first one on the line. -/
theorem exec_readBlock_of_front {answers more : List Bytes} {arrived : Nat}
    (hfront : answers ++ [answer memory (addrHigh addr) (addrLow addr) len] =
      answer memory (addrHigh addr) (addrLow addr) len :: more) :
    exec (readBlock line addr len) ⟨memory, [], answers, arrived, none :: none :: later, false⟩ =
      (.ok (memory.fetch addr.toNat len.toNat),
        ⟨memory, [], more, more.flatten.length, later, false⟩) := by
  let front := answer memory (addrHigh addr) (addrLow addr) len
  let body := memory.fetch addr.toNat len.toNat
  have hbody : body.length = len.toNat := Memory.length_fetch
  have hskip : skip 4 [] (front :: more) = (body, more) := by
    rw [skip_header, Device.toNat_addrHigh_addrLow]
  let asked : LateLine := ⟨memory, [], front :: more, arrived, none :: none :: later, false⟩
  have hasked : LateLine.receive ⟨memory, [], answers, arrived, none :: none :: later, false⟩
      [cmdRead, addrHigh addr, addrLow addr, len] = asked := by
    simp [receive_cmdRead, hfront, front, header, asked]
  have hunread : asked.unread = headerOf addr len ++ (body ++ more.flatten) := by
    simp [unread, asked, front, answer, body, Device.toNat_addrHigh_addrLow]
  have hlen : (headerOf addr len).length = 4 := rfl
  have hheader : exec (readExactTimeout line 4) asked = (.ok ⟨headerOf addr len, hlen⟩,
      ⟨memory, body, more, (body ++ more.flatten).length, none :: later, false⟩) := by
    rw [exec_readExactTimeout_onTime rfl hunread hlen]
    simp only [asked, hskip]
  have hdata : exec (readExactTimeout line len.toNat)
      ⟨memory, body, more, (body ++ more.flatten).length, none :: later, false⟩ =
        (.ok ⟨body, hbody⟩, ⟨memory, [], more, more.flatten.length, later, false⟩) := by
    rw [exec_readExactTimeout_onTime rfl (show _ = body ++ more.flatten from rfl) hbody]
    simp only [← hbody, skip_rest]
  rw [readBlock, exec_bind_ok exec_writeAll, hasked, exec_bind_ok hheader,
    if_neg (by simp [headerOf, header]), exec_bind_ok hdata, exec_bind_ok exec_sendAck, exec_pure]

/-- Blocks that are answered in time. -/
theorem exec_readBlocks_onTime (memory : Memory) (later : List (Option Nat)) (len : UInt8)
    (addrs : List UInt16) (image : MemoryImage) :
    exec (readBlocks line len addrs image)
        (opened memory (List.replicate (2 * addrs.length) none ++ later)) =
      (.ok (Memory.loadBlocks image memory len.toNat (addrs.map UInt16.toNat)),
        opened memory later) := by
  induction addrs generalizing image with
  | nil => rfl
  | cons addr addrs ih =>
      have hread : exec (readBlockWithRetry line addr len)
          (opened memory (none :: none :: (List.replicate (2 * addrs.length) none ++ later))) =
            (.ok (memory.fetch addr.toNat len.toNat),
              opened memory (List.replicate (2 * addrs.length) none ++ later)) :=
        exec_retrying_of_ok (exec_readBlock_of_front (List.nil_append _))
      exact (exec_bind_ok hread).trans (ih _)

/-- A block whose answer comes after the first attempt has timed out.  The answer to the second
attempt stays on the line. -/
theorem exec_readBlockWithRetry_late :
    exec (readBlockWithRetry line addr len) (opened memory (some 0 :: none :: none :: later)) =
      (.ok (memory.fetch addr.toNat len.toNat),
        ⟨memory, [], [answer memory (addrHigh addr) (addrLow addr) len], 4 + len.toNat, later,
          false⟩) := by
  let front := answer memory (addrHigh addr) (addrLow addr) len
  have hasked : (opened memory (some 0 :: none :: none :: later)).receive
      [cmdRead, addrHigh addr, addrLow addr, len] =
        ⟨memory, [], [front], 0, some 0 :: none :: none :: later, false⟩ := by
    simp [receive_cmdRead, opened, front, header]
  have htimeout : exec (readExactTimeout line 4)
      ⟨memory, [], [front], 0, some 0 :: none :: none :: later, false⟩ =
        (.error .timeout, ⟨memory, [], [front], 0, none :: none :: later, false⟩) := by
    rw [exec_readExactTimeout_of_short (by simp [arrivals])]
    simp [take, skip, arrivals]
  have hfirst : exec (readBlock line addr len) (opened memory (some 0 :: none :: none :: later)) =
      (.error .timeout, ⟨memory, [], [front], 0, none :: none :: later, false⟩) := by
    rw [readBlock, exec_bind_ok exec_writeAll, hasked, exec_bind_error htimeout]
  have hsecond :
      exec (readBlock line addr len) ⟨memory, [], [front], 0, none :: none :: later, false⟩ =
      (.ok (memory.fetch addr.toNat len.toNat),
        ⟨memory, [], [front], 4 + len.toNat, later, false⟩) := by
    have hlen : [front].flatten.length = 4 + len.toNat := by
      simp only [List.flatten_singleton, front, answer, List.length_append, Memory.length_fetch]
      rfl
    rw [exec_readBlock_of_front (show [front] ++ [front] = front :: [front] from rfl), hlen]
  exact (exec_retrying_of_error hfirst rfl).trans (exec_retrying_of_ok hsecond)

theorem exec_readBlocks_append {first second : List UInt16} {image image' : MemoryImage}
    (h : exec (readBlocks line len first image) l = (.ok image', l')) :
    exec (readBlocks line len (first ++ second) image) l =
      exec (readBlocks line len second image') l' := by
  induction first generalizing image l with
  | nil =>
      obtain ⟨himage, rfl⟩ := Prod.mk.inj h
      rw [Except.ok.inj himage, List.nil_append]
  | cons addr first ih =>
      obtain ⟨data, after, hread, hrest⟩ := exec_bind_eq_ok.mp h
      exact (exec_bind_ok hread).trans (ih hrest)

/-- A download of a UV-5R whose blocks below `stop` are answered in time. -/
theorem exec_downloadImage_uv5r (memory : Memory) (later : List (Option Nat)) {stop : UInt16}
    {late : List UInt16} {count : Nat}
    (hblocks : blockAddrs mainBlockStart mainBlockEnd readBlockSize =
      blockAddrs mainBlockStart stop readBlockSize ++ late)
    (hcount : 2 * (blockAddrs mainBlockStart stop readBlockSize).length = count) :
    exec (downloadImage line uv5rConfig) (opened memory (List.replicate count none ++ later)) =
      exec (readBlocks line readBlockSize late
        (Memory.loadBlocks (MemoryImage.new 0x1800) memory 64 (Memory.blocks 0 stop.toNat 64)))
        (opened memory later) := by
  have hmain : downloadImage line uv5rConfig = readBlocks line readBlockSize
      (blockAddrs mainBlockStart mainBlockEnd readBlockSize) (MemoryImage.new 0x1800) :=
    bind_pure _
  have hearly := exec_readBlocks_onTime memory later readBlockSize
    (blockAddrs mainBlockStart stop readBlockSize) (MemoryImage.new 0x1800)
  rw [hcount, toNat_blockAddrs] at hearly
  rw [hmain, hblocks, exec_readBlocks_append hearly]
  rfl

end Schedules

/-- A download whose last answer is late, of a memory full of bytes that start a header. -/
theorem getElem?_downloadImage_lastLate :
    ∃ image l', exec (downloadImage line uv5rConfig) (opened (fun _ => cmdReadResponse)
        (List.replicate 190 none ++ [some 0, none, none])) = (.ok image, l') ∧ l'.misled = false ∧
      ∀ a, Downloaded uv5rConfig a → image[a]? = some cmdReadResponse := by
  have hblocks : blockAddrs mainBlockStart mainBlockEnd readBlockSize =
      blockAddrs mainBlockStart 0x17C0 readBlockSize ++ [0x17C0] := by decide
  have hcount : 2 * (blockAddrs mainBlockStart 0x17C0 readBlockSize).length = 190 := by decide
  have hdownload :=
    exec_downloadImage_uv5r (fun _ => cmdReadResponse) [some 0, none, none] hblocks hcount
  rw [readBlocks, exec_bind_ok exec_readBlockWithRetry_late, readBlocks, exec_pure] at hdownload
  exact ⟨_, _, hdownload, rfl, fun a ha =>
    getElem?_downloadImage_of_not_misled uv5rConfig _ _ hdownload rfl a ha⟩

/-- A memory whose block at `0x1780` begins with the header of the block at `0x17C0`. -/
def lookalike : Memory
  | 0x1780 => 0x58
  | 0x1781 => 0x17
  | 0x1782 => 0xC0
  | 0x1783 => 0x40
  | _ => 0

/-- An answer to the block at `0x1780` is left on the line. -/
def leftover : LateLine :=
  ⟨lookalike, [], [answer lookalike (addrHigh 0x1780) (addrLow 0x1780) readBlockSize],
    4 + readBlockSize.toNat, [], false⟩

/-- The block at `0x17C0` is then read from the one before it. -/
theorem exec_readBlock_leftover :
    ∃ l', exec (readBlockWithRetry line 0x17C0 readBlockSize) leftover =
    (.ok (List.replicate 60 0 ++ headerOf 0x17C0 readBlockSize), l') := by
  have hdata : (exec (readBlockWithRetry line 0x17C0 readBlockSize) leftover).1 =
      .ok (List.replicate 60 0 ++ headerOf 0x17C0 readBlockSize) := by decide +kernel
  generalize exec (readBlockWithRetry line 0x17C0 readBlockSize) leftover = run at hdata ⊢
  exact ⟨run.2, Prod.ext hdata rfl⟩

/-- **A late answer ends up in an image**: the answer to the block at `0x1780` is late once, and
the last four bytes of the image are a header instead of the zeros in the memory. -/
theorem late_answer_in_image :
    ∃ image l', exec (downloadImage line uv5rConfig) (opened lookalike
        (List.replicate 188 none ++ [some 0, none, none])) = (.ok image, l') ∧
      Downloaded uv5rConfig 0x17FC ∧ lookalike 0x17FC = 0 ∧ image[0x17FC]? = some 0x58 := by
  have hblocks : blockAddrs mainBlockStart mainBlockEnd readBlockSize =
      blockAddrs mainBlockStart 0x1780 readBlockSize ++ [0x1780, 0x17C0] := by decide
  have hcount : 2 * (blockAddrs mainBlockStart 0x1780 readBlockSize).length = 188 := by decide
  have hdownload := exec_downloadImage_uv5r lookalike [some 0, none, none] hblocks hcount
  obtain ⟨l', hmisled⟩ := exec_readBlock_leftover
  rw [leftover] at hmisled
  rw [readBlocks, exec_bind_ok exec_readBlockWithRetry_late, readBlocks, exec_bind_ok hmisled,
    readBlocks, exec_pure] at hdownload
  have hfit : ∀ b ∈ Memory.blocks 0 (0x1780 : UInt16).toNat 64,
      b + 64 ≤ (MemoryImage.new 0x1800).length := by
    intro b hb
    have hbound : b + 64 ≤ 0x1780 := (Memory.blocks_bounds (by decide) hb).2
    rw [MemoryImage.new, List.length_replicate]
    omega
  have hearly : (Memory.loadBlocks (MemoryImage.new 0x1800) lookalike 64
      (Memory.blocks 0 (0x1780 : UInt16).toNat 64)).length = 0x1800 := by
    rw [Memory.length_loadBlocks hfit, MemoryImage.new, List.length_replicate]
  generalize Memory.loadBlocks (MemoryImage.new 0x1800) lookalike 64
    (Memory.blocks 0 (0x1780 : UInt16).toNat 64) = early at hdownload hearly
  have hlen : (Memory.overwrite early 0x1780 (lookalike.fetch 0x1780 64)).length = 0x1800 := by
    rw [Memory.length_overwrite (by rw [Memory.length_fetch, hearly]; decide), hearly]
  have hroom : 0x17C0 + (List.replicate 60 0 ++ headerOf 0x17C0 readBlockSize).length ≤
      (Memory.overwrite early 0x1780 (lookalike.fetch 0x1780 64)).length := hlen.symm ▸ by decide
  refine ⟨_, _, hdownload, by decide, rfl, ?_⟩
  exact (Memory.getElem?_overwrite hroom).trans (if_pos (by decide))

end LateLine

end Akroasis.Radio
