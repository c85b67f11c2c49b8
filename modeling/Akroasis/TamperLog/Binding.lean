import Akroasis.TamperLog.Verify

/-!
# Akroasis.TamperLog.Binding

What a terminal hash commits to (`stream_verify` and `encode_entry`): the payloads of the
file, all of them and in their order.

The assumption is on the hash and only where it is used: no two of the strings that the
two readings hash have the same hash.  A string is a payload followed by the 32 bytes of
the previous hash, so the two parts can be told apart again (`append_hash_injective`), and
the rest is `HashChain.eq_of_chain_eq`.
-/

namespace Akroasis.TamperLog

/-! ## What a file contains and what a reading hashes -/

/-- The payloads of the frames at the front of a file, read at most `fuel` times. -/
def payloadsLoop : Nat → Bytes → List Bytes
  | 0, _ => []
  | fuel + 1, bs =>
      match readFrame bs with
      | .frame payload _ rest => payload :: payloadsLoop fuel rest
      | .eof | .oversized | .shortPayload | .shortHash _ => []

/-- The payloads a file contains, whatever their hashes are. -/
def filePayloads (bs : Bytes) : List Bytes := payloadsLoop (bs.length + 1) bs

section

variable (E : Crates) (key : ChainKey)

/-- The strings that the loop of `stream_verify` hands to the hasher. -/
def readStringsLoop : Nat → Hash → Bytes → List Bytes
  | 0, _, _ => []
  | fuel + 1, prev, bs =>
      match readFrame bs with
      | .frame payload stored rest =>
          (payload ++ prev.val) ::
            if linkHash E key payload prev ≠ stored then []
            else readStringsLoop fuel (linkHash E key payload prev) rest
      | .eof | .oversized | .shortPayload | .shortHash _ => []

/-- The strings hashed while a file is read from `start`. -/
def readStrings (start : Hash) (bs : Bytes) : List Bytes :=
  readStringsLoop E key (bs.length + 1) start bs

end

variable {E : Crates} {key : ChainKey} {start : Hash}

/-! ## On a file that reads without a break -/

theorem payloadsLoop_encodeFrames {ps : List Bytes} {rest : Bytes} {fuel : Nat}
    (hlen : ∀ p ∈ ps, p.length ≤ maxEntryBytes) (hrest : rest.length < 4)
    (hfuel : ps.length < fuel) :
    payloadsLoop fuel (encodeFrames E key start ps ++ rest) = ps := by
  induction ps generalizing start fuel with
  | nil =>
      obtain ⟨fuel, rfl⟩ : ∃ f, fuel = f + 1 := ⟨fuel - 1, by omega⟩
      simp only [encodeFrames, List.nil_append, payloadsLoop, readFrame_eq_eof.mpr hrest]
  | cons p ps ih =>
      rw [List.length_cons] at hfuel
      obtain ⟨fuel, rfl⟩ : ∃ f, fuel = f + 1 := ⟨fuel - 1, by omega⟩
      rw [encodeFrames, List.append_assoc, payloadsLoop,
        readFrame_frame (hlen p List.mem_cons_self)]
      simp only
      rw [ih (fun q hq => hlen q (List.mem_cons_of_mem p hq)) (by omega)]

theorem readStringsLoop_encodeFrames {ps : List Bytes} {rest : Bytes} {fuel : Nat}
    (hlen : ∀ p ∈ ps, p.length ≤ maxEntryBytes) (hfuel : ps.length < fuel) {p : Bytes} {h : Hash}
    (hp : (p, h) ∈ HashChain.linked (linkHash E key) start ps) :
    p ++ h.val ∈ readStringsLoop E key fuel start (encodeFrames E key start ps ++ rest) := by
  induction ps generalizing start fuel with
  | nil => contradiction
  | cons q ps ih =>
      rw [List.length_cons] at hfuel
      obtain ⟨fuel, rfl⟩ : ∃ f, fuel = f + 1 := ⟨fuel - 1, by omega⟩
      rw [encodeFrames, List.append_assoc, readStringsLoop,
        readFrame_frame (hlen q List.mem_cons_self)]
      simp only [ne_eq, not_true_eq_false, if_false]
      rcases List.mem_cons.mp hp with heq | hp
      · obtain ⟨rfl, rfl⟩ := Prod.mk.inj heq
        exact List.mem_cons_self
      · exact List.mem_cons_of_mem _
          (ih (fun r hr => hlen r (List.mem_cons_of_mem q hr)) (by omega) hp)

/-- What is known of a file that `stream_verify` reads without a break. -/
theorem clean_stream {bs : Bytes} {s : StreamResult} (hread : stream E key start 0 0 bs = s)
    (hclean : s.breakStatus = none) :
    s.entriesVerified = (filePayloads bs).length ∧
      s.terminalHash = chainEnd E key start (filePayloads bs) ∧
      ∀ p h, (p, h) ∈ HashChain.linked (linkHash E key) start (filePayloads bs) →
        p ++ h.val ∈ readStrings E key start bs := by
  subst hread
  obtain ⟨ps, rest, hbs, hrest, hlen, hstream⟩ := stream_sound hclean
  have hframes := length_le_length_encodeFrames E key start ps
  have hfuel : ps.length < bs.length + 1 := by
    rw [hbs, List.length_append]
    omega
  have hpayloads : filePayloads bs = ps := by
    rw [filePayloads]
    conv => lhs; arg 2; rw [hbs]
    exact payloadsLoop_encodeFrames hlen hrest hfuel
  rw [hpayloads, hstream]
  refine ⟨Nat.zero_add _, rfl, fun p h hp => ?_⟩
  rw [readStrings]
  conv => arg 1; arg 5; rw [hbs]
  exact readStringsLoop_encodeFrames hlen hfuel hp

/-! ## Binding -/

/-- **Binding**: if the hash does not collide on the strings that two readings from one
start hash give it, then two files read without a break to the same number of entries and
the same terminal hash contain the same payloads; so a file with any other list of payloads
is found out by a break, by its number of entries or by its terminal hash. -/
theorem streamVerify_binding (E : Crates) (key : ChainKey) (start : Hash) {d₁ d₂ : Directory}
    {path₁ path₂ : FileName} {bs₁ bs₂ : Bytes} {s₁ s₂ : StreamResult}
    (hfile₁ : d₁.lookup path₁ = some bs₁) (hfile₂ : d₂.lookup path₂ = some bs₂)
    (hinj : Set.InjOn (E.keyedHash key)
      {s | s ∈ readStrings E key start bs₁ ∨ s ∈ readStrings E key start bs₂})
    (hread₁ : streamVerify E d₁ path₁ key start = .ok s₁)
    (hread₂ : streamVerify E d₂ path₂ key start = .ok s₂) (hclean : s₁.breakStatus = none) :
    (s₂.breakStatus = none → s₂.entriesVerified = s₁.entriesVerified →
      s₂.terminalHash = s₁.terminalHash → filePayloads bs₂ = filePayloads bs₁) ∧
    (filePayloads bs₂ ≠ filePayloads bs₁ → s₂.breakStatus ≠ none ∨
      s₂.entriesVerified ≠ s₁.entriesVerified ∨ s₂.terminalHash ≠ s₁.terminalHash) := by
  simp only [streamVerify, hfile₁, hfile₂, Except.ok.injEq] at hread₁ hread₂
  obtain ⟨hcount₁, hend₁, hlinked₁⟩ := clean_stream hread₁ hclean
  have hbound : s₂.breakStatus = none → s₂.entriesVerified = s₁.entriesVerified →
      s₂.terminalHash = s₁.terminalHash → filePayloads bs₂ = filePayloads bs₁ := by
    intro hclean₂ hcount hend
    obtain ⟨hcount₂, hend₂, hlinked₂⟩ := clean_stream hread₂ hclean₂
    rw [hcount₁, hcount₂] at hcount
    rw [hend₁, hend₂] at hend
    exact HashChain.eq_of_chain_eq (linkHash E key) (injOn_linkHash hinj)
      (fun p hp => .inr (hlinked₂ p.1 p.2 hp)) (fun p hp => .inl (hlinked₁ p.1 p.2 hp)) hcount hend
  refine ⟨hbound, fun hne => ?_⟩
  by_contra hsame
  simp only [not_or, not_not] at hsame
  exact hne (hbound hsame.1 hsame.2.1 hsame.2.2)

/-- A file with one entry of `sampleCrates`. -/
def oneEntry (sequence : Nat) : Bytes :=
  encodeFrames sampleCrates default default [sampleCbor sequence]

/-- The directory with that file only. -/
def oneEntryDir (sequence : Nat) : Directory :=
  (∅ : Directory).insert "audit.log".toList (oneEntry sequence)

/-- Replacing the one entry of a file by another is found out. -/
theorem streamVerify_binding_edited :
    ∃ s₁ s₂, streamVerify sampleCrates (oneEntryDir 0) "audit.log".toList default default = .ok s₁ ∧
      streamVerify sampleCrates (oneEntryDir 1) "audit.log".toList default default = .ok s₂ ∧
      s₁.breakStatus = none ∧ filePayloads (oneEntry 1) ≠ filePayloads (oneEntry 0) ∧
      (s₂.breakStatus ≠ none ∨ s₂.entriesVerified ≠ s₁.entriesVerified ∨
        s₂.terminalHash ≠ s₁.terminalHash) := by
  have hfile : ∀ n, (oneEntryDir n).lookup "audit.log".toList = some (oneEntry n) :=
    fun n => AList.lookup_insert _
  have hread : ∀ n, streamVerify sampleCrates (oneEntryDir n) "audit.log".toList default default =
      .ok (stream sampleCrates default default 0 0 (oneEntry n)) := by
    intro n
    rw [streamVerify, hfile]
  have hclean : (stream sampleCrates default default 0 0 (oneEntry 0)).breakStatus = none := by
    decide +kernel
  have hne : filePayloads (oneEntry 1) ≠ filePayloads (oneEntry 0) := by decide +kernel
  have hinj : ∀ s ∈ readStrings sampleCrates default default (oneEntry 0) ++
        readStrings sampleCrates default default (oneEntry 1),
      ∀ t ∈ readStrings sampleCrates default default (oneEntry 0) ++
        readStrings sampleCrates default default (oneEntry 1),
      sampleCrates.keyedHash default s = sampleCrates.keyedHash default t → s = t := by
    decide +kernel
  refine ⟨_, _, hread 0, hread 1, hclean, hne, ?_⟩
  refine (streamVerify_binding sampleCrates default default (hfile 0) (hfile 1) ?_
    (hread 0) (hread 1)
    hclean).2 hne
  intro s hs t ht
  exact hinj s (List.mem_append.mpr hs) t (List.mem_append.mpr ht)

end Akroasis.TamperLog
