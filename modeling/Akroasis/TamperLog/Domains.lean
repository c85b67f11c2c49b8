import Akroasis.TamperLog.Deletion

/-!
# Akroasis.TamperLog.Domains

One keyed hash serves four purposes: the genesis root, the two kinds of seal, and the
links of the chain.  The first three hash a string that opens with a domain tag; a link
hashes the payload as it is, followed by the previous hash.

The verifier accepts any payload, so the question is which payloads make a link string
that is also a seal string.  `SealShaped` are those: a seal domain followed by as many
bytes as the seal string has left in front of its last 32.  For every other payload a
link in an accepted file was made by the key holder (`unforgeable_iff`), where the key
holder's work is an arbitrary set of hashed strings (`Observed`) and a party without the
key gets only the hashes of these past the verifier (`WithoutKey`).
-/

namespace Akroasis.TamperLog

/-! ## What is hashed -/

theorem length_genesisDomain : genesisDomain.length = 28 := by decide +kernel

theorem length_sealDomain : sealDomain.length = 25 := by decide +kernel

theorem length_signedSealDomain : signedSealDomain.length = 32 := by decide +kernel

theorem length_sealString (count : Nat) (start : Hash) : (sealString count start).length = 65 := by
  simp [sealString, length_sealDomain]

theorem length_signedSealString (count : Nat) (start : Hash) (tip : TipProvenance) :
    (signedSealString count start tip).length = 176 := by
  simp [signedSealString, length_signedSealDomain]

/-- The strings of the four purposes are kept apart, as far as links of `payload` go. -/
structure DomainsDisjoint (payload : Bytes) : Prop where
  genesis_seal : ∀ count start, genesisDomain ≠ sealString count start
  genesis_signed : ∀ count start tip, genesisDomain ≠ signedSealString count start tip
  seal_signed : ∀ count start count' start' tip,
    sealString count start ≠ signedSealString count' start' tip
  entry_genesis : ∀ prev : Hash, payload ++ prev.val ≠ genesisDomain
  entry_seal : ∀ (prev : Hash) count start, payload ++ prev.val ≠ sealString count start
  entry_signed : ∀ (prev : Hash) count start tip,
    payload ++ prev.val ≠ signedSealString count start tip

/-- A payload that followed by a hash reads as the string of a seal. -/
def SealShaped (payload : Bytes) : Prop :=
  sealDomain <+: payload ∧ payload.length = sealDomain.length + 8 ∨
    signedSealDomain <+: payload ∧ payload.length = signedSealDomain.length + (8 + 32 + 32 + 8 + 32)

instance (payload : Bytes) : Decidable (SealShaped payload) := by
  unfold SealShaped; infer_instance

variable {payload : Bytes} {prev : Hash}

/-- A payload whose link string opens with a domain is long enough to hold it. -/
theorem prefix_of_link {domain rest : Bytes}
    (h : payload ++ prev.val = domain ++ rest) (hle : domain.length ≤ payload.length) :
    domain <+: payload :=
  List.prefix_of_prefix_length_le ⟨rest, h.symm⟩ (List.prefix_append payload prev.val) hle

theorem sealShaped_of_seal {start : Hash} {count : Nat}
    (h : payload ++ prev.val = sealString count start) : SealShaped payload := by
  have hlen := congrArg List.length h
  rw [List.length_append, FixedBytes.length_val, length_sealString] at hlen
  refine .inl ⟨prefix_of_link h ?_, ?_⟩ <;> rw [length_sealDomain] <;> omega

theorem sealShaped_of_signedSeal {start : Hash} {count : Nat}
    {tip : TipProvenance} (h : payload ++ prev.val = signedSealString count start tip) :
    SealShaped payload := by
  have hlen := congrArg List.length h
  rw [List.length_append, FixedBytes.length_val, length_signedSealString] at hlen
  refine .inr ⟨prefix_of_link h ?_, ?_⟩ <;> rw [length_signedSealDomain] <;> omega

/-- Every link string of a seal-shaped payload is the string of some seal. -/
theorem SealShaped.link (h : SealShaped payload) (prev : Hash) :
    (∃ count start, payload ++ prev.val = sealString count start) ∨
      ∃ count start tip, payload ++ prev.val = signedSealString count start tip := by
  rcases h with ⟨⟨b, rfl⟩, hlen⟩ | ⟨⟨b, rfl⟩, hlen⟩
  · left
    have hb : b.length = 8 := by simpa using hlen
    refine ⟨ofLeBytes b, prev, ?_⟩
    rw [sealString, ← hb, leBytes_ofLeBytes, List.append_assoc]
  · right
    have hb : b.length = 8 + 32 + 32 + 8 + 32 := by simpa using hlen
    -- the fields of the seal, cut out of the payload; the previous hash ends the signature
    obtain ⟨c, b1, rfl, hc⟩ : ∃ c b1, b = c ++ b1 ∧ c.length = 8 :=
      ⟨b.take 8, b.drop 8, by simp, by simp [hb]⟩
    obtain ⟨s, b2, rfl, hs⟩ : ∃ s b2, b1 = s ++ b2 ∧ s.length = 32 :=
      ⟨b1.take 32, b1.drop 32, by simp, by simp at hb ⊢; omega⟩
    obtain ⟨t, b3, rfl, ht⟩ : ∃ t b3, b2 = t ++ b3 ∧ t.length = 32 :=
      ⟨b2.take 32, b2.drop 32, by simp, by simp at hb ⊢; omega⟩
    obtain ⟨k, g, rfl, hk⟩ : ∃ k g, b3 = k ++ g ∧ k.length = 8 :=
      ⟨b3.take 8, b3.drop 8, by simp, by simp at hb ⊢; omega⟩
    have hg : (g ++ prev.val).length = 64 := by simp at hb ⊢; omega
    refine ⟨ofLeBytes c, ⟨s, hs⟩, ⟨⟨k, hk⟩, ⟨t, ht⟩, ⟨g ++ prev.val, hg⟩⟩, ?_⟩
    have hcount : leBytes 8 (ofLeBytes c) = c := hc ▸ leBytes_ofLeBytes c
    simp [signedSealString, hcount]

/-- The four purposes are kept apart exactly for payloads that are not seal-shaped. -/
theorem domainsDisjoint_iff (payload : Bytes) : DomainsDisjoint payload ↔ ¬ SealShaped payload := by
  constructor
  · intro h hshape
    rcases hshape.link default with ⟨count, start, heq⟩ | ⟨count, start, tip, heq⟩
    · exact h.entry_seal _ _ _ heq
    · exact h.entry_signed _ _ _ _ heq
  · intro h
    exact
      { genesis_seal := fun count start heq => by
          have := congrArg List.length heq
          rw [length_genesisDomain, length_sealString] at this
          omega
        genesis_signed := fun count start tip heq => by
          have := congrArg List.length heq
          rw [length_genesisDomain, length_signedSealString] at this
          omega
        seal_signed := fun count start count' start' tip heq => by
          have := congrArg List.length heq
          rw [length_sealString, length_signedSealString] at this
          omega
        entry_genesis := fun prev heq => by
          have := congrArg List.length heq
          rw [length_genesisDomain, List.length_append, FixedBytes.length_val] at this
          omega
        entry_seal := fun prev count start heq => h (sealShaped_of_seal heq)
        entry_signed := fun prev count start tip heq => h (sealShaped_of_signedSeal heq) }

/-! ## Forgery -/

/-- What the key holder has hashed besides the genesis string: appended payloads with the
hash they were linked to, and the seals written. -/
structure Observed where
  entries : Set (Bytes × Hash)
  seals : Set (Nat × Hash)
  signedSeals : Set (Nat × Hash × TipProvenance)

/-- The strings whose hashes everybody has seen. -/
def Observed.strings (o : Observed) : Set Bytes :=
  { s | s = genesisDomain ∨ (∃ e ∈ o.entries, s = e.1 ++ e.2.val) ∨
    (∃ x ∈ o.seals, s = sealString x.1 x.2) ∨
    ∃ x ∈ o.signedSeals, s = signedSealString x.1 x.2.1 x.2.2 }

section

variable (E : Crates) (key : ChainKey)

/-- The comparisons of `stream_verify`, which stop at the first that fails: it reads
`payload` where the chain stands at `prev` and compares the link with `stored`. -/
inductive Checks : Hash → Bytes → Bytes → Hash → Hash → Prop
  | head {prev stored : Hash} {bs payload rest : Bytes} :
      readFrame bs = .frame payload stored rest → Checks prev bs payload prev stored
  | tail {prev stored prev' stored' : Hash} {bs payload rest payload' : Bytes} :
      readFrame bs = .frame payload stored rest → linkHash E key payload prev = stored →
      Checks stored rest payload' prev' stored' → Checks prev bs payload' prev' stored'

/-- The comparisons `verify_chain` makes over the file `path`. -/
def ChecksFile (d : Directory) (path : FileName) (payload : Bytes) (prev stored : Hash) : Prop :=
  ∃ bs, d.lookup path = some bs ∧
    Checks E key (resolveStartHash E (readSeal E d path key) key) bs payload prev stored

/-- The files of a party that does not have the key, under an ideal hash: where the
verifier hashes a string and finds the hash it expects, it is one of the strings the key
holder hashed. -/
structure WithoutKey (known : Set Bytes) (d : Directory) (path : FileName) : Prop where
  entry : ∀ payload prev, ChecksFile E key d path payload prev (linkHash E key payload prev) →
    payload ++ prev.val ∈ known
  unsigned : ∀ count start, readSeal E d path key = .valid count start none →
    sealString count start ∈ known
  signed : ∀ count start tip, readSeal E d path key = .valid count start (some tip) →
    signedSealString count start tip ∈ known

end

/-- Statuses under which a log is resumed. -/
def Accepted (status : ChainStatus) : Prop :=
  status = .intact ∨ ∃ verified sealed, status = .unsealed verified sealed

/-- No party without the key gets a file with `payload` accepted, unless the key holder
appended it. -/
def Unforgeable (payload : Bytes) : Prop :=
  ∀ (E : Crates) (key : ChainKey) (o : Observed) (d : Directory) (path : FileName)
    (result : VerificationResult) (prev stored : Hash),
    WithoutKey E key o.strings d path → verifyChain E d path key = .ok result →
    Accepted result.status → ChecksFile E key d path payload prev stored →
    ∃ prev', (payload, prev') ∈ o.entries

section

variable {E : Crates} {key : ChainKey} {d : Directory} {path : FileName}

/-- Without a break every comparison came out equal. -/
theorem Checks.link_eq {start prev stored : Hash} {bs payload : Bytes} {entries offset : Nat}
    (h : Checks E key start bs payload prev stored)
    (hclean : (stream E key start entries offset bs).breakStatus = none) :
    linkHash E key payload prev = stored := by
  induction h generalizing entries offset with
  | head hr =>
      rw [stream_eq, hr] at hclean
      by_contra hne
      simp only [if_pos hne] at hclean
      cases hclean
  | tail hr hlink _ ih =>
      rw [stream_eq, hr] at hclean
      simp only [hlink, ne_eq, not_true_eq_false, if_false] at hclean
      exact ih hclean

/-- In an accepted file every comparison came out equal. -/
theorem ChecksFile.link_eq {result : VerificationResult} {payload : Bytes} {prev stored : Hash}
    (hv : verifyChain E d path key = .ok result) (hok : Accepted result.status)
    (h : ChecksFile E key d path payload prev stored) : linkHash E key payload prev = stored := by
  obtain ⟨bs, hbs, hcheck⟩ := h
  simp only [verifyChain, streamVerify, hbs, Except.ok.injEq] at hv
  cases hbreak :
    (stream E key (resolveStartHash E (readSeal E d path key) key) 0 0 bs).breakStatus with
  | none => exact hcheck.link_eq hbreak
  | some status =>
      have hbad := segmentOk_of_break hbreak true
      rw [← hv, hbreak, Option.getD_some] at hok
      rcases hok with rfl | ⟨v, s, rfl⟩ <;> cases hbad

end

/-- A link string of a payload that is not seal-shaped was hashed for that payload. -/
theorem Observed.entry_of_link {o : Observed}
    (h : DomainsDisjoint payload) (hknown : payload ++ prev.val ∈ o.strings) :
    (payload, prev) ∈ o.entries := by
  rcases hknown with heq | ⟨⟨p, q⟩, hmem, heq⟩ | ⟨x, -, heq⟩ | ⟨x, -, heq⟩
  · exact absurd heq (h.entry_genesis _)
  · obtain ⟨rfl, rfl⟩ := append_hash_injective heq
    exact hmem
  · exact absurd heq (h.entry_seal _ _ _)
  · exact absurd heq (h.entry_signed _ _ _ _)

/-- A file with one link of `payload` from `start`, under an empty seal that names `start`. -/
def forgedFiles (E : Crates) (key : ChainKey) (payload : Bytes) (start : Hash) : Directory :=
  ((∅ : Directory).insert (sealPath samplePath) (sealBytes E key 0 start none)).insert samplePath
    (frame payload (linkHash E key payload start))

section

variable (E : Crates) (key : ChainKey) {payload : Bytes} (start : Hash)

theorem readSeal_forgedFiles :
    readSeal E (forgedFiles E key payload start) samplePath key = .valid 0 start none := by
  have hne : sealPath samplePath ≠ samplePath := by decide +kernel
  rw [readSeal, forgedFiles, Table.lookup_insert_ite, if_neg hne, Table.lookup_insert_ite,
    if_pos rfl]
  exact readSealBytes_sealBytes E key start none (by decide)

theorem verifyChain_forgedFiles (hlen : payload.length ≤ maxEntryBytes) :
    verifyChain E (forgedFiles E key payload start) samplePath key = .ok ⟨1, .unsealed 1 0⟩ := by
  have hstream : stream E key start 0 0 (frame payload (linkHash E key payload start)) =
      ⟨1, linkHash E key payload start, none⟩ := by
    have hframe : stream E key start 0 0 (frame payload (linkHash E key payload start) ++ []) = _ :=
      stream_frame start 0 0 [] hlen
    rw [List.append_nil] at hframe
    rw [hframe, stream_short _ _ _ (by simp)]
  have hlookup : (forgedFiles E key payload start).lookup samplePath =
      some (frame payload (linkHash E key payload start)) := by
    rw [forgedFiles, Table.lookup_insert_ite, if_pos rfl]
  simp only [verifyChain, readSeal_forgedFiles, resolveStartHash, streamVerify, hlookup, hstream]
  rfl

/-- The only comparison over the forged file is that of its one link. -/
theorem ChecksFile.forgedFiles (hlen : payload.length ≤ maxEntryBytes) {p : Bytes}
    {prev stored : Hash} :
    ChecksFile E key (forgedFiles E key payload start) samplePath p prev stored ↔
      p = payload ∧ prev = start ∧ stored = linkHash E key payload start := by
  have hread : readFrame (frame payload (linkHash E key payload start)) =
      .frame payload (linkHash E key payload start) [] := by
    have := readFrame_frame hlen (linkHash E key payload start) []
    rwa [List.append_nil] at this
  rw [ChecksFile, TamperLog.forgedFiles, Table.lookup_insert_ite, if_pos rfl,
    ← TamperLog.forgedFiles, readSeal_forgedFiles, resolveStartHash]
  constructor
  · rintro ⟨bs, hbs, hcheck⟩
    obtain rfl := Option.some.inj hbs
    cases hcheck with
    | head hr =>
        rw [hread, FrameRead.frame.injEq] at hr
        exact ⟨hr.1.symm, rfl, hr.2.1.symm⟩
    | tail hr _ hrest =>
        -- nothing follows the link
        rw [hread, FrameRead.frame.injEq] at hr
        obtain ⟨-, -, rfl⟩ := hr
        cases hrest with
        | head hr => cases hr
        | tail hr _ _ => cases hr
  · rintro ⟨rfl, rfl, rfl⟩
    exact ⟨_, rfl, .head hread⟩

end

/-- Forgery is ruled out exactly for payloads that are not seal-shaped. -/
theorem unforgeable_iff (payload : Bytes) : Unforgeable payload ↔ ¬ SealShaped payload := by
  constructor
  · intro h hshape
    -- the key holder wrote the seal whose string is the link string, and an empty one
    let o : Observed :=
      { entries := ∅
        seals := { x | x = (0, default) ∨ payload ++ (default : Hash).val = sealString x.1 x.2 }
        signedSeals := { x | payload ++ (default : Hash).val = signedSealString x.1 x.2.1 x.2.2 } }
    have hlen : payload.length ≤ maxEntryBytes := by
      have hmax : maxEntryBytes = 16777216 := by decide
      rcases hshape with ⟨-, hl⟩ | ⟨-, hl⟩
      · rw [hl, length_sealDomain]; omega
      · rw [hl, length_signedSealDomain]; omega
    have hkey : WithoutKey sampleCrates default o.strings
        (forgedFiles sampleCrates default payload default) samplePath := by
      refine ⟨fun p prev hcheck => ?_, fun count start hseal => ?_, fun count start tip hseal => ?_⟩
      · obtain ⟨rfl, rfl, -⟩ := (ChecksFile.forgedFiles _ _ _ hlen).mp hcheck
        rcases hshape.link default with ⟨count, start, heq⟩ | ⟨count, start, tip, heq⟩
        · exact .inr (.inr (.inl ⟨(count, start), .inr heq, heq⟩))
        · exact .inr (.inr (.inr ⟨(count, start, tip), heq, heq⟩))
      · rw [readSeal_forgedFiles, SealState.valid.injEq] at hseal
        obtain ⟨rfl, rfl, -⟩ := hseal
        exact .inr (.inr (.inl ⟨(0, default), .inl rfl, rfl⟩))
      · rw [readSeal_forgedFiles, SealState.valid.injEq] at hseal
        exact nomatch hseal.2.2
    obtain ⟨prev, hmem⟩ := h sampleCrates default o _ samplePath _ default _ hkey
      (verifyChain_forgedFiles _ _ _ hlen) (.inr ⟨1, 0, rfl⟩)
      ((ChecksFile.forgedFiles _ _ _ hlen).mpr ⟨rfl, rfl, rfl⟩)
    exact hmem
  · intro hshape E key o d path result prev stored hkey hv hok hcheck
    obtain rfl := hcheck.link_eq hv hok
    exact ⟨prev, Observed.entry_of_link ((domainsDisjoint_iff payload).mpr hshape)
      (hkey.entry payload prev hcheck)⟩

/-- **Domain separation**: the strings of the four purposes are kept apart for links of
`payload`, and nobody without the key gets it into an accepted file, if and only if it is
not shaped like a seal. -/
theorem domain_separation_iff (payload : Bytes) :
    DomainsDisjoint payload ∧ Unforgeable payload ↔ ¬ SealShaped payload := by
  rw [domainsDisjoint_iff, unforgeable_iff, and_self]

/-- A file made of what is on disk: the seal of the fresh log, and one entry whose payload
and hash are the domain, count and MAC of the seal after the first append. -/
def resealedFiles (fresh appended : World) : Option Directory := do
  let sealBefore ← fresh.dir.lookup (sealPath samplePath)
  let sealAfter ← appended.dir.lookup (sealPath samplePath)
  return ((∅ : Directory).insert (sealPath samplePath) sealBefore).insert samplePath
    (frame (sealDomain ++ sealAfter.take 8) (FixedBytes.slice 32 40 sealAfter))

/-- The log holds one appended entry.  The file made from its two seals is accepted, and
its payload is not that entry. -/
theorem resealed_accepted :
    (do let fresh ← sampleWorld 4096 0
        let appended ← sampleWorld 4096 1
        let forged ← resealedFiles fresh appended
        return (verifyChain sampleCrates forged samplePath default,
          decide (appended.dir.lookup samplePath = some (encodeFrames sampleCrates default
            (genesisHash sampleCrates default) [sampleCbor 0])),
          decide (forged.lookup samplePath = some (encodeFrames sampleCrates default
            (genesisHash sampleCrates default) [sealDomain ++ leBytes 8 1])))) =
      some (.ok ⟨1, .unsealed 1 0⟩, true, true) ∧
    sealDomain ++ leBytes 8 1 ≠ sampleCbor 0 := by
  decide +kernel

end Akroasis.TamperLog
