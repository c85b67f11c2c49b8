import Akroasis.TamperLog.Entry

/-!
# Akroasis.TamperLog.Seal

The truncation seal (`tamper_log_seal.rs`): a sidecar file that authenticates the
entry count of a segment and the hash its chain was linked from, optionally with
the provenance of the installation that signed the tip.

```
unsigned: count (8) || segment_start_hash (32) || MAC (32)
signed:   count (8) || segment_start_hash (32) || terminal_hash (32)
            || key_id (8) || signature (64) || MAC (32)
```

`readSealBytes_sealBytes` is the round trip: what `write_seal` wrote, `read_seal`
authenticates.
-/

namespace Akroasis.TamperLog

/-! ## Domains and layout -/

/-- `GENESIS_DOMAIN`. -/
def genesisDomain : Bytes := ascii "koinon/tamper-log/genesis/v1"

/-- `SEAL_DOMAIN`. -/
def sealDomain : Bytes := ascii "koinon/tamper-log/seal/v1"

/-- `SIGNED_SEAL_DOMAIN`. -/
def signedSealDomain : Bytes := ascii "koinon/tamper-log/seal-signed/v1"

/-- `TIP_SIGNING_DOMAIN`. -/
def tipSigningDomain : Bytes := ascii "koinon/tamper-log/tip/v1"

/-- `SEAL_FILE_LEN`. -/
def sealFileLen : Nat := 8 + 32 + 32

/-- `SIGNED_SEAL_FILE_LEN`. -/
def signedSealFileLen : Nat := 8 + 32 + 32 + 8 + 64 + 32

/-- Installation provenance recorded alongside a seal. -/
structure TipProvenance where
  keyId : FixedBytes 8
  terminalHash : Hash
  signature : FixedBytes 64
  deriving DecidableEq

/-- Signs a log's terminal hash on behalf of an installation. -/
structure TipSigner where
  keyId : FixedBytes 8
  signTip : Bytes → FixedBytes 64

/-- Result of reading and authenticating a seal file. -/
inductive SealState where
  | absent
  | invalid
  | valid (entryCount : Nat) (segmentStartHash : Hash) (provenance : Option TipProvenance)
  deriving DecidableEq

/-- `tip_payload`: the bytes a signer signs. -/
def tipPayload (terminalHash : Hash) : Bytes := tipSigningDomain ++ terminalHash.val

/-! ## Strings that are hashed -/

/-- The string under an unsigned seal's MAC. -/
def sealString (count : Nat) (start : Hash) : Bytes :=
  sealDomain ++ (leBytes 8 count ++ start.val)

/-- The string under a signed seal's MAC. -/
def signedSealString (count : Nat) (start : Hash) (tip : TipProvenance) : Bytes :=
  signedSealDomain ++ (leBytes 8 count ++ (start.val ++ (tip.terminalHash.val ++
    (tip.keyId.val ++ tip.signature.val))))

section

variable (E : Crates)

/-- `genesis_hash`: the keyed root a log's first entry is linked from. -/
def genesisHash (key : ChainKey) : Hash := E.keyedHash key genesisDomain

/-- `seal_mac`. -/
def sealMac (key : ChainKey) (count : Nat) (start : Hash) : Hash :=
  E.keyedHash key (sealString count start)

/-- `signed_seal_mac`. -/
def signedSealMac (key : ChainKey) (count : Nat) (start : Hash) (tip : TipProvenance) : Hash :=
  E.keyedHash key (signedSealString count start tip)

/-! ## Reading -/

/-- `read_unsigned_seal`. -/
def readUnsignedSeal (raw : Bytes) (key : ChainKey) : SealState :=
  let count := ofLeBytes (raw.take 8)
  let start := FixedBytes.slice 32 8 raw
  let storedMac : Hash := FixedBytes.slice 32 40 raw
  if sealMac E key count start = storedMac then .valid count start none else .invalid

/-- `read_signed_seal`. -/
def readSignedSeal (raw : Bytes) (key : ChainKey) : SealState :=
  let count := ofLeBytes (raw.take 8)
  let start := FixedBytes.slice 32 8 raw
  let tip : TipProvenance :=
    { terminalHash := FixedBytes.slice 32 40 raw
      keyId := FixedBytes.slice 8 72 raw
      signature := FixedBytes.slice 64 80 raw }
  let storedMac : Hash := FixedBytes.slice 32 144 raw
  if signedSealMac E key count start tip = storedMac then .valid count start (some tip)
  else .invalid

/-- Authenticates the contents of a seal file; its length tells the layouts apart. -/
def readSealBytes (raw : Bytes) (key : ChainKey) : SealState :=
  if raw.length = sealFileLen then readUnsignedSeal E raw key
  else if raw.length = signedSealFileLen then readSignedSeal E raw key
  else .invalid

/-- `read_seal`: reads and authenticates the sidecar of the log file `path`. -/
def readSeal (d : Directory) (path : FileName) (key : ChainKey) : SealState :=
  match d.lookup (sealPath path) with
  | none => .absent
  | some raw => readSealBytes E raw key

/-! ## Writing -/

/-- The seal file's contents. -/
def sealBytes (key : ChainKey) (count : Nat) (start : Hash) : Option TipProvenance → Bytes
  | none => leBytes 8 count ++ (start.val ++ (sealMac E key count start).val)
  | some tip =>
      leBytes 8 count ++ (start.val ++ (tip.terminalHash.val ++ (tip.keyId.val ++
        (tip.signature.val ++ (signedSealMac E key count start tip).val))))

/-- `write_seal`: the file-system steps that replace the sidecar of `path`. -/
def writeSeal (path : FileName) (key : ChainKey) (count : Nat) (start : Hash)
    (tip : Option TipProvenance) : List FsOp :=
  [.create (sealTmpPath path),
   .write (sealTmpPath path) (sealBytes E key count start tip),
   .sync (sealTmpPath path),
   .rename (sealTmpPath path) (sealPath path),
   .sync (sealPath path)]

end

/-- `rename_seal`: moves the sidecar of a rotated log file, if there is one. -/
def renameSeal (d : Directory) (src dst : FileName) : List FsOp :=
  if (d.lookup (sealPath src)).isSome then [.rename (sealPath src) (sealPath dst)] else []

/-- A seal that is there is never taken for a missing one. -/
theorem readSeal_eq_absent (E : Crates) {d : Directory} {path : FileName} {key : ChainKey} :
    readSeal E d path key = .absent ↔ d.lookup (sealPath path) = none := by
  cases h : d.lookup (sealPath path) with
  | none => simp [readSeal, h]
  | some raw =>
      simp only [readSeal, h, reduceCtorEq, iff_false]
      unfold readSealBytes readUnsignedSeal readSignedSeal
      grind

/-! ## Round trip -/

theorem length_sealBytes_none (E : Crates) (key : ChainKey) (count : Nat) (start : Hash) :
    (sealBytes E key count start none).length = sealFileLen := by
  simp [sealBytes, sealFileLen]

theorem length_sealBytes_some (E : Crates) (key : ChainKey) (count : Nat) (start : Hash)
    (tip : TipProvenance) :
    (sealBytes E key count start (some tip)).length = signedSealFileLen := by
  simp [sealBytes, signedSealFileLen]

theorem count_of_head {count : Nat} (h : count < 2 ^ 64) (rest : Bytes) :
    ofLeBytes ((leBytes 8 count ++ rest).take 8) = count := by
  rw [take_append_of_length (length_leBytes 8 count)]
  exact ofLeBytes_leBytes (by simpa using h)

/-- **Round trip**: a written seal authenticates with the fields it was written with. -/
theorem readSealBytes_sealBytes (E : Crates) (key : ChainKey) {count : Nat} (start : Hash)
    (tip : Option TipProvenance) (hcount : count < 2 ^ 64) :
    readSealBytes E (sealBytes E key count start tip) key = .valid count start tip := by
  cases tip with
  | none =>
      have hc : ofLeBytes ((sealBytes E key count start none).take 8) = count :=
        count_of_head hcount _
      have hs : FixedBytes.slice 32 8 (sealBytes E key count start none) = start :=
        FixedBytes.slice_append _ _ _ (length_leBytes 8 count)
      have hm : FixedBytes.slice 32 40 (sealBytes E key count start none) =
          sealMac E key count start := by
        have h := FixedBytes.slice_append (i := 40) (leBytes 8 count ++ start.val)
          (sealMac E key count start) [] (by simp)
        simpa [sealBytes] using h
      rw [readSealBytes, if_pos (length_sealBytes_none E key count start), readUnsignedSeal]
      simp only [hc, hs, hm, if_pos]
  | some tip =>
      have hc : ofLeBytes ((sealBytes E key count start (some tip)).take 8) = count :=
        count_of_head hcount _
      have hs : FixedBytes.slice 32 8 (sealBytes E key count start (some tip)) = start :=
        FixedBytes.slice_append _ _ _ (length_leBytes 8 count)
      have ht : FixedBytes.slice 32 40 (sealBytes E key count start (some tip)) =
          tip.terminalHash := by
        have h := FixedBytes.slice_append (i := 40) (leBytes 8 count ++ start.val)
          tip.terminalHash
          (tip.keyId.val ++ (tip.signature.val ++ (signedSealMac E key count start tip).val))
          (by simp)
        simpa [sealBytes] using h
      have hk : FixedBytes.slice 8 72 (sealBytes E key count start (some tip)) = tip.keyId := by
        have h := FixedBytes.slice_append (i := 72)
          (leBytes 8 count ++ (start.val ++ tip.terminalHash.val)) tip.keyId
          (tip.signature.val ++ (signedSealMac E key count start tip).val) (by simp)
        simpa [sealBytes] using h
      have hg : FixedBytes.slice 64 80 (sealBytes E key count start (some tip)) =
          tip.signature := by
        have h := FixedBytes.slice_append (i := 80)
          (leBytes 8 count ++ (start.val ++ (tip.terminalHash.val ++ tip.keyId.val)))
          tip.signature (signedSealMac E key count start tip).val (by simp)
        simpa [sealBytes] using h
      have hm : FixedBytes.slice 32 144 (sealBytes E key count start (some tip)) =
          signedSealMac E key count start tip := by
        have h := FixedBytes.slice_append (i := 144)
          (leBytes 8 count ++ (start.val ++ (tip.terminalHash.val ++
            (tip.keyId.val ++ tip.signature.val))))
          (signedSealMac E key count start tip) [] (by simp)
        simpa [sealBytes] using h
      have hlen := length_sealBytes_some E key count start tip
      rw [readSealBytes, if_neg (by rw [hlen]; decide), if_pos hlen, readSignedSeal]
      simp only [hc, hs, ht, hk, hg, hm, if_pos]

/-- Writing a seal publishes it and consumes the temporary; no other file moves. -/
theorem lookup_writeSeal (E : Crates) (d : Directory) (path : FileName) (key : ChainKey)
    (count : Nat) (start : Hash) (tip : Option TipProvenance) (m : FileName) :
    AList.lookup m (FsOp.applyAll d (writeSeal E path key count start tip)) =
      if m = sealPath path then some (sealBytes E key count start tip)
      else if m = sealTmpPath path then none
      else d.lookup m := by
  change AList.lookup m ((FsOp.rename (sealTmpPath path) (sealPath path)).apply
    ((FsOp.write (sealTmpPath path) (sealBytes E key count start tip)).apply
      ((FsOp.create (sealTmpPath path)).apply d))) = _
  rw [FsOp.lookup_rename, FsOp.lookup_write, if_pos rfl, FsOp.lookup_create, if_pos rfl]
  simp only [Option.map_some, List.nil_append]
  by_cases h1 : m = sealPath path
  · rw [if_pos h1, if_pos h1]
  · rw [if_neg h1, if_neg h1]
    by_cases h2 : m = sealTmpPath path
    · rw [if_pos h2, if_pos h2]
    · rw [if_neg h2, if_neg h2, FsOp.lookup_write, if_neg h2, FsOp.lookup_create, if_neg h2]

end Akroasis.TamperLog
