import Akroasis.TamperLog.Paths

/-!
# Akroasis.TamperLog.Entry

Log entries and their wire format (`tamper_log.rs`, `tamper_log_entry.rs`):

```
[4 bytes: payload length, little endian][payload: CBOR LogEntry][32 bytes: keyed hash]
```

where the hash covers the payload followed by the previous entry's hash.  The
third-party pieces — the keyed BLAKE3 hash and the CBOR serializer — are the
parameter `Crates`; its laws are the documented behaviour of the serializer, and
the hash is an arbitrary function.
-/

namespace Akroasis.TamperLog

/-- A 32-byte hash value. -/
abbrev Hash := FixedBytes 32

/-- Secret key binding a log's hash chain to its owner. -/
abbrev ChainKey := FixedBytes 32

/-- The kind of event recorded in a log entry. -/
inductive LogEntryKind where
  | signalObserved (signalId : Nat) (kindTag : String)
  | entityCreated (entityId : Nat) (kindTag : String)
  | configChanged (key : String) (oldValue : Option String) (newValue : String)
  | alertRaised (alertId severity message : String)
  | actionTaken (actor action : String) (target : Option String)
  | vaultMutation (credentialRef operation : String)
  deriving DecidableEq

/-- A single record in the log. -/
structure LogEntry where
  sequence : Nat
  timestampMs : Int
  kind : LogEntryKind
  deriving DecidableEq

/-- What the log takes from third-party crates: `blake3`'s keyed hash and
`ciborium`'s serializer for `LogEntry`.  Deserializing a serialized entry gives it
back, and a struct of three fields is written as a definite map of three pairs,
whose initial byte is `0xA3`. -/
structure Crates where
  keyedHash : ChainKey → Bytes → Hash
  toCbor : LogEntry → Option Bytes
  fromCbor : Bytes → Option LogEntry
  fromCbor_toCbor : ∀ e bs, toCbor e = some bs → fromCbor bs = some e
  head_toCbor : ∀ e bs, toCbor e = some bs → bs.head? = some 0xA3

/-- The kind of every entry `sampleCrates` serializes. -/
def sampleKind : LogEntryKind := .vaultMutation "v" "op"

/-- A CBOR text string of fewer than 24 bytes. -/
def cborText (s : String) : Bytes := UInt8.ofNat (0x60 + s.length) :: ascii s

/-- What `ciborium` writes for an entry of kind `sampleKind` at time zero whose sequence
number is below 24: maps and an externally tagged variant, field names as text. -/
def sampleCbor (sequence : Nat) : Bytes :=
  0xA3 :: (cborText "sequence" ++ UInt8.ofNat sequence ::
    (cborText "timestamp_ms" ++ 0x00 :: (cborText "kind" ++ 0xA1 :: (cborText "VaultMutation" ++
      0xA2 :: (cborText "credential_ref" ++ cborText "v" ++ cborText "operation" ++
        cborText "op")))))

/-- A small instance of `Crates` that computes: it serializes entries of one kind and
time stamp only, and its hash is a polynomial in the bytes. -/
def sampleCrates : Crates where
  keyedHash _ bs := ⟨leBytes 32 (bs.foldl (fun acc b => acc * 257 + (b.toNat + 1)) 0), by simp⟩
  toCbor e :=
    if e.kind = sampleKind ∧ e.timestampMs = 0 ∧ e.sequence < 24 then some (sampleCbor e.sequence)
    else none
  fromCbor bs := ((List.range 24).find? fun n => sampleCbor n = bs).map fun n =>
    ⟨n, 0, sampleKind⟩
  fromCbor_toCbor := by
    rintro ⟨sequence, timestampMs, kind⟩ bs h
    simp only at h
    split at h
    · next hc =>
      obtain ⟨rfl, rfl, hlt⟩ := hc
      obtain rfl := Option.some.inj h
      have hfind : ∀ n < 24, ((List.range 24).find? fun m => sampleCbor m = sampleCbor n) =
          some n := by
        decide +kernel
      rw [hfind sequence hlt]; rfl
    · contradiction
  head_toCbor := by
    intro e bs h
    split at h
    · obtain rfl := Option.some.inj h; rfl
    · contradiction

/-- Status of a chain verification pass. -/
inductive ChainStatus where
  | intact
  | broken (sequence : Nat) (expectedHash actualHash : Hash)
  | empty
  | corrupted (byteOffset : Nat)
  | truncated (sealedEntries : Option Nat)
  | unsealed (verifiedEntries sealedEntries : Nat)
  deriving DecidableEq

/-- Errors of the log and its verifiers. -/
inductive TamperLogError where
  | io (path : FileName)
  | cborEncode
  | cborDecode
  | corrupted (offset : Nat)
  | entryTooLarge (size max : Nat)
  | chainCompromised (path : FileName) (status : ChainStatus)
  | locked (path : FileName)
  deriving DecidableEq

/-- `MAX_ENTRY_BYTES`: the largest payload, 16 MiB. -/
def maxEntryBytes : Nat := 16 * 1024 * 1024

section

variable (E : Crates)

/-! ## Encoding -/

/-- The hash that links `payload` to the entry before it. -/
def linkHash (key : ChainKey) (payload : Bytes) (prev : Hash) : Hash :=
  E.keyedHash key (payload ++ prev.val)

/-- The on-disk form of one entry. -/
def frame (payload : Bytes) (hash : Hash) : Bytes :=
  leBytes 4 payload.length ++ (payload ++ hash.val)

/-- `encode_entry`: the wire bytes and the hash of an entry. -/
def encodeEntry (entry : LogEntry) (prev : Hash) (key : ChainKey) :
    Except TamperLogError (Bytes × Hash) :=
  match E.toCbor entry with
  | none => .error .cborEncode
  | some cbor =>
      if maxEntryBytes < cbor.length then
        .error (.entryTooLarge cbor.length maxEntryBytes)
      else
        .ok (frame cbor (linkHash E key cbor prev), linkHash E key cbor prev)

end

/-! ## Lengths and round trips -/

@[simp] theorem length_frame (payload : Bytes) (hash : Hash) :
    (frame payload hash).length = 4 + payload.length + 32 := by
  simp [frame, Nat.add_assoc]

theorem maxEntryBytes_lt : maxEntryBytes < 256 ^ 4 := by decide

/-- The length prefix of an accepted payload reads back. -/
theorem ofLeBytes_length {payload : Bytes} (h : payload.length ≤ maxEntryBytes) :
    ofLeBytes (leBytes 4 payload.length) = payload.length :=
  ofLeBytes_leBytes (Nat.lt_of_le_of_lt h maxEntryBytes_lt)

/-- What a successful `encodeEntry` produced. -/
theorem encodeEntry_eq_ok {E : Crates} {entry : LogEntry} {prev : Hash} {key : ChainKey}
    {wire : Bytes} {hash : Hash} (h : encodeEntry E entry prev key = .ok (wire, hash)) :
    ∃ cbor, E.toCbor entry = some cbor ∧ cbor.length ≤ maxEntryBytes ∧
      hash = linkHash E key cbor prev ∧ wire = frame cbor hash := by
  unfold encodeEntry at h
  cases hc : E.toCbor entry with
  | none => simp [hc] at h
  | some cbor =>
      simp only [hc] at h
      by_cases hl : maxEntryBytes < cbor.length
      · rw [if_pos hl] at h; contradiction
      · rw [if_neg hl] at h
        obtain ⟨rfl, rfl⟩ := Prod.mk.inj (Except.ok.inj h)
        exact ⟨cbor, rfl, Nat.le_of_not_lt hl, rfl, rfl⟩

end Akroasis.TamperLog
