import Akroasis.Kryphos.Entry
import Akroasis.Table

/-!
# Akroasis.Kryphos.Operations

The operations of the vault (`kryphos/src/storage.rs`) up to the point where they commit:
`get`, and for `add`, `remove`, `rotate` and `revoke` the change of the store that each hands
to `commit_audited`.

`prepare` is the part of a mutating operation before `commit_audited`.  Clock readings,
nonces and failures of the store to answer a read are its arguments.
-/

namespace Akroasis.Kryphos

/-- The stored entries. -/
abbrev Keyspace := Table LookupKey StoredEntry

/-- A mutating operation. -/
inductive Op where
  | add (name : Name) (credentialType : CredentialType) (secret : Bytes)
  | remove (name : Name)
  | rotate (name : Name) (newSecret : Bytes)
  | revoke (name : Name)
  deriving DecidableEq

/-- The credential an operation is about. -/
def Op.name : Op → Name
  | .add name _ _ | .remove name | .rotate name _ | .revoke name => name

/-- What an operation is called in the audit log. -/
def Op.operation : Op → String
  | .add .. => "add"
  | .remove .. => "remove"
  | .rotate .. => "rotate"
  | .revoke .. => "revoke"

/-- A change of the store. -/
inductive Mutation where
  | insert (key : LookupKey) (entry : StoredEntry)
  | remove (key : LookupKey)
  deriving DecidableEq

/-- The store after a change. -/
def Mutation.apply : Mutation → Keyspace → Keyspace
  | .insert key entry, keyspace => keyspace.insert key entry
  | .remove key, keyspace => keyspace.erase key

/-- The record key that a change is about. -/
def Mutation.key : Mutation → LookupKey
  | .insert key _ | .remove key => key

/-- What an operation takes from outside: the time, two nonces, and whether the store fails
to answer its read. -/
structure Env where
  now : Timestamp
  secretNonce : Nonce
  metadataNonce : Nonce
  readFails : Bool
  deriving DecidableEq

variable (V : Vault)

/-- The entry stored for a name. -/
def readEntry (keyspace : Keyspace) (name : Name) : Except VaultError StoredEntry :=
  match keyspace.lookup (lookupKey V name) with
  | none => .error (.entryNotFound name)
  | some entry => .ok entry

/-- `get`. -/
def get (keyspace : Keyspace) (name : Name) : Except VaultError DecryptedEntry :=
  (readEntry V keyspace name).bind fun entry =>
  (decryptMetadata V entry).bind fun record =>
  match record.status with
  | .revoked => .error (.entryRevoked name)
  | .expired => .error (.entryExpired name)
  | .active =>
      let secret :=
        if entry.envelopeVersion = legacyEnvelopeVersion then decrypt V entry.encryptedSecret []
        else (entryAad V name record.credentialType entry.envelopeVersion).bind fun aad =>
          decrypt V entry.encryptedSecret aad
      secret.map fun secret => ⟨record.name, record.credentialType, secret, record.metadata⟩

/-- The entry of a secret and a record, both encrypted afresh. -/
def sealEntry (env : Env) (name : Name) (secret : Bytes) (record : EntryMetadataRecord) :
    Except VaultError StoredEntry :=
  (entryAad V name record.credentialType entryEnvelopeVersion).bind fun aad =>
  (encrypt V env.secretNonce secret aad).bind fun encryptedSecret =>
  (encryptMetadata V env.metadataNonce record).bind fun encryptedMetadata =>
    .ok ⟨entryEnvelopeVersion, encryptedSecret, encryptedMetadata⟩

/-- The record of a new credential. -/
def createdRecord (name : Name) (credentialType : CredentialType) (now : Timestamp) :
    EntryMetadataRecord where
  name := name
  credentialType := credentialType
  metadata :=
    { createdAt := now, rotatedAt := none, revokedAt := none, rotationCount := 0, tags := [] }
  status := .active
  history := [⟨now, .created⟩]

/-- The record after a rotation.  The count is a `u32` and wraps around. -/
def EntryMetadataRecord.rotated (record : EntryMetadataRecord) (now : Timestamp) :
    EntryMetadataRecord :=
  { record with
    metadata := { record.metadata with
      rotatedAt := some now, rotationCount := record.metadata.rotationCount + 1 }
    history := record.history ++ [⟨now, .rotated⟩] }

/-- The record after a revocation. -/
def EntryMetadataRecord.revoked (record : EntryMetadataRecord) (now : Timestamp) :
    EntryMetadataRecord :=
  { record with
    status := .revoked
    metadata := { record.metadata with revokedAt := some now }
    history := record.history ++ [⟨now, .revoked⟩] }

/-- `add`, up to `commit_audited`. -/
def prepareAdd (keyspace : Keyspace) (env : Env) (name : Name) (credentialType : CredentialType)
    (secret : Bytes) : Except VaultError Mutation :=
  if (keyspace.lookup (lookupKey V name)).isSome then .error (.duplicateEntry name)
  else (sealEntry V env name secret (createdRecord name credentialType env.now)).map
    (.insert (lookupKey V name))

/-- `remove`, up to `commit_audited`. -/
def prepareRemove (keyspace : Keyspace) (name : Name) : Except VaultError Mutation :=
  (readEntry V keyspace name).bind fun entry =>
  (decryptMetadata V entry).bind fun record =>
    if record.status = .revoked then .error (.entryNotDeletable name)
    else .ok (.remove (lookupKey V name))

/-- `rotate`, up to `commit_audited`. -/
def prepareRotate (keyspace : Keyspace) (env : Env) (name : Name) (newSecret : Bytes) :
    Except VaultError Mutation :=
  (readEntry V keyspace name).bind fun entry =>
  (decryptMetadata V entry).bind fun record =>
    if record.status = .revoked then .error (.entryRevoked name)
    else (sealEntry V env name newSecret (record.rotated env.now)).map (.insert (lookupKey V name))

/-- `revoke`, up to `commit_audited`: the secret stays as it is. -/
def prepareRevoke (keyspace : Keyspace) (env : Env) (name : Name) : Except VaultError Mutation :=
  (readEntry V keyspace name).bind fun entry =>
  (decryptMetadata V entry).bind fun record =>
    if record.status = .revoked then .error (.entryRevoked name)
    else (encryptMetadata V env.metadataNonce (record.revoked env.now)).map fun encryptedMetadata =>
      .insert (lookupKey V name) { entry with encryptedMetadata := encryptedMetadata }

/-- A mutating operation, up to `commit_audited`. -/
def prepare (keyspace : Keyspace) (env : Env) (op : Op) : Except VaultError Mutation :=
  if env.readFails then .error .storageBackend
  else
    match op with
    | .add name credentialType secret => prepareAdd V keyspace env name credentialType secret
    | .remove name => prepareRemove V keyspace name
    | .rotate name newSecret => prepareRotate V keyspace env name newSecret
    | .revoke name => prepareRevoke V keyspace env name

/-! ## What the operations have checked -/

variable {V} {keyspace : Keyspace} {env : Env} {name : Name} {op : Op} {mutation : Mutation}
  {record : EntryMetadataRecord} {entry : StoredEntry} {secret : Bytes}

theorem readEntry_eq_ok_iff :
    readEntry V keyspace name = .ok entry ↔ keyspace.lookup (lookupKey V name) = some entry := by
  unfold readEntry
  cases keyspace.lookup (lookupKey V name) <;> simp

theorem sealEntry_eq_ok (h : sealEntry V env name secret record = .ok entry) :
    entry.envelopeVersion = entryEnvelopeVersion ∧
      encryptMetadata V env.metadataNonce record = .ok entry.encryptedMetadata ∧
      ∃ aad, entryAad V name record.credentialType entryEnvelopeVersion = .ok aad ∧
        encrypt V env.secretNonce secret aad = .ok entry.encryptedSecret := by
  simp only [sealEntry, bind_eq_ok, Except.ok.injEq] at h
  obtain ⟨aad, haad, encryptedSecret, hsecret, encryptedMetadata, hmetadata, rfl⟩ := h
  exact ⟨rfl, hmetadata, aad, haad, hsecret⟩

/-- What an operation on an existing entry has read: the entry's record is not revoked. -/
structure Readable (V : Vault) (keyspace : Keyspace) (name : Name) (entry : StoredEntry)
    (record : EntryMetadataRecord) : Prop where
  stored : keyspace.lookup (lookupKey V name) = some entry
  opened : decryptMetadata V entry = .ok record
  unrevoked : record.status ≠ .revoked

/-- The changes that operations come to. -/
theorem prepare_cases (h : prepare V keyspace env op = .ok mutation) :
    (∃ name credentialType secret entry, op = .add name credentialType secret ∧
        keyspace.lookup (lookupKey V name) = none ∧
        sealEntry V env name secret (createdRecord name credentialType env.now) = .ok entry ∧
        mutation = .insert (lookupKey V name) entry) ∨
      ∃ name entry record, Readable V keyspace name entry record ∧
        (op = .remove name ∧ mutation = .remove (lookupKey V name) ∨
          (∃ secret new, op = .rotate name secret ∧
            sealEntry V env name secret (record.rotated env.now) = .ok new ∧
            mutation = .insert (lookupKey V name) new) ∨
          ∃ encryptedMetadata, op = .revoke name ∧
            encryptMetadata V env.metadataNonce (record.revoked env.now) = .ok encryptedMetadata ∧
            mutation = .insert (lookupKey V name)
              { entry with encryptedMetadata := encryptedMetadata }) := by
  rw [prepare.eq_def, ite_error_eq_ok] at h
  cases op with
  | add name credentialType secret =>
      simp only [prepareAdd, ite_error_eq_ok, map_eq_ok, Option.not_isSome_iff_eq_none] at h
      obtain ⟨_, hnone, entry, hentry, rfl⟩ := h
      exact .inl ⟨name, credentialType, secret, entry, rfl, hnone, hentry, rfl⟩
  | remove name =>
      simp only [prepareRemove, bind_eq_ok, ite_error_eq_ok, readEntry_eq_ok_iff,
        Except.ok.injEq] at h
      obtain ⟨_, entry, hstored, record, hrecord, hstatus, rfl⟩ := h
      exact .inr ⟨name, entry, record, ⟨hstored, hrecord, hstatus⟩, .inl ⟨rfl, rfl⟩⟩
  | rotate name secret =>
      simp only [prepareRotate, bind_eq_ok, ite_error_eq_ok, readEntry_eq_ok_iff, map_eq_ok] at h
      obtain ⟨_, entry, hstored, record, hrecord, hstatus, new, hnew, rfl⟩ := h
      exact .inr ⟨name, entry, record, ⟨hstored, hrecord, hstatus⟩,
        .inr (.inl ⟨secret, new, rfl, hnew, rfl⟩)⟩
  | revoke name =>
      simp only [prepareRevoke, bind_eq_ok, ite_error_eq_ok, readEntry_eq_ok_iff, map_eq_ok] at h
      obtain ⟨_, entry, hstored, record, hrecord, hstatus, encryptedMetadata, hnew, rfl⟩ := h
      exact .inr ⟨name, entry, record, ⟨hstored, hrecord, hstatus⟩,
        .inr (.inr ⟨encryptedMetadata, rfl, hnew, rfl⟩)⟩

/-- An operation changes the record of its own credential. -/
theorem key_of_prepare (h : prepare V keyspace env op = .ok mutation) :
    mutation.key = lookupKey V op.name := by
  rcases prepare_cases h with ⟨_, _, _, _, rfl, _, _, rfl⟩ | ⟨_, _, _, _, ⟨rfl, rfl⟩ |
    ⟨_, _, rfl, _, rfl⟩ | ⟨_, rfl, _, rfl⟩⟩ <;> rfl

/-- No operation gets past a revoked record. -/
theorem unrevoked_of_prepare (h : prepare V keyspace env op = .ok mutation)
    (hstored : keyspace.lookup (lookupKey V op.name) = some entry)
    (hrecord : decryptMetadata V entry = .ok record) : record.status ≠ .revoked := by
  have hreadable : ∀ {name entry' record'}, Readable V keyspace name entry' record' →
      name = op.name → record.status ≠ .revoked := by
    rintro name entry' record' hread rfl
    obtain rfl := Option.some.inj (hread.stored.symm.trans hstored)
    obtain rfl := Except.ok.inj (hread.opened.symm.trans hrecord)
    exact hread.unrevoked
  rcases prepare_cases h with ⟨_, _, _, _, rfl, hnone, _⟩ |
    ⟨_, _, _, hread, ⟨rfl, _⟩ | ⟨_, _, rfl, _⟩ |
    ⟨_, rfl, _⟩⟩
  · exact nomatch hnone.symm.trans hstored
  · exact hreadable hread rfl
  · exact hreadable hread rfl
  · exact hreadable hread rfl

theorem lookup_apply_of_ne {key : LookupKey} (h : key ≠ mutation.key) :
    (mutation.apply keyspace).lookup key = keyspace.lookup key := by
  cases mutation with
  | insert key' entry => exact AList.lookup_insert_ne h
  | remove key' => exact AList.lookup_erase_ne h

/-- What `get` has checked. -/
theorem get_eq_ok {entry : DecryptedEntry} (h : get V keyspace name = .ok entry) :
    ∃ stored record, keyspace.lookup (lookupKey V name) = some stored ∧
      decryptMetadata V stored = .ok record ∧ record.status = .active ∧ entry.name = record.name ∧
      (stored.envelopeVersion = legacyEnvelopeVersion ∧
          decrypt V stored.encryptedSecret [] = .ok entry.secret ∨
        stored.envelopeVersion ≠ legacyEnvelopeVersion ∧
          ∃ aad, entryAad V name record.credentialType stored.envelopeVersion = .ok aad ∧
            decrypt V stored.encryptedSecret aad = .ok entry.secret) := by
  simp only [get, bind_eq_ok, readEntry_eq_ok_iff] at h
  obtain ⟨stored, hstored, record, hrecord, h⟩ := h
  refine ⟨stored, record, hstored, hrecord, ?_⟩
  cases hstatus : record.status with
  | revoked | expired => simp [hstatus] at h
  | active =>
      simp only [hstatus, map_eq_ok] at h
      obtain ⟨secret, hsecret, rfl⟩ := h
      refine ⟨rfl, rfl, ?_⟩
      by_cases hversion : stored.envelopeVersion = legacyEnvelopeVersion
      · exact .inl ⟨hversion, by simpa [hversion] using hsecret⟩
      · rw [if_neg hversion, bind_eq_ok] at hsecret
        exact .inr ⟨hversion, hsecret⟩

end Akroasis.Kryphos
