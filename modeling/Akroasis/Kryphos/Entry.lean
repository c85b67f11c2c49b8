import Akroasis.Aead
import Akroasis.Results

/-!
# Akroasis.Kryphos.Entry

Entries of the credential vault (`kryphos/src/vault.rs`, `crypto.rs`, `storage.rs`): what is
stored for a credential, how its two ciphertexts are made and how they are opened.

The secret is bound to the entry by the associated data of `entry_aad`; the metadata record
is encrypted with no associated data at all.  What comes from other crates is a field of
`Vault`: ChaCha20-Poly1305 under the vault key, keyed BLAKE3, and `serde_json`.
-/

namespace Akroasis.Kryphos

/-- A UTF-8 string, by its bytes. -/
abbrev Name := Bytes

/-- A UTC instant in nanoseconds. -/
abbrev Timestamp := Int

/-- A record key of the store. -/
abbrev LookupKey := FixedBytes 32

/-- A nonce of ChaCha20-Poly1305. -/
abbrev Nonce := FixedBytes 12

/-- `NONCE_LEN`. -/
def nonceLen : Nat := 12

/-- `ENTRY_ENVELOPE_VERSION`. -/
def entryEnvelopeVersion : UInt8 := 1

/-- `LEGACY_ENVELOPE_VERSION`. -/
def legacyEnvelopeVersion : UInt8 := 0

/-- The kind of credential. -/
inductive CredentialType where
  | apiKey | psk | certificate | radioKey
  | custom (label : Name)
  deriving DecidableEq

/-- Lifecycle status. -/
inductive EntryStatus where
  | active | revoked | expired
  deriving DecidableEq

/-- Kinds of lifecycle events. -/
inductive HistoryEventKind where
  | created | rotated | revoked
  deriving DecidableEq

/-- A lifecycle event. -/
structure HistoryEvent where
  timestamp : Timestamp
  kind : HistoryEventKind
  deriving DecidableEq

/-- Metadata of a credential. -/
structure EntryMetadata where
  createdAt : Timestamp
  rotatedAt : Option Timestamp
  revokedAt : Option Timestamp
  rotationCount : UInt32
  tags : List Name
  deriving DecidableEq

/-- Everything but the secret. -/
structure EntryMetadataRecord where
  name : Name
  credentialType : CredentialType
  metadata : EntryMetadata
  status : EntryStatus
  history : List HistoryEvent
  deriving DecidableEq

/-- An entry as stored. -/
structure StoredEntry where
  envelopeVersion : UInt8
  encryptedSecret : Bytes
  encryptedMetadata : Bytes
  deriving DecidableEq

/-- A credential as returned by `get`. -/
structure DecryptedEntry where
  name : Name
  credentialType : CredentialType
  secret : Bytes
  metadata : EntryMetadata
  deriving DecidableEq

/-- Errors of encryption and decryption. -/
inductive CryptoError where
  | decryptionFailed
  | encryptionFailed (reason : String)
  | invalidNonceLength (expected actual : Nat)
  deriving DecidableEq

/-- Errors of vault operations. -/
inductive VaultError where
  | entryNotFound (name : Name)
  | duplicateEntry (name : Name)
  | serialization
  | storageBackend
  | entryCrypto (source : CryptoError)
  | entryRevoked (name : Name)
  | entryExpired (name : Name)
  | entryNotDeletable (name : Name)
  | auditedMutationFailed (name : Name) (operation : String) (source : VaultError)
  | tamperLog
  | fieldTooLarge (field : String) (len : Nat)
  deriving DecidableEq

/-- An opened vault: its key and salt, and the code of other crates it calls.  `valueLen` is
the length of the JSON text of an entry. -/
structure Vault where
  key : FixedBytes 32
  salt : Bytes
  aead : Aead nonceLen
  keyedHash : FixedBytes 32 → Bytes → FixedBytes 32
  typeToJson : CredentialType → Option Bytes
  recordToJson : EntryMetadataRecord → Option Bytes
  recordOfJson : Bytes → Option EntryMetadataRecord
  valueLen : StoredEntry → Nat

/-! ## Encryption -/

/-- `encrypt`: the nonce in front of the ciphertext.  Its callers wrap errors as `EntryCrypto`. -/
def encrypt (V : Vault) (nonce : Nonce) (plaintext aad : Bytes) : Except VaultError Bytes :=
  match V.aead.encrypt nonce plaintext aad with
  | none => .error (.entryCrypto (.encryptionFailed "ChaCha20-Poly1305 encryption failed"))
  | some ciphertext => .ok (nonce.val ++ ciphertext)

/-- `decrypt`. -/
def decrypt (V : Vault) (ciphertext aad : Bytes) : Except VaultError Bytes :=
  if ciphertext.length < nonceLen then
    .error (.entryCrypto (.invalidNonceLength nonceLen ciphertext.length))
  else
    match V.aead.decrypt (.slice nonceLen 0 ciphertext) (ciphertext.drop nonceLen) aad with
    | none => .error (.entryCrypto .decryptionFailed)
    | some plaintext => .ok plaintext

/-- `checked_len_prefix`: four bytes, most significant first. -/
def checkedLenPrefix (field : String) (len : Nat) : Except VaultError Bytes :=
  if len < 2 ^ 32 then .ok (leBytes 4 len).reverse else .error (.fieldTooLarge field len)

/-- `entry_aad`. -/
def entryAad (V : Vault) (name : Name) (credentialType : CredentialType) (envelopeVersion : UInt8) :
    Except VaultError Bytes :=
  match V.typeToJson credentialType with
  | none => .error .serialization
  | some typeBytes =>
      (checkedLenPrefix "vault_salt" V.salt.length).bind fun saltLen =>
      (checkedLenPrefix "name" name.length).bind fun nameLen =>
      (checkedLenPrefix "credential_type" typeBytes.length).bind fun typeLen =>
        .ok (envelopeVersion ::
          (saltLen ++ (V.salt ++ (nameLen ++ (name ++ (typeLen ++ typeBytes))))))

/-- `encrypt_metadata`. -/
def encryptMetadata (V : Vault) (nonce : Nonce) (record : EntryMetadataRecord) :
    Except VaultError Bytes :=
  match V.recordToJson record with
  | none => .error .serialization
  | some metadataBytes => encrypt V nonce metadataBytes []

/-- `decrypt_metadata`. -/
def decryptMetadata (V : Vault) (entry : StoredEntry) : Except VaultError EntryMetadataRecord :=
  (decrypt V entry.encryptedMetadata []).bind fun metadataBytes =>
    match V.recordOfJson metadataBytes with
    | none => .error .serialization
    | some record => .ok record

/-! ## Derived names -/

/-- A byte as two hexadecimal digits. -/
def hexByte (b : UInt8) : List Char :=
  [Nat.digitChar (b.toNat / 16), Nat.digitChar (b.toNat % 16)]

/-- `audit_ref`: sixteen hexadecimal digits of a keyed hash of the name. -/
def auditRef (V : Vault) (name : Name) : String :=
  let subkey := V.keyedHash V.key (ascii "kryphos/vault/audit-ref/v1")
  String.ofList (((V.keyedHash subkey name).val.take 8).flatMap hexByte)

/-- `lookup_key`: the record key of a name. -/
def lookupKey (V : Vault) (name : Name) : LookupKey :=
  let subkey := V.keyedHash V.key (ascii "kryphos/vault/lookup-key/v1")
  V.keyedHash subkey name

/-! ## Laws of the other crates -/

/-- What is expected of encryption and of `serde_json`: what is sealed can be opened, and
records are read back as they were written. -/
structure Vault.Lawful (V : Vault) : Prop where
  opens : V.aead.RoundTrips
  json : ∀ record bytes, V.recordToJson record = some bytes → V.recordOfJson bytes = some record

variable {V : Vault} {nonce : Nonce} {plaintext aad aad' ciphertext : Bytes} {name name' : Name}
  {credentialType credentialType' : CredentialType} {version version' : UInt8}

/-- A ciphertext is its nonce and a sealed body. -/
theorem exists_decrypt_eq (h : encrypt V nonce plaintext aad = .ok ciphertext) :
    ∃ body, V.aead.encrypt nonce plaintext aad = some body ∧ ∀ aad', decrypt V ciphertext aad' =
      (V.aead.decrypt nonce body aad').elim (.error (.entryCrypto .decryptionFailed)) .ok := by
  unfold encrypt at h
  cases hseal : V.aead.encrypt nonce plaintext aad with
  | none => simp [hseal] at h
  | some body =>
      simp only [hseal, Except.ok.injEq] at h
      have hnonce : FixedBytes.slice nonceLen 0 ciphertext = nonce := by
        rw [← h]
        exact FixedBytes.slice_append [] nonce body rfl
      have hbody : ciphertext.drop nonceLen = body := by
        rw [← h]
        exact drop_append_of_length nonce.property
      have hlen : ¬ ciphertext.length < nonceLen := by
        have : nonce.val.length = nonceLen := nonce.property
        rw [← h, List.length_append]
        omega
      refine ⟨body, rfl, fun aad' => ?_⟩
      rw [decrypt, if_neg hlen, hnonce, hbody]
      cases V.aead.decrypt nonce body aad' <;> rfl

/-- A ciphertext opens under its own associated data. -/
theorem decrypt_of_encrypt (hV : V.aead.RoundTrips)
    (h : encrypt V nonce plaintext aad = .ok ciphertext) :
    decrypt V ciphertext aad = .ok plaintext := by
  obtain ⟨body, hseal, hdecrypt⟩ := exists_decrypt_eq h
  rw [hdecrypt, hV nonce plaintext aad body hseal, Option.elim_some]

/-- Under ideal encryption, it opens under no other. -/
theorem decrypt_eq_ite (hV : V.aead.Ideal) (h : encrypt V nonce plaintext aad = .ok ciphertext) :
    decrypt V ciphertext aad' =
      if aad' = aad then .ok plaintext else .error (.entryCrypto .decryptionFailed) := by
  obtain ⟨body, hseal, hdecrypt⟩ := exists_decrypt_eq h
  rw [hdecrypt, hV nonce plaintext aad body aad' hseal]
  by_cases haad : aad' = aad <;> simp [haad]

/-- What opens under ideal encryption was sealed with the same associated data. -/
theorem eq_of_decrypt (hV : V.aead.Ideal) (h : encrypt V nonce plaintext aad = .ok ciphertext)
    {plaintext' : Bytes} (hopened : decrypt V ciphertext aad' = .ok plaintext') :
    aad' = aad ∧ plaintext = plaintext' := by
  rwa [decrypt_eq_ite hV h, ite_ok_eq_ok, Except.ok.injEq] at hopened

theorem encryptMetadata_eq_ok {record : EntryMetadataRecord}
    (h : encryptMetadata V nonce record = .ok ciphertext) :
    ∃ bytes, V.recordToJson record = some bytes ∧ encrypt V nonce bytes [] = .ok ciphertext := by
  unfold encryptMetadata at h
  cases hjson : V.recordToJson record with
  | none => simp [hjson] at h
  | some bytes => exact ⟨bytes, rfl, by simpa only [hjson] using h⟩

/-- A record is read back from the entry it was encrypted for. -/
theorem decryptMetadata_of_encrypt (hV : V.Lawful) {record : EntryMetadataRecord}
    {entry : StoredEntry} (h : encryptMetadata V nonce record = .ok entry.encryptedMetadata) :
    decryptMetadata V entry = .ok record := by
  obtain ⟨bytes, hjson, hseal⟩ := encryptMetadata_eq_ok h
  simp [decryptMetadata, decrypt_of_encrypt hV.opens hseal, Except.bind, hV.json record bytes hjson]

/-- The parts of the associated data of an entry: three fields behind their lengths. -/
theorem entryAad_eq_ok (h : entryAad V name credentialType version = .ok aad) :
    ∃ typeBytes, V.typeToJson credentialType = some typeBytes ∧ V.salt.length < 256 ^ 4 ∧
      name.length < 256 ^ 4 ∧ typeBytes.length < 256 ^ 4 ∧
      aad = version ::
        (lengthPrefixed 4 V.salt ++ (lengthPrefixed 4 name ++ lengthPrefixed 4 typeBytes)) := by
  unfold entryAad at h
  cases htype : V.typeToJson credentialType with
  | none => simp [htype] at h
  | some typeBytes =>
      simp only [htype, bind_eq_ok, checkedLenPrefix, ite_ok_eq_ok, Except.ok.injEq] at h
      obtain ⟨saltLen, ⟨hsalt, rfl⟩, nameLen, ⟨hname, rfl⟩, typeLen, ⟨hjson, rfl⟩, rfl⟩ := h
      refine ⟨typeBytes, rfl, by omega, by omega, by omega, ?_⟩
      simp only [lengthPrefixed, List.append_assoc]

theorem entryAad_ne_nil (h : entryAad V name credentialType version = .ok aad) : aad ≠ [] := by
  obtain ⟨_, _, _, _, _, rfl⟩ := entryAad_eq_ok h
  simp

/-- The associated data of an entry determine its version, the salt, its name and the text of its
type. -/
theorem entryAad_fields {V' : Vault} (h : entryAad V name credentialType version = .ok aad)
    (h' : entryAad V' name' credentialType' version' = .ok aad) :
    version = version' ∧ V.salt = V'.salt ∧ name = name' ∧
      V.typeToJson credentialType = V'.typeToJson credentialType' := by
  obtain ⟨typeBytes, htype, hsalt, hname, hlen, rfl⟩ := entryAad_eq_ok h
  obtain ⟨typeBytes', htype', hsalt', hname', hlen', heq⟩ := entryAad_eq_ok h'
  obtain ⟨hversion, heq⟩ := List.cons.inj heq
  obtain ⟨hsalts, heq⟩ := lengthPrefixed_append_inj hsalt hsalt' heq
  obtain ⟨hnames, heq⟩ := lengthPrefixed_append_inj hname hname' heq
  have htypes := (lengthPrefixed_append_inj hlen hlen' (congrArg (· ++ []) heq)).1
  exact ⟨hversion, hsalts, hnames, by rw [htype, htype', htypes]⟩

end Akroasis.Kryphos
