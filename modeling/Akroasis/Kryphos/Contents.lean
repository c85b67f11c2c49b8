import Akroasis.Kryphos.Audit
import Akroasis.Kryphos.Authenticity

/-!
# Akroasis.Kryphos.Contents

What a vault is for: a table of credentials (`kryphos/src/storage.rs`).  `Credentials` is such a
table, with the operations of the vault and no encryption, no record keys and no lock.

`Represents` relates a store to a table.  `prepare` on a store does what `perform` does on the
table it represents (`Represents.prepare_ok`, `Represents.prepare_error`), and reading the
store gives what reading the table gives.  `vault_linearizable` carries that over to threads:
whatever they do, the vault is the table that its effective operations leave, performed one
after another in the order in which they returned.
-/

namespace Akroasis.Kryphos

/-! ## Reading the store -/

/-- Summary of an entry. -/
structure EntryInfo where
  name : Name
  credentialType : CredentialType
  status : EntryStatus
  metadata : EntryMetadata
  deriving DecidableEq

/-- Lifecycle history of an entry. -/
structure EntryHistory where
  name : Name
  status : EntryStatus
  metadata : EntryMetadata
  events : List HistoryEvent
  deriving DecidableEq

/-- What `list` found, and how many records it could not read. -/
structure VaultListing where
  entries : List EntryInfo
  unreadable : Nat
  deriving DecidableEq

def EntryMetadataRecord.info (record : EntryMetadataRecord) : EntryInfo :=
  ⟨record.name, record.credentialType, record.status, record.metadata⟩

def EntryMetadataRecord.entryHistory (record : EntryMetadataRecord) : EntryHistory :=
  ⟨record.name, record.status, record.metadata, record.history⟩

/-- The records in the order of their keys, as `iter` visits them. -/
def Keyspace.sorted (keyspace : Keyspace) : List (LookupKey × StoredEntry) :=
  keyspace.pairs.mergeSort fun a b => decide (a.1.val ≤ b.1.val)

/-- `list`: a record that does not open is counted. -/
def list (V : Vault) (keyspace : Keyspace) : VaultListing :=
  let records := (Keyspace.sorted keyspace).map fun x => (decryptMetadata V x.2).toOption
  ⟨(records.filterMap id).map EntryMetadataRecord.info, records.countP Option.isNone⟩

/-- `history`. -/
def history (V : Vault) (keyspace : Keyspace) (name : Name) : Except VaultError EntryHistory :=
  (readEntry V keyspace name).bind fun entry =>
  (decryptMetadata V entry).map EntryMetadataRecord.entryHistory

/-! ## A table of credentials -/

/-- A credential: its record and its secret. -/
structure Credential where
  record : EntryMetadataRecord
  secret : Bytes
  deriving DecidableEq

/-- Credentials by name. -/
abbrev Credentials := Table Name Credential

namespace Credentials

/-- The credential of a name. -/
def find (c : Credentials) (name : Name) : Except VaultError Credential :=
  (c.lookup name).elim (.error (.entryNotFound name)) .ok

/-- An operation at a time. -/
def perform (c : Credentials) (now : Timestamp) : Op → Except VaultError Credentials
  | .add name credentialType secret =>
      if (c.lookup name).isSome then .error (.duplicateEntry name)
      else .ok (c.insert name ⟨createdRecord name credentialType now, secret⟩)
  | .remove name => (c.find name).bind fun x =>
      if x.record.status = .revoked then .error (.entryNotDeletable name) else .ok (c.erase name)
  | .rotate name newSecret => (c.find name).bind fun x =>
      if x.record.status = .revoked then .error (.entryRevoked name)
      else .ok (c.insert name ⟨x.record.rotated now, newSecret⟩)
  | .revoke name => (c.find name).bind fun x =>
      if x.record.status = .revoked then .error (.entryRevoked name)
      else .ok (c.insert name { x with record := x.record.revoked now })

/-- The secret of a name, as long as it may be had. -/
def get (c : Credentials) (name : Name) : Except VaultError DecryptedEntry :=
  (c.find name).bind fun x =>
    if x.record.status = .revoked then .error (.entryRevoked name)
    else if x.record.status = .expired then .error (.entryExpired name)
    else .ok ⟨name, x.record.credentialType, x.secret, x.record.metadata⟩

/-- The history of a name. -/
def history (c : Credentials) (name : Name) : Except VaultError EntryHistory :=
  (c.find name).map fun x => x.record.entryHistory

/-- The summaries of all. -/
def infos (c : Credentials) : List EntryInfo := c.pairs.map fun x => x.2.record.info

/-- The table that a sequence of operations leaves, from nothing. -/
def replay (timeline : List (Op × Timestamp)) : Except VaultError Credentials :=
  timeline.foldlM (fun c x => c.perform x.2 x.1) ∅

theorem replay_concat {timeline : List (Op × Timestamp)} {c c' : Credentials} {op : Op}
    {now : Timestamp} (h : replay timeline = .ok c) (hperform : c.perform now op = .ok c') :
    replay (timeline ++ [(op, now)]) = .ok c' := by
  unfold replay at h ⊢
  rw [List.foldlM_append, h]
  change ((c.perform now op).bind fun c => .ok c) = .ok c'
  rw [hperform]
  rfl

theorem find_of_some {c : Credentials} {name : Name} {x : Credential} (h : c.lookup name = some x) :
    c.find name = .ok x := by rw [find, h]; rfl

theorem find_of_none {c : Credentials} {name : Name} (h : c.lookup name = none) :
    c.find name = .error (.entryNotFound name) := by rw [find, h]; rfl

end Credentials

/-! ## What a store represents -/

/-- The entry holds the credential, sealed for the name. -/
structure Holds (V : Vault) (name : Name) (entry : StoredEntry) (x : Credential) : Prop where
  opened : decryptMetadata V entry = .ok x.record
  named : x.record.name = name
  version : entry.envelopeVersion = entryEnvelopeVersion
  secret : ∃ aad, entryAad V name x.record.credentialType entryEnvelopeVersion = .ok aad ∧
    decrypt V entry.encryptedSecret aad = .ok x.secret

/-- The store holds the credentials of the table and no others. -/
structure Represents (V : Vault) (names : Set Name) (keyspace : Keyspace) (c : Credentials) :
    Prop where
  stored : ∀ name ∈ names,
    Option.Rel (Holds V name) (keyspace.lookup (lookupKey V name)) (c.lookup name)
  keys : ∀ key ∈ keyspace.keys, ∃ name ∈ names, lookupKey V name = key
  named : ∀ name ∈ c.keys, name ∈ names

variable {V : Vault} {names : Set Name} {keyspace : Keyspace} {c c' : Credentials} {name : Name}
  {entry : StoredEntry} {x : Credential} {record : EntryMetadataRecord} {env : Env} {op : Op}
  {mutation : Mutation} {error : VaultError} {secret : Bytes}

theorem Represents.empty : Represents V names ∅ ∅ where
  stored _ _ := .none
  keys _ h := by simp at h
  named _ h := by simp at h

/-- A name is in the store as it is in the table. -/
theorem Represents.cases (h : Represents V names keyspace c) (hname : name ∈ names) :
    keyspace.lookup (lookupKey V name) = none ∧ c.lookup name = none ∨
      ∃ entry x, keyspace.lookup (lookupKey V name) = some entry ∧ c.lookup name = some x ∧
        Holds V name entry x := by
  have hrel := h.stored name hname
  generalize keyspace.lookup (lookupKey V name) = stored at hrel
  generalize c.lookup name = found at hrel
  cases hrel with
  | none => exact .inl ⟨rfl, rfl⟩
  | some hholds => exact .inr ⟨_, _, rfl, rfl, hholds⟩

/-- Storing an entry is putting its credential into the table. -/
theorem Represents.insert (h : Represents V names keyspace c) (hinj : Set.InjOn (lookupKey V) names)
    (hname : name ∈ names) (hholds : Holds V name entry x) :
    Represents V names (keyspace.insert (lookupKey V name) entry) (c.insert name x) where
  stored other hother := by
    rw [Table.lookup_insert_ite, Table.lookup_insert_ite]
    by_cases heq : other = name
    · subst heq
      rw [if_pos rfl, if_pos rfl]
      exact .some hholds
    · rw [if_neg fun hkey => heq (hinj hother hname hkey), if_neg heq]
      exact h.stored other hother
  keys key hkey := by
    rw [← AList.mem_keys, AList.mem_insert] at hkey
    rcases hkey with rfl | hkey
    · exact ⟨name, hname, rfl⟩
    · exact h.keys key hkey
  named other hmem := by
    rw [← AList.mem_keys, AList.mem_insert] at hmem
    rcases hmem with rfl | hmem
    · exact hname
    · exact h.named other hmem

/-- Removing a record is removing its credential from the table. -/
theorem Represents.erase (h : Represents V names keyspace c) (hinj : Set.InjOn (lookupKey V) names)
    (hname : name ∈ names) :
    Represents V names (keyspace.erase (lookupKey V name)) (c.erase name) where
  stored other hother := by
    rw [Table.lookup_erase_ite, Table.lookup_erase_ite]
    by_cases heq : other = name
    · subst heq
      rw [if_pos rfl, if_pos rfl]
      exact .none
    · rw [if_neg fun hkey => heq (hinj hother hname hkey), if_neg heq]
      exact h.stored other hother
  keys key hkey := by
    rw [← AList.mem_keys, AList.mem_erase] at hkey
    exact h.keys key hkey.2
  named other hmem := by
    rw [← AList.mem_keys, AList.mem_erase] at hmem
    exact h.named other hmem.2

/-! ## Operations -/

/-- A sealed entry holds what was sealed. -/
theorem holds_of_sealEntry (hV : V.Lawful) (h : sealEntry V env name secret record = .ok entry)
    (hname : record.name = name) : Holds V name entry ⟨record, secret⟩ := by
  obtain ⟨hversion, hmetadata, aad, haad, hsecret⟩ := sealEntry_eq_ok h
  refine ⟨decryptMetadata_of_encrypt hV hmetadata, hname, hversion, aad, haad, ?_⟩
  exact decrypt_of_encrypt hV.opens hsecret

/-- New metadata leaves the secret as it is. -/
theorem Holds.withMetadata (hV : V.Lawful) (h : Holds V name entry x) {encryptedMetadata : Bytes}
    {nonce : Nonce} (hmetadata : encryptMetadata V nonce record = .ok encryptedMetadata)
    (hname : record.name = name) (htype : record.credentialType = x.record.credentialType) :
    Holds V name { entry with encryptedMetadata := encryptedMetadata }
      { x with record := record } where
  opened := decryptMetadata_of_encrypt hV hmetadata
  named := hname
  version := h.version
  secret := by
    obtain ⟨aad, haad, hsecret⟩ := h.secret
    exact ⟨aad, htype ▸ haad, hsecret⟩

/-- What an operation has read is in the table. -/
theorem Represents.of_readable (h : Represents V names keyspace c) (hname : name ∈ names)
    (hread : Readable V keyspace name entry record) :
    ∃ x, c.lookup name = some x ∧ x.record = record ∧ Holds V name entry x := by
  rcases h.cases hname with ⟨hnone, _⟩ | ⟨entry', x, hstored, hfound, hholds⟩
  · cases hnone.symm.trans hread.stored
  · obtain rfl := Option.some.inj (hstored.symm.trans hread.stored)
    exact ⟨x, hfound, Except.ok.inj (hholds.opened.symm.trans hread.opened), hholds⟩

/-- **An operation that is prepared** can be performed on the table, and the changed store
represents the result. -/
theorem Represents.prepare_ok (h : Represents V names keyspace c) (hV : V.Lawful)
    (hinj : Set.InjOn (lookupKey V) names) (hop : op.name ∈ names)
    (hprepare : prepare V keyspace env op = .ok mutation) :
    ∃ c', c.perform env.now op = .ok c' ∧ Represents V names (mutation.apply keyspace) c' := by
  rcases prepare_cases hprepare with ⟨name, credentialType, secret, entry, rfl, hnone, hseal, rfl⟩ |
    ⟨name, entry, record, hread, hcases⟩
  · rcases h.cases hop with ⟨_, hfree⟩ | ⟨_, _, hstored, _⟩
    · refine ⟨_, ?_, h.insert hinj hop (holds_of_sealEntry hV hseal rfl)⟩
      have hfree' : c.lookup name = none := hfree
      simp [Credentials.perform, hfree']
    · cases hnone.symm.trans hstored
  · have hname : name ∈ names := by
      rcases hcases with ⟨rfl, _⟩ | ⟨_, _, rfl, _⟩ | ⟨_, rfl, _⟩ <;> exact hop
    obtain ⟨x, hfound, rfl, hholds⟩ := h.of_readable hname hread
    have hstatus := hread.unrevoked
    rcases hcases with ⟨rfl, rfl⟩ | ⟨newSecret, new, rfl, hseal, rfl⟩ |
      ⟨encryptedMetadata, rfl, hmetadata, rfl⟩
    · refine ⟨c.erase name, ?_, h.erase hinj hname⟩
      simp [Credentials.perform, Credentials.find_of_some hfound, Except.bind, hstatus]
    · refine ⟨_, ?_, h.insert hinj hname (holds_of_sealEntry hV hseal hholds.named)⟩
      simp [Credentials.perform, Credentials.find_of_some hfound, Except.bind, hstatus]
    · refine ⟨_, ?_, h.insert hinj hname (hholds.withMetadata hV hmetadata hholds.named rfl)⟩
      simp [Credentials.perform, Credentials.find_of_some hfound, Except.bind, hstatus]

/-- Errors that say nothing of the credentials: of the store, of encryption, of `serde_json` and
of lengths. -/
def VaultError.isEnvironmental : VaultError → Bool
  | .storageBackend | .serialization | .entryCrypto _ | .fieldTooLarge .. => true
  | _ => false

theorem isEnvironmental_of_encrypt {nonce : Nonce} {plaintext aad : Bytes}
    (h : encrypt V nonce plaintext aad = .error error) : error.isEnvironmental = true := by
  unfold encrypt at h
  cases hseal : V.aead.encrypt nonce plaintext aad with
  | none =>
      simp only [hseal, Except.error.injEq] at h
      exact h ▸ rfl
  | some => simp [hseal] at h

theorem isEnvironmental_of_encryptMetadata {nonce : Nonce}
    (h : encryptMetadata V nonce record = .error error) : error.isEnvironmental = true := by
  unfold encryptMetadata at h
  cases hjson : V.recordToJson record with
  | none =>
      simp only [hjson, Except.error.injEq] at h
      exact h ▸ rfl
  | some => exact isEnvironmental_of_encrypt (by simpa [hjson] using h)

theorem isEnvironmental_of_entryAad {credentialType : CredentialType} {version : UInt8}
    (h : entryAad V name credentialType version = .error error) : error.isEnvironmental = true := by
  have hlen : ∀ {field len}, checkedLenPrefix field len = .error error →
      error.isEnvironmental = true := by
    intro field len hlen
    unfold checkedLenPrefix at hlen
    split at hlen
    · cases hlen
    · exact Except.error.inj hlen ▸ rfl
  unfold entryAad at h
  cases htype : V.typeToJson credentialType with
  | none =>
      simp only [htype, Except.error.injEq] at h
      exact h ▸ rfl
  | some =>
      simp only [htype, bind_eq_error, reduceCtorEq, and_false, exists_false, or_false] at h
      rcases h with h | ⟨_, _, h | ⟨_, _, h⟩⟩ <;> exact hlen h

theorem isEnvironmental_of_sealEntry (h : sealEntry V env name secret record = .error error) :
    error.isEnvironmental = true := by
  simp only [sealEntry, bind_eq_error, reduceCtorEq, and_false, exists_false, or_false] at h
  rcases h with h | ⟨_, _, h | ⟨_, _, h⟩⟩
  · exact isEnvironmental_of_entryAad h
  · exact isEnvironmental_of_encrypt h
  · exact isEnvironmental_of_encryptMetadata h

/-- An operation that reads a credential and then decides, in the store as in the table. -/
theorem Represents.bind_error {α β : Type}
    {f : StoredEntry → EntryMetadataRecord → Except VaultError α}
    {g : Credential → Except VaultError β} (h : Represents V names keyspace c)
    (hname : name ∈ names)
    (hfg : ∀ entry x, f entry x.record = .error error →
      error.isEnvironmental = true ∨ g x = .error error)
    (hf : ((readEntry V keyspace name).bind fun entry =>
      (decryptMetadata V entry).bind (f entry)) = .error error) :
    error.isEnvironmental = true ∨ (c.find name).bind g = .error error := by
  rcases h.cases hname with ⟨hnone, hfree⟩ | ⟨entry, x, hstored, hfound, hholds⟩
  · rw [Credentials.find_of_none hfree]
    simp only [readEntry, hnone, Except.bind, Except.error.injEq] at hf
    exact .inr (hf ▸ rfl)
  · rw [Credentials.find_of_some hfound]
    simp only [readEntry, hstored, Except.bind, hholds.opened] at hf
    exact hfg entry x hf

/-- **An operation that is refused** is refused by the table with the same error, unless it is
one of the environment. -/
theorem Represents.prepare_error (h : Represents V names keyspace c) (hop : op.name ∈ names)
    (hprepare : prepare V keyspace env op = .error error) :
    error.isEnvironmental = true ∨ c.perform env.now op = .error error := by
  unfold prepare at hprepare
  split at hprepare
  · exact .inl (Except.error.inj hprepare ▸ rfl)
  cases op with
  | add name credentialType secret =>
      change name ∈ names at hop
      simp only [prepareAdd] at hprepare
      rcases h.cases hop with ⟨hnone, _⟩ | ⟨entry, x, hstored, hfound, _⟩
      · simp only [hnone, Option.isSome_none, Bool.false_eq_true, if_false,
          map_eq_error] at hprepare
        exact .inl (isEnvironmental_of_sealEntry hprepare)
      · simp only [hstored, Option.isSome_some, if_true, Except.error.injEq] at hprepare
        exact .inr (by simp [Credentials.perform, hfound, hprepare])
  | remove name =>
      refine h.bind_error hop (fun entry x herror => ?_) hprepare
      by_cases hstatus : x.record.status = .revoked
      · exact .inr (by simpa [hstatus] using herror)
      · simp [hstatus] at herror
  | rotate name newSecret =>
      refine h.bind_error hop (fun entry x herror => ?_) hprepare
      by_cases hstatus : x.record.status = .revoked
      · exact .inr (by simpa [hstatus] using herror)
      · rw [if_neg hstatus, map_eq_error] at herror
        exact .inl (isEnvironmental_of_sealEntry herror)
  | revoke name =>
      refine h.bind_error hop (fun entry x herror => ?_) hprepare
      by_cases hstatus : x.record.status = .revoked
      · exact .inr (by simpa [hstatus] using herror)
      · rw [if_neg hstatus, map_eq_error] at herror
        exact .inl (isEnvironmental_of_encryptMetadata herror)

/-! ## Reads -/

/-- `get` returns the credential of the table. -/
theorem Represents.get_eq (h : Represents V names keyspace c) (hname : name ∈ names) :
    get V keyspace name = c.get name := by
  unfold get Credentials.get
  rcases h.cases hname with ⟨hnone, hfree⟩ | ⟨entry, x, hstored, hfound, hholds⟩
  · rw [Credentials.find_of_none hfree]
    simp [readEntry, hnone, Except.bind]
  · obtain ⟨aad, haad, hsecret⟩ := hholds.secret
    have hversion : entry.envelopeVersion ≠ legacyEnvelopeVersion := by
      rw [hholds.version]
      decide
    rw [Credentials.find_of_some hfound]
    simp only [readEntry, hstored, Except.bind, hholds.opened, if_neg hversion]
    cases hstatus : x.record.status with
    | revoked | expired => simp
    | active => simp [hholds.version, haad, hsecret, Except.map, hholds.named]

/-- `history` returns the history of the table. -/
theorem Represents.history_eq (h : Represents V names keyspace c) (hname : name ∈ names) :
    history V keyspace name = c.history name := by
  unfold history Credentials.history
  rcases h.cases hname with ⟨hnone, hfree⟩ | ⟨entry, x, hstored, hfound, hholds⟩
  · rw [Credentials.find_of_none hfree]
    simp [readEntry, hnone, Except.bind, Except.map]
  · rw [Credentials.find_of_some hfound]
    simp [readEntry, hstored, Except.bind, hholds.opened, Except.map]

/-- Every stored record is that of a credential of the table. -/
theorem Represents.holds_of_mem (h : Represents V names keyspace c) {key : LookupKey}
    (hmem : (key, entry) ∈ keyspace.pairs) :
    ∃ name x, c.lookup name = some x ∧ lookupKey V name = key ∧ Holds V name entry x := by
  have hlookup := Table.mem_pairs.mp hmem
  obtain ⟨name, hname, rfl⟩ := h.keys key ((Table.mem_keys_iff _ _).mpr ⟨entry, hlookup⟩)
  rcases h.cases hname with ⟨hnone, _⟩ | ⟨entry', x, hstored, hfound, hholds⟩
  · cases hnone.symm.trans hlookup
  · obtain rfl := Option.some.inj (hstored.symm.trans hlookup)
    exact ⟨name, x, hfound, rfl, hholds⟩

/-- Every credential of the table is stored. -/
theorem Represents.holds_of_lookup (h : Represents V names keyspace c)
    (hfound : c.lookup name = some x) :
    ∃ entry, keyspace.lookup (lookupKey V name) = some entry ∧ Holds V name entry x := by
  rcases h.cases (h.named name ((Table.mem_keys_iff _ _).mpr ⟨x, hfound⟩)) with ⟨_, hnone⟩ |
    ⟨entry, x', hstored, hfound', hholds⟩
  · cases hnone.symm.trans hfound
  · obtain rfl := Option.some.inj (hfound'.symm.trans hfound)
    exact ⟨entry, hstored, hholds⟩

/-- The records that open, in the order of the table. -/
def openedRecords (V : Vault) (keyspace : Keyspace) : List EntryMetadataRecord :=
  keyspace.pairs.filterMap fun x => (decryptMetadata V x.2).toOption

theorem Represents.mem_openedRecords (h : Represents V names keyspace c) :
    record ∈ openedRecords V keyspace ↔ ∃ name x, c.lookup name = some x ∧ x.record = record := by
  simp only [openedRecords, List.mem_filterMap, toOption_eq_some, Prod.exists]
  constructor
  · rintro ⟨key, entry, hmem, hopened⟩
    obtain ⟨name, x, hfound, _, hholds⟩ := h.holds_of_mem hmem
    exact ⟨name, x, hfound, Except.ok.inj (hholds.opened.symm.trans hopened)⟩
  · rintro ⟨name, x, hfound, rfl⟩
    obtain ⟨entry, hstored, hholds⟩ := h.holds_of_lookup hfound
    exact ⟨_, entry, Table.mem_pairs.mpr hstored, hholds.opened⟩

/-- The keys of the records that open are those of the store. -/
theorem Represents.map_openedRecords (h : Represents V names keyspace c) :
    (openedRecords V keyspace).map (fun record => lookupKey V record.name) =
      keyspace.pairs.map Prod.fst := by
  rw [openedRecords, List.map_filterMap, ← List.filterMap_eq_map]
  refine List.filterMap_congr fun x hmem => ?_
  obtain ⟨name, y, _, hkey, hholds⟩ := h.holds_of_mem hmem
  simp [hholds.opened, Except.toOption, hholds.named, hkey]

/-- **`list`** returns every credential of the table once and misses none. -/
theorem Represents.list_eq (h : Represents V names keyspace c) :
    (list V keyspace).unreadable = 0 ∧ (list V keyspace).entries.Perm c.infos := by
  have hsorted : (Keyspace.sorted keyspace).Perm keyspace.pairs := List.mergeSort_perm _ _
  constructor
  · simp only [list, List.countP_eq_zero, List.mem_map]
    rintro _ ⟨x, hmem, rfl⟩
    obtain ⟨_, _, _, _, hholds⟩ := h.holds_of_mem (hsorted.mem_iff.mp hmem)
    simp [hholds.opened, Except.toOption]
  · have hopened : (openedRecords V keyspace).Nodup := by
      refine List.Nodup.of_map (fun record => lookupKey V record.name) ?_
      rw [h.map_openedRecords, Table.pairs, List.map_map]
      exact keyspace.nodupKeys
    have hrecords : (c.pairs.map fun x => x.2.record).Nodup := by
      refine List.Nodup.of_map EntryMetadataRecord.name ?_
      have hnames : (c.pairs.map fun x => x.2.record).map EntryMetadataRecord.name =
          c.pairs.map Prod.fst := by
        rw [List.map_map]
        refine List.map_congr_left fun x hmem => ?_
        obtain ⟨_, _, hholds⟩ := h.holds_of_lookup (Table.mem_pairs.mp hmem)
        exact hholds.named
      rw [hnames, Table.pairs, List.map_map]
      exact c.nodupKeys
    have hperm : (openedRecords V keyspace).Perm (c.pairs.map fun x => x.2.record) := by
      rw [List.perm_ext_iff_of_nodup hopened hrecords]
      intro record
      rw [h.mem_openedRecords, List.mem_map]
      simp only [Prod.exists, Table.mem_pairs]
    have hlist : (list V keyspace).entries =
        ((Keyspace.sorted keyspace).filterMap fun x => (decryptMetadata V x.2).toOption).map
          EntryMetadataRecord.info := by
      simp only [list, List.filterMap_map]
      rfl
    have hinfos : c.infos = (c.pairs.map fun x => x.2.record).map EntryMetadataRecord.info := by
      rw [Credentials.infos, List.map_map]
      rfl
    rw [hlist, hinfos]
    exact ((hsorted.filterMap _).trans hperm).map _

/-! ## Threads -/

/-- The operation has changed the store. -/
def Outcome.isEffective : Outcome → Bool
  | .persistFailed | .done => true
  | .refused _ | .auditFailed | .writeFailed => false

def Phase.isWritten : Phase → Bool
  | .written => true
  | .locked | .prepared _ | .audited _ => false

/-- How many of the operations that have returned changed the store. -/
def effectiveCount (replies : List Reply) : Nat := replies.countP fun r => r.outcome.isEffective

/-- The operations that changed the store, in the order in which they returned.  The last of them
may still have to return. -/
def State.effective (s : State) : List Op :=
  (s.replies.filter fun r => r.outcome.isEffective).map Reply.op ++
    (s.holder.toList.filter fun p => p.phase.isWritten).map Progress.op

/-- An operation found the table `c` that the first `n` operations of the timeline leave, and
what it did and answered is what the table does and answers. -/
structure Answered (V : Vault) (names : Set Name) (timeline : List (Op × Timestamp)) (n : Nat)
    (c : Credentials) (r : Reply) : Prop where
  replayed : Credentials.replay (timeline.take n) = .ok c
  before : Represents V names r.before c
  unchanged : r.outcome.isEffective = false → r.after = r.before
  refused : ∀ error, r.outcome = .refused error →
    error.isEnvironmental = true ∨ ∃ now, c.perform now r.op = .error error
  effective : r.outcome.isEffective = true → ∃ now c', timeline[n]? = some (r.op, now) ∧
    c.perform now r.op = .ok c' ∧ Represents V names r.after c'

/-- The state is that of a table and a timeline that leads to it. -/
structure Linearized (V : Vault) (names : Set Name) (s : State) (timeline : List (Op × Timestamp))
    (c : Credentials) : Prop where
  lock : s.Undisturbed V
  named : ∀ p ∈ s.holder, p.op.name ∈ names
  effective : timeline.map Prod.fst = s.effective
  replayed : Credentials.replay timeline = .ok c
  store : Represents V names s.keyspace c
  written : ∀ p ∈ s.holder, p.phase = .written → ∃ c₀ now,
    Credentials.replay (timeline.take (effectiveCount s.replies)) = .ok c₀ ∧
      Represents V names p.before c₀ ∧ timeline[effectiveCount s.replies]? = some (p.op, now) ∧
      c₀.perform now p.op = .ok c
  answered : ∀ earlier r later, s.replies = earlier ++ r :: later →
    ∃ c, Answered V names timeline (effectiveCount earlier) c r

variable {s s' : State} {e : Event} {p : Progress} {timeline : List (Op × Timestamp)} {n : Nat}
  {r : Reply} {now : Timestamp}

theorem Answered.append (h : Answered V names timeline n c r) (hn : n ≤ timeline.length)
    (x : Op × Timestamp) :
    Answered V names (timeline ++ [x]) n c r where
  replayed := by rw [List.take_append_of_le_length hn]; exact h.replayed
  before := h.before
  unchanged := h.unchanged
  refused := h.refused
  effective heffective := by
    obtain ⟨now, c', hget, hperform, hafter⟩ := h.effective heffective
    exact ⟨now, c', by rw [List.getElem?_append_left (List.getElem?_eq_some_iff.mp hget).1, hget],
      hperform, hafter⟩

theorem effectiveCount_le {replies earlier later : List Reply} (h : replies = earlier ++ later) :
    effectiveCount earlier ≤ effectiveCount replies := by
  rw [h, effectiveCount, effectiveCount, List.countP_append]
  omega

namespace Linearized

theorem length_timeline (h : Linearized V names s timeline c) :
    timeline.length =
      effectiveCount s.replies + (s.holder.toList.filter fun p => p.phase.isWritten).length := by
  have hlength := congrArg List.length h.effective
  simpa [State.effective, effectiveCount, List.countP_eq_length_filter] using hlength

theorem start : Linearized V names State.start [] ∅ where
  lock := State.undisturbed_start
  named := by simp [State.start]
  effective := rfl
  replayed := rfl
  store := .empty
  written := by simp [State.start]
  answered := by simp [State.start]

/-- The lock is held, and no operation has written: the timeline is that of the replies. -/
theorem take_timeline (h : Linearized V names s timeline c) (hholder : s.holder = some p)
    (hphase : p.phase.isWritten = false) : timeline.take (effectiveCount s.replies) = timeline := by
  have hlength := h.length_timeline
  simp only [hholder, Option.toList_some, List.filter_cons, hphase, Bool.false_eq_true, if_false,
    List.filter_nil, List.length_nil] at hlength
  exact List.take_of_length_le (by omega)

variable {log : List StoreAction}

/-- The holder of the lock returns, and what it returns is accounted for. -/
theorem finish (h : Linearized V names s timeline c) (hholder : s.holder = some p)
    {outcome : Outcome} (hphase : outcome.isEffective = p.phase.isWritten)
    (hanswered : ∃ c₀, Answered V names timeline (effectiveCount s.replies) c₀
      ⟨p.thread, p.op, outcome, p.before, s.keyspace⟩)
    (hlock : (State.finish { s with log := log } p outcome).Undisturbed V) :
    Linearized V names (State.finish { s with log := log } p outcome) timeline c where
  lock := hlock
  named := by simp [State.finish]
  effective := by
    rw [h.effective, State.effective, State.effective, hholder]
    cases hwritten : p.phase.isWritten <;>
      simp [State.finish, hphase, hwritten, List.filter_append]
  replayed := h.replayed
  store := h.store
  written := by simp [State.finish]
  answered earlier r later heq := by
    rcases Machine.append_singleton_split heq with ⟨rfl, rfl⟩ | ⟨rest, hrest⟩
    · exact hanswered
    · exact h.answered earlier r rest hrest

/-- The holder of the lock goes on without touching the store. -/
theorem goto (h : Linearized V names s timeline c) (hholder : s.holder = some p) {phase : Phase}
    (hold : p.phase.isWritten = false) (hnew : phase.isWritten = false)
    (hlock : (State.goto { s with log := log } p phase).Undisturbed V) :
    Linearized V names (State.goto { s with log := log } p phase) timeline c where
  lock := hlock
  named := by
    rintro q ⟨⟩
    exact h.named p hholder
  effective := by
    rw [h.effective]
    simp [State.effective, State.goto, hholder, hold, hnew]
  replayed := h.replayed
  store := h.store
  written := by
    rintro q ⟨⟩ hwritten
    simp only at hwritten
    rw [hwritten] at hnew
    cases hnew
  answered := h.answered

/-- The holder of the lock changes the store, and the timeline gets longer. -/
theorem change (h : Linearized V names s timeline c) (hV : V.Lawful)
    (hinj : Set.InjOn (lookupKey V) names) (hholder : s.holder = some p)
    (hphase : p.phase = .audited mutation)
    (hlock : ((s.change p.op mutation).goto p .written).Undisturbed V) :
    ∃ timeline' c', Linearized V names ((s.change p.op mutation).goto p .written) timeline' c' := by
  have hpending := h.lock p hholder
  rw [hphase] at hpending
  obtain ⟨hbefore, ⟨env, hprepare⟩, _⟩ := hpending
  obtain ⟨c', hperform, hstore⟩ := h.store.prepare_ok hV hinj (h.named p hholder) hprepare
  have hwritten : p.phase.isWritten = false := by rw [hphase]; rfl
  have htake := h.take_timeline hholder hwritten
  have hlength : timeline.length = effectiveCount s.replies := by
    rw [h.length_timeline]
    simp [hholder, hwritten]
  refine ⟨timeline ++ [(p.op, env.now)], c', ?_⟩
  exact {
    lock := hlock
    named := by
      rintro q ⟨⟩
      exact h.named p hholder
    effective := by
      have hnew : Phase.written.isWritten = true := rfl
      rw [List.map_append, h.effective]
      simp [State.effective, State.goto, State.change, hholder, hwritten, hnew]
    replayed := Credentials.replay_concat h.replayed hperform
    store := hstore
    written := by
      rintro q ⟨⟩ _
      refine ⟨c, env.now, ?_, hbefore ▸ h.store, ?_, hperform⟩
      · change Credentials.replay
          ((timeline ++ [(p.op, env.now)]).take (effectiveCount s.replies)) = .ok c
        rw [List.take_append_of_le_length (by omega), htake]
        exact h.replayed
      · change (timeline ++ [(p.op, env.now)])[effectiveCount s.replies]? = some (p.op, env.now)
        rw [← hlength, List.getElem?_concat_length]
    answered := by
      intro earlier r later heq
      obtain ⟨c₀, hanswered⟩ := h.answered earlier r later heq
      have hle : effectiveCount earlier ≤ effectiveCount s.replies := effectiveCount_le heq
      exact ⟨c₀, hanswered.append (by omega) _⟩ }

/-- An operation that returns before it has changed the store leaves it as it found it. -/
theorem finish_unchanged (h : Linearized V names s timeline c) (hholder : s.holder = some p)
    {outcome : Outcome} (hphase : p.phase.isWritten = false)
    (houtcome : outcome.isEffective = false) (hbefore : s.keyspace = p.before)
    (hrefused : ∀ error, outcome = .refused error →
      error.isEnvironmental = true ∨ ∃ now, c.perform now p.op = .error error)
    (hlock : (State.finish { s with log := log } p outcome).Undisturbed V) :
    Linearized V names (State.finish { s with log := log } p outcome) timeline c := by
  refine h.finish hholder (houtcome.trans hphase.symm) ⟨c, ?_⟩ hlock
  exact {
    replayed := by rw [h.take_timeline hholder hphase]; exact h.replayed
    before := hbefore ▸ h.store
    unchanged := fun _ => hbefore
    refused := hrefused
    effective := fun heffective => by simp [houtcome] at heffective }

/-- An operation that has changed the store returns. -/
theorem finish_written (h : Linearized V names s timeline c) (hholder : s.holder = some p)
    {outcome : Outcome} (hphase : p.phase = .written) (houtcome : outcome.isEffective = true)
    (hlock : (s.finish p outcome).Undisturbed V) :
    Linearized V names (s.finish p outcome) timeline c := by
  have hwritten : p.phase.isWritten = true := by rw [hphase]; rfl
  obtain ⟨c₀, now, hreplayed, hbefore, hget, hperform⟩ := h.written p hholder hphase
  refine h.finish hholder (houtcome.trans hwritten.symm) ⟨c₀, ?_⟩ hlock
  exact {
    replayed := hreplayed
    before := hbefore
    unchanged := fun hnone => by simp [houtcome] at hnone
    refused := fun error herror => by
      change outcome = .refused error at herror
      rw [herror] at houtcome
      cases houtcome
    effective := fun _ => ⟨now, c, hget, hperform, h.store⟩ }

end Linearized

/-- An operation is refused with the error of its preparation. -/
theorem State.prepare_of_refused (hholder : s.holder = some p) (hphase : p.phase = .locked)
    (hstep : s.step V e = some (s.finish p (.refused error))) :
    ∃ env, prepare V s.keyspace env p.op = .error error := by
  have hne : ∀ t : State, t.holder ≠ none → t ≠ s.finish p (.refused error) := by
    rintro t ht rfl
    exact ht rfl
  unfold State.step at hstep
  split at hstep
  next => exact absurd (Option.some.inj hstep) (hne s (by simp [hholder]))
  next hnone => cases hnone.symm.trans hholder
  next => cases hstep
  next q hq _ =>
    obtain rfl := Option.some.inj (hq.symm.trans hholder)
    split at hstep
    next =>
      rw [hphase] at hstep
      generalize e.action = action at hstep
      cases action with
      | prepare env =>
          have heq := Option.some.inj hstep
          cases hprepare : prepare V s.keyspace env q.op with
          | error error' =>
              simp only [hprepare, State.finish, State.mk.injEq, List.append_cancel_left_eq,
                List.cons.injEq, Reply.mk.injEq, Outcome.refused.injEq, true_and, and_true] at heq
              exact ⟨env, heq ▸ hprepare⟩
          | ok mutation =>
              simp only [hprepare] at heq
              exact absurd heq (hne _ (by simp [State.goto]))
      | acquire | audit | write | persist | get => cases hstep
    next => cases hstep

/-- **Steps**: whatever a thread does next, the vault stays that of a table. -/
theorem Linearized.step (h : Linearized V names s timeline c) (hV : V.Lawful)
    (hinj : Set.InjOn (lookupKey V) names)
    (hacquire : ∀ op, e.action = .acquire op → op.name ∈ names) (hstep : s.step V e = some s') :
    ∃ timeline' c', Linearized V names s' timeline' c' := by
  have hlock := h.lock.step hstep
  rcases State.step_cases hstep with rfl | ⟨hholder, op, haction, rfl⟩ | ⟨p, hholder, hadvanced⟩
  · exact ⟨timeline, c, h⟩
  · refine ⟨timeline, c, hlock, ?_, ?_, h.replayed, h.store, ?_, h.answered⟩
    · rintro q ⟨⟩
      exact hacquire op haction
    · rw [h.effective]
      simp [State.effective, hholder, Phase.isWritten]
    · rintro q ⟨⟩ hwritten
      cases hwritten
  · have hp := h.lock p hholder
    cases hadvanced with
    | refused hphase error =>
        obtain ⟨env, hprepare⟩ := State.prepare_of_refused hholder hphase hstep
        rw [hphase] at hp
        refine ⟨timeline, c, h.finish_unchanged hholder (by rw [hphase]; rfl) rfl hp ?_ hlock⟩
        rintro _ ⟨⟩
        exact (h.store.prepare_error (h.named p hholder) hprepare).imp id fun herror =>
          ⟨env.now, herror⟩
    | prepared hphase hprepare =>
        exact ⟨timeline, c, h.goto hholder (by rw [hphase]; rfl) rfl hlock⟩
    | audited hphase =>
        exact ⟨timeline, c, h.goto hholder (by rw [hphase]; rfl) rfl hlock⟩
    | auditFailed hphase | auditLost hphase | writeFailed hphase =>
        rw [hphase] at hp
        exact ⟨timeline, c,
          h.finish_unchanged hholder (by rw [hphase]; rfl) rfl hp.1 (by simp) hlock⟩
    | written hphase hfits => exact h.change hV hinj hholder hphase hlock
    | persistFailed hphase | done hphase =>
        exact ⟨timeline, c, h.finish_written hholder hphase rfl hlock⟩

/-- **The vault is a table of credentials.**  After any run of threads there are a table and a
timeline of operations that leads to it, in the order in which those that changed the store
returned.  `get` and `history` answer from the table, `list` returns every credential once, and
each operation that returned found and did what the table had it find and do at its place in
the timeline, unless the environment failed it. -/
theorem vault_linearizable (hV : V.Lawful) (hinj : Set.InjOn (lookupKey V) names)
    {events : List Event} (hnames : ∀ e ∈ events, ∀ op, e.action = .acquire op → op.name ∈ names)
    (hrun : Machine.run (State.step V) State.start events = some s) :
    ∃ timeline c, timeline.map Prod.fst = s.effective ∧ Credentials.replay timeline = .ok c ∧
      (∀ name ∈ names, get V s.keyspace name = c.get name ∧
      history V s.keyspace name = c.history name) ∧
      (list V s.keyspace).unreadable = 0 ∧ (list V s.keyspace).entries.Perm c.infos ∧
      ∀ earlier r later, s.replies = earlier ++ r :: later →
        ∃ c, Answered V names timeline (effectiveCount earlier) c r := by
  have hlinear : ∃ timeline c, Linearized V names s timeline c :=
    Machine.run_invariant (P := fun _ e => ∀ op, e.action = .acquire op → op.name ∈ names)
      (I := fun s => ∃ timeline c, Linearized V names s timeline c)
      (fun s e s' ⟨_, _, h⟩ hacquire hstep => h.step hV hinj hacquire hstep) ⟨[], ∅, .start⟩
      (Machine.meets_of_forall_mem (fun e he _ => hnames e he) _) hrun
  obtain ⟨timeline, c, h⟩ := hlinear
  exact ⟨timeline, c, h.effective, h.replayed,
    fun name hname => ⟨h.store.get_eq hname, h.store.history_eq hname⟩,
    h.store.list_eq.1, h.store.list_eq.2, h.answered⟩

/-- Credential `wx` is added, another thread fails to add it again and then rotates it. -/
def sampleTurns : List Event :=
  sampleEvents 1 (.add (ascii "wx") .apiKey (ascii "s1")) 1 ++
    [⟨2, .acquire (.add (ascii "wx") .psk (ascii "s3"))⟩,
      ⟨2, .prepare ⟨sampleTime 2, default, default, false⟩⟩] ++
    sampleEvents 2 (.rotate (ascii "wx") (ascii "s2")) 2

/-- The second `add` is refused by the table too, and the table has the secret of the rotation. -/
theorem vault_linearizable_rotated :
    ∃ s timeline c, Machine.run (State.step sampleVault) State.start sampleTurns = some s ∧
      s.replies.map Reply.outcome = [.done, .refused (.duplicateEntry (ascii "wx")), .done] ∧
      timeline.map Prod.fst =
        [.add (ascii "wx") .apiKey (ascii "s1"), .rotate (ascii "wx") (ascii "s2")] ∧
      Credentials.replay timeline = .ok c ∧
      (c.get (ascii "wx")).toOption.map DecryptedEntry.secret = some (ascii "s2") := by
  have hview : ((Machine.run (State.step sampleVault) State.start sampleTurns).bind fun s =>
      (get sampleVault s.keyspace (ascii "wx")).toOption.map fun x =>
        (s.replies.map Reply.outcome, s.effective, x.secret)) =
      some ([.done, .refused (.duplicateEntry (ascii "wx")), .done],
        [.add (ascii "wx") .apiKey (ascii "s1"), .rotate (ascii "wx") (ascii "s2")],
        ascii "s2") := by
    decide +kernel
  simp only [Option.bind_eq_some_iff, Option.map_eq_some_iff, toOption_eq_some,
    Prod.mk.injEq] at hview
  obtain ⟨s, hrun, returned, hget, houtcomes, heffective, hsecret⟩ := hview
  have hnames : ∀ e ∈ sampleTurns, ∀ op, e.action = .acquire op → op.name ∈ sampleNames := by
    have hall : ∀ e ∈ sampleTurns, ∀ op ∈ (match e.action with
        | .acquire op => some op
        | _ => none), op.name = ascii "wx" := by decide
    intro e he op hop
    exact .inl (hall e he op (by simp [hop]))
  obtain ⟨timeline, c, htimeline, hreplay, hreads, _⟩ :=
    vault_linearizable sampleVault_lawful sampleNames_injOn hnames hrun
  refine ⟨s, timeline, c, hrun, houtcomes, htimeline.trans heffective, hreplay, ?_⟩
  rw [← (hreads (ascii "wx") (.inl rfl)).1, hget, ← hsecret]
  rfl

end Akroasis.Kryphos
