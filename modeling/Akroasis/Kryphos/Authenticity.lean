import Akroasis.Kryphos.Lifecycle

/-!
# Akroasis.Kryphos.Authenticity

What `get` returns from a store that somebody without the key has rearranged.  The adversary
moves ciphertext fields and version numbers that were once stored, from any record to any
other; encryption is ideal.  The vault may have been in use before secrets were bound to their
entries: `Inherited` are the stores it then starts from, with entries of version 0.

A bound secret that `get` returns was written for the name.  The metadata is not bound to
anything: moved to the record of another credential of the same type, it is accepted there, and
the entry comes back under the wrong name.  Neither is the secret of a record that says it is of
version 0.  `get_authentic_iff` says that this is all that goes wrong.
-/

namespace Akroasis.Kryphos

variable {V : Vault} {names : Set Name} {name : Name} {secret : Bytes} {key : LookupKey}
  {entry stored : StoredEntry} {record : EntryMetadataRecord} {log : List StoreAction}
  {ciphertext : Bytes}

/-- The secret that an operation writes, and for which name. -/
def Op.writes : Op → Option (Name × Bytes)
  | .add name _ secret | .rotate name secret => some (name, secret)
  | .remove _ | .revoke _ => none

/-! ## Entries of version 0 -/

/-- An operation of an earlier version of the vault has stored an entry. -/
def State.inherit (V : Vault) (s : State) (op : Op) (name : Name) (entry : StoredEntry) : State :=
  { s with
    keyspace := s.keyspace.insert (lookupKey V name) entry
    log := s.log ++ [.change op (.insert (lookupKey V name) entry)] }

/-- A store that an earlier version has left: the secrets were sealed without associated data. -/
inductive Inherited (V : Vault) (names : Set Name) : State → Prop
  | start : Inherited V names State.start
  | entry {s : State} {op : Op} {entry : StoredEntry} {secret : Bytes}
      (record : EntryMetadataRecord) (nonce nonce' : Nonce) (h : Inherited V names s)
      (hname : record.name ∈ names) (hwrites : op.writes = some (record.name, secret))
      (hversion : entry.envelopeVersion = legacyEnvelopeVersion)
      (hsecret : encrypt V nonce secret [] = .ok entry.encryptedSecret)
      (hmetadata : encryptMetadata V nonce' record = .ok entry.encryptedMetadata) :
      Inherited V names (s.inherit V op record.name entry)

/-! ## The adversary -/

/-- The entry was once stored under the key. -/
def StoredAt (log : List StoreAction) (key : LookupKey) (entry : StoredEntry) : Prop :=
  ∃ op, .change op (.insert key entry) ∈ log

/-- The bytes were once a ciphertext field of a record. -/
def StoredField (log : List StoreAction) (ciphertext : Bytes) : Prop :=
  ∃ key entry, StoredAt log key entry ∧
    (ciphertext = entry.encryptedSecret ∨ ciphertext = entry.encryptedMetadata)

/-- A store put together from fields and version numbers that were once stored. -/
def Rearranged (log : List StoreAction) (forged : Keyspace) : Prop :=
  ∀ key entry, forged.lookup key = some entry →
    StoredField log entry.encryptedSecret ∧ StoredField log entry.encryptedMetadata ∧
      ∃ key' entry', StoredAt log key' entry' ∧ entry.envelopeVersion = entry'.envelopeVersion

/-- Some `add` or `rotate` wrote the secret for the name, and the name had not been revoked
until then. -/
def WrittenUnrevoked (log : List StoreAction) (name : Name) (secret : Bytes) : Prop :=
  ∃ before op mutation after, log = before ++ .change op mutation :: after ∧
    op.writes = some (name, secret) ∧ ∀ mutation', .change (.revoke name) mutation' ∉ before

/-- An entry that may be returned for a name. -/
def Authentic (log : List StoreAction) (name : Name) (entry : DecryptedEntry) : Prop :=
  entry.name = name ∧ WrittenUnrevoked log name entry.secret

/-- Two ciphertexts of one text. -/
def SameText (V : Vault) (ciphertext ciphertext' : Bytes) : Prop :=
  ∃ text nonce aad nonce' aad', encrypt V nonce text aad = .ok ciphertext ∧
    encrypt V nonce' text aad' = .ok ciphertext'

/-- The metadata of an entry was once stored in the record of the name, or it is a secret that
reads as a record of the name. -/
def MetadataInPlace (V : Vault) (log : List StoreAction) (name : Name) (entry : StoredEntry) :
    Prop :=
  (∃ stored, StoredAt log (lookupKey V name) stored ∧
    entry.encryptedMetadata = stored.encryptedMetadata) ∨
  ∃ key stored record, StoredAt log key stored ∧ entry.encryptedMetadata = stored.encryptedSecret ∧
    decryptMetadata V entry = .ok record ∧ record.name = name

/-- The secret of an entry was once stored in the record of the name, or is of the same text as one
that was. -/
def SecretInPlace (V : Vault) (log : List StoreAction) (name : Name) (entry : StoredEntry) : Prop :=
  ∃ stored, StoredAt log (lookupKey V name) stored ∧
    SameText V entry.encryptedSecret stored.encryptedSecret

/-- The record of a name holds its own metadata and, if it says that it is of version 0, its own
secret. -/
def InPlace (V : Vault) (log : List StoreAction) (forged : Keyspace) (name : Name) : Prop :=
  ∃ entry, forged.lookup (lookupKey V name) = some entry ∧ MetadataInPlace V log name entry ∧
    (entry.envelopeVersion = legacyEnvelopeVersion → SecretInPlace V log name entry)

/-! ## What an honest run has stored -/

/-- Metadata sealed for a record of the name whose key it is stored under. -/
def MetadataSealed (V : Vault) (names : Set Name) (key : LookupKey) (ciphertext : Bytes) : Prop :=
  ∃ nonce record, encryptMetadata V nonce record = .ok ciphertext ∧
    lookupKey V record.name = key ∧ record.name ∈ names

/-- A secret of the name whose key it is stored under, bound to the name or to nothing. -/
def SecretSealed (V : Vault) (names : Set Name) (log : List StoreAction) (key : LookupKey)
    (ciphertext : Bytes) : Prop :=
  ∃ name ∈ names, ∃ nonce secret aad, lookupKey V name = key ∧
    encrypt V nonce secret aad = .ok ciphertext ∧ WrittenUnrevoked log name secret ∧
    (aad = [] ∨ ∃ credentialType, entryAad V name credentialType entryEnvelopeVersion = .ok aad)

/-- The record of a name says that it is revoked. -/
def Revoked (V : Vault) (keyspace : Keyspace) (name : Name) : Prop :=
  ∃ entry record, keyspace.lookup (lookupKey V name) = some entry ∧
    decryptMetadata V entry = .ok record ∧ record.status = .revoked

/-- The change stores what the operation writes. -/
def Stores (V : Vault) (op : Op) (mutation : Mutation) : Prop :=
  ∀ name secret, op.writes = some (name, secret) →
    ∃ entry nonce aad, mutation = .insert (lookupKey V name) entry ∧
      encrypt V nonce secret aad = .ok entry.encryptedSecret

/-- What holds of everything that was ever stored, and of what is stored now. -/
structure Honest (V : Vault) (names : Set Name) (s : State) : Prop where
  lock : s.Undisturbed V
  named : ∀ p ∈ s.holder, p.op.name ∈ names
  metadata : ∀ key entry, StoredAt s.log key entry →
    MetadataSealed V names key entry.encryptedMetadata
  secrets : ∀ key entry, StoredAt s.log key entry →
    SecretSealed V names s.log key entry.encryptedSecret
  written : ∀ op mutation, .change op mutation ∈ s.log → Stores V op mutation
  current : ∀ key entry, s.keyspace.lookup key = some entry → StoredAt s.log key entry
  revoked : ∀ name mutation, .change (.revoke name) mutation ∈ s.log → Revoked V s.keyspace name

theorem WrittenUnrevoked.append (h : WrittenUnrevoked log name secret) (action : StoreAction) :
    WrittenUnrevoked (log ++ [action]) name secret := by
  obtain ⟨before, op, mutation, after, rfl, hwrites, hbefore⟩ := h
  exact ⟨before, op, mutation, after ++ [action], by simp, hwrites, hbefore⟩

theorem SecretSealed.append (h : SecretSealed V names log key ciphertext)
    (action : StoreAction) : SecretSealed V names (log ++ [action]) key ciphertext := by
  obtain ⟨name, hname, nonce, secret, aad, hkey, hseal, hwritten, haad⟩ := h
  exact ⟨name, hname, nonce, secret, aad, hkey, hseal, hwritten.append action, haad⟩

theorem storedAt_append_change {op : Op} {mutation : Mutation} :
    StoredAt (log ++ [.change op mutation]) key entry ↔
      StoredAt log key entry ∨ mutation = .insert key entry := by
  simp only [StoredAt, List.mem_append, List.mem_singleton, StoreAction.change.injEq]
  constructor
  · rintro ⟨op', hold | ⟨_, hnew⟩⟩
    · exact .inl ⟨op', hold⟩
    · exact .inr hnew.symm
  · rintro (⟨op', hold⟩ | rfl)
    · exact ⟨op', .inl hold⟩
    · exact ⟨op, .inr ⟨rfl, rfl⟩⟩

variable {s s' : State} {e : Event} {p : Progress} {env : Env} {op : Op} {mutation : Mutation}

/-- Whoever writes a secret for a name finds it unrevoked. -/
theorem Honest.unrevoked (h : Honest V names s)
    (hprepare : prepare V s.keyspace env op = .ok mutation)
    (hwrites : op.writes = some (name, secret)) :
    WrittenUnrevoked (s.log ++ [.change op mutation]) name secret := by
  have hname : op.name = name := by
    cases op <;> simp_all [Op.writes, Op.name]
  refine ⟨s.log, op, mutation, [], rfl, hwrites, fun mutation' hrevoke => ?_⟩
  obtain ⟨entry, record, hstored, hopened, hrevoked⟩ := h.revoked name mutation' hrevoke
  rw [← hname] at hstored
  exact unrevoked_of_prepare hprepare hstored hopened hrevoked

/-- A record that is read is the one that was sealed for the name of its key. -/
theorem Honest.readable (hV : V.Lawful) (h : Honest V names s)
    (hread : Readable V s.keyspace name entry record) :
    lookupKey V record.name = lookupKey V name ∧ record.name ∈ names := by
  obtain ⟨nonce, record', hseal, hkey, hmem⟩ := h.metadata _ _ (h.current _ _ hread.stored)
  obtain rfl := Except.ok.inj ((decryptMetadata_of_encrypt hV hseal).symm.trans hread.opened)
  exact ⟨hkey, hmem⟩

/-- What an operation stores is sealed as it should be. -/
theorem Honest.sealed_of_prepare (hV : V.Lawful) (h : Honest V names s) (hop : op.name ∈ names)
    (hprepare : prepare V s.keyspace env op = .ok (.insert key entry)) :
    MetadataSealed V names key entry.encryptedMetadata ∧
      SecretSealed V names (s.log ++ [.change op (.insert key entry)]) key
        entry.encryptedSecret := by
  rcases prepare_cases hprepare with ⟨name, credentialType, secret, new, rfl, _, hseal, heq⟩ |
    ⟨name, old, record, hread,
      ⟨_, heq⟩ | ⟨secret, new, rfl, hseal, heq⟩ | ⟨ciphertext, rfl, hmetadata, heq⟩⟩
  · obtain ⟨rfl, rfl⟩ := Mutation.insert.inj heq
    obtain ⟨_, hmetadata, aad, haad, hsecret⟩ := sealEntry_eq_ok hseal
    exact ⟨⟨_, _, hmetadata, rfl, hop⟩,
      name, hop, _, _, aad, rfl, hsecret, h.unrevoked hprepare rfl, .inr ⟨_, haad⟩⟩
  · cases heq
  · obtain ⟨rfl, rfl⟩ := Mutation.insert.inj heq
    obtain ⟨_, hmetadata, aad, haad, hsecret⟩ := sealEntry_eq_ok hseal
    obtain ⟨hkey, hmem⟩ := h.readable hV hread
    exact ⟨⟨_, _, hmetadata, hkey, hmem⟩,
      name, hop, _, _, aad, rfl, hsecret, h.unrevoked hprepare rfl, .inr ⟨_, haad⟩⟩
  · obtain ⟨rfl, rfl⟩ := Mutation.insert.inj heq
    obtain ⟨hkey, hmem⟩ := h.readable hV hread
    exact ⟨⟨_, _, hmetadata, hkey, hmem⟩, (h.secrets _ _ (h.current _ _ hread.stored)).append _⟩

theorem stores_of_prepare (hprepare : prepare V s.keyspace env op = .ok mutation) :
    Stores V op mutation := by
  intro name secret hwrites
  rcases prepare_cases hprepare with ⟨name', credentialType, secret', new, rfl, _, hseal, rfl⟩ |
    ⟨name', old, record, _, ⟨rfl, _⟩ | ⟨secret', new, rfl, hseal, rfl⟩ | ⟨_, rfl, _, _⟩⟩
  · obtain ⟨rfl, rfl⟩ := Prod.mk.inj (Option.some.inj hwrites)
    obtain ⟨_, _, aad, _, hsecret⟩ := sealEntry_eq_ok hseal
    exact ⟨new, _, aad, rfl, hsecret⟩
  · cases hwrites
  · obtain ⟨rfl, rfl⟩ := Prod.mk.inj (Option.some.inj hwrites)
    obtain ⟨_, _, aad, _, hsecret⟩ := sealEntry_eq_ok hseal
    exact ⟨new, _, aad, rfl, hsecret⟩
  · cases hwrites

/-- A revocation leaves a revoked record. -/
theorem revoked_of_prepare (hV : V.Lawful)
    (hprepare : prepare V s.keyspace env (.revoke name) = .ok mutation) :
    Revoked V (mutation.apply s.keyspace) name := by
  rcases prepare_cases hprepare with ⟨_, _, _, _, hop, _⟩ | ⟨name', old, record, _, ⟨hop, _⟩ |
    ⟨_, _, hop, _⟩ | ⟨ciphertext, hop, hmetadata, rfl⟩⟩
  · cases hop
  · cases hop
  · cases hop
  · obtain rfl := Op.revoke.inj hop
    exact ⟨{ old with encryptedMetadata := ciphertext }, record.revoked env.now,
      AList.lookup_insert _, decryptMetadata_of_encrypt hV hmetadata, rfl⟩

/-- A change that stores what is sealed as it should be keeps the run honest. -/
theorem Honest.change (h : Honest V names s) (hlock : s'.Undisturbed V)
    (hnamed : ∀ p ∈ s'.holder, p.op.name ∈ names)
    (happly : s'.keyspace = mutation.apply s.keyspace)
    (hlog : s'.log = s.log ++ [.change op mutation]) (hstores : Stores V op mutation)
    (hsealed : ∀ key entry, mutation = .insert key entry →
      MetadataSealed V names key entry.encryptedMetadata ∧
        SecretSealed V names s'.log key entry.encryptedSecret)
    (hrevoked : ∀ name mutation', .change (.revoke name) mutation' ∈ s'.log →
      Revoked V s'.keyspace name) : Honest V names s' := by
  have hnew : ∀ {key entry}, StoredAt s'.log key entry →
      MetadataSealed V names key entry.encryptedMetadata ∧
        SecretSealed V names s'.log key entry.encryptedSecret := by
    intro key entry hstored
    rw [hlog] at hstored
    rcases storedAt_append_change.mp hstored with hold | hinsert
    · exact ⟨h.metadata _ _ hold, hlog ▸ (h.secrets _ _ hold).append _⟩
    · exact hsealed key entry hinsert
  refine ⟨hlock, hnamed, fun _ _ hs => (hnew hs).1, fun _ _ hs => (hnew hs).2, ?_, ?_, hrevoked⟩
  · intro op' mutation' hmem
    rw [hlog, List.mem_append, List.mem_singleton] at hmem
    rcases hmem with hold | hlast
    · exact h.written op' mutation' hold
    · obtain ⟨rfl, rfl⟩ := StoreAction.change.inj hlast
      exact hstores
  · intro key entry hlookup
    rw [happly] at hlookup
    rw [hlog, storedAt_append_change]
    by_cases hkey : key = mutation.key
    · cases mutation with
      | insert key' new =>
          obtain rfl : key = key' := hkey
          obtain rfl := Option.some.inj ((AList.lookup_insert _).symm.trans hlookup)
          exact .inr rfl
      | remove key' =>
          obtain rfl : key = key' := hkey
          exact nomatch (AList.lookup_erase _ _).symm.trans hlookup
    · rw [lookup_apply_of_ne hkey] at hlookup
      exact .inl (h.current key entry hlookup)

/-- What an earlier version has left is honest, and nothing in it was revoked. -/
theorem Inherited.honest (h : Inherited V names s) :
    Honest V names s ∧ s.holder = none ∧
      ∀ name mutation, .change (.revoke name) mutation ∉ s.log := by
  induction h with
  | start =>
      exact ⟨⟨State.undisturbed_start, by simp [State.start], by simp [State.start, StoredAt],
        by simp [State.start, StoredAt], by simp [State.start], by simp [State.start],
        by simp [State.start]⟩, rfl, by simp [State.start]⟩
  | @entry s op entry secret record nonce nonce' _ hname hwrites _ hsecret hmetadata ih =>
      obtain ⟨h, hholder, hrevoke⟩ := ih
      have hne (name : Name) : op ≠ .revoke name := by
        rintro rfl
        cases hwrites
      have hrevoke' : ∀ name mutation,
          .change (.revoke name) mutation ∉ (s.inherit V op record.name entry).log := by
        intro name mutation hmem
        rw [State.inherit, List.mem_append, List.mem_singleton] at hmem
        rcases hmem with hold | hlast
        · exact hrevoke name mutation hold
        · exact hne name (StoreAction.change.inj hlast).1.symm
      have hheld : ∀ p, p ∉ (s.inherit V op record.name entry).holder := by
        simp [State.inherit, hholder]
      refine ⟨h.change (fun p hp => absurd hp (hheld p)) (fun p hp => absurd hp (hheld p))
        rfl rfl ?_ ?_
        fun name mutation hmem => absurd hmem (hrevoke' name mutation), hholder, hrevoke'⟩
      · intro name secret' hwrites'
        obtain ⟨rfl, rfl⟩ := Prod.mk.inj (Option.some.inj (hwrites.symm.trans hwrites'))
        exact ⟨entry, nonce, [], rfl, hsecret⟩
      · intro key entry' hinsert
        obtain ⟨rfl, rfl⟩ := Mutation.insert.inj hinsert
        exact ⟨⟨nonce', record, hmetadata, rfl, hname⟩, record.name, hname, nonce, secret, [], rfl,
          hsecret, ⟨s.log, op, _, [], rfl, hwrites, hrevoke record.name⟩, .inl rfl⟩

theorem Honest.step (hV : V.Lawful) (h : Honest V names s)
    (hacquire : ∀ op, e.action = .acquire op → op.name ∈ names) (hstep : s.step V e = some s') :
    Honest V names s' := by
  have hnamed : ∀ p ∈ s'.holder, p.op.name ∈ names := by
    rcases State.step_cases hstep with rfl | ⟨_, op, haction, rfl⟩ | ⟨p, hholder, hadvanced⟩
    · exact h.named
    · rintro p ⟨⟩
      exact hacquire op haction
    · cases hadvanced <;> rintro q ⟨⟩ <;> exact h.named p hholder
  rcases State.change_linearized h.lock hstep with ⟨hsame, hlog⟩ |
    ⟨p, env, mutation, _, hholder, hprepare, _, happly, _, hlog⟩
  · have hchange : ∀ {op mutation}, .change op mutation ∈ s'.log ↔ .change op mutation ∈ s.log := by
      intro op mutation
      rcases hlog with hlog | ⟨op', hlog⟩ <;> simp [hlog]
    have hstored : ∀ {key entry}, StoredAt s'.log key entry ↔ StoredAt s.log key entry :=
      exists_congr fun _ => hchange
    have hsecret : ∀ {key ciphertext}, SecretSealed V names s.log key ciphertext →
        SecretSealed V names s'.log key ciphertext := by
      intro key ciphertext hs
      rcases hlog with hlog | ⟨op, hlog⟩
      · rwa [hlog]
      · rw [hlog]
        exact hs.append _
    exact ⟨h.lock.step hstep, hnamed, fun _ _ hs => h.metadata _ _ (hstored.mp hs),
      fun _ _ hs => hsecret (h.secrets _ _ (hstored.mp hs)),
      fun _ _ hm => h.written _ _ (hchange.mp hm),
      fun _ _ hl => hstored.mpr (h.current _ _ (hsame ▸ hl)),
      fun _ _ hm => hsame ▸ h.revoked _ _ (hchange.mp hm)⟩
  · refine h.change (h.lock.step hstep) hnamed happly hlog (stores_of_prepare hprepare) ?_ ?_
    · rintro key entry rfl
      exact hlog ▸ h.sealed_of_prepare hV (h.named p hholder) hprepare
    · intro name mutation' hmem
      rw [hlog, List.mem_append, List.mem_singleton] at hmem
      rcases hmem with hold | hlast
      · obtain ⟨entry, record, hstored, hopened, hrevoked⟩ := h.revoked name mutation' hold
        exact ⟨entry, record, State.lookup_step_of_revoked h.lock hstored hopened hrevoked hstep,
          hopened, hrevoked⟩
      · obtain ⟨hop, rfl⟩ := StoreAction.change.inj hlast
        rw [happly]
        exact revoked_of_prepare hV (hop ▸ hprepare)

theorem honest_of_run (hV : V.Lawful) {s₀ : State} (hstart : Inherited V names s₀)
    {events : List Event} (hnames : ∀ e ∈ events, ∀ op, e.action = .acquire op → op.name ∈ names)
    (hrun : Machine.run (State.step V) s₀ events = some s) : Honest V names s :=
  Machine.run_invariant (P := fun _ e => ∀ op, e.action = .acquire op → op.name ∈ names)
    (fun _ _ _ h hacquire hstep => h.step hV hacquire hstep) hstart.honest.1
    (Machine.meets_of_forall_mem (fun e he _ => hnames e he) _) hrun

/-! ## What the adversary can do -/

/-- Every field was sealed. -/
theorem Honest.sealed_field (h : Honest V names s)
    (hfield : StoredField s.log ciphertext) :
    ∃ nonce text aad, encrypt V nonce text aad = .ok ciphertext := by
  obtain ⟨key, stored, hstored, rfl | rfl⟩ := hfield
  · obtain ⟨_, _, nonce, secret, aad, _, hseal, _⟩ := h.secrets key stored hstored
    exact ⟨nonce, secret, aad, hseal⟩
  · obtain ⟨nonce, record, hseal, _, _⟩ := h.metadata key stored hstored
    obtain ⟨bytes, _, hseal⟩ := encryptMetadata_eq_ok hseal
    exact ⟨nonce, bytes, [], hseal⟩

/-- **Metadata**: what is read is of the name exactly if it is in place. -/
theorem Honest.named_iff (hV : V.Lawful) (hinj : Set.InjOn (lookupKey V) names)
    (h : Honest V names s) (hname : name ∈ names)
    (hfield : StoredField s.log entry.encryptedMetadata)
    (hopened : decryptMetadata V entry = .ok record) :
    record.name = name ↔ MetadataInPlace V s.log name entry := by
  constructor
  · rintro rfl
    obtain ⟨key, stored, hstored, hsecret | hmetadata⟩ := hfield
    · exact .inr ⟨key, stored, record, hstored, hsecret, hopened, rfl⟩
    · obtain ⟨nonce, record', hseal, rfl, _⟩ := h.metadata key stored hstored
      rw [← hmetadata] at hseal
      obtain rfl := Except.ok.inj ((decryptMetadata_of_encrypt hV hseal).symm.trans hopened)
      exact .inl ⟨stored, hstored, hmetadata⟩
  · rintro (⟨stored, hstored, hsame⟩ | ⟨_, _, record', _, _, hopened', hrecord⟩)
    · obtain ⟨nonce, record', hseal, hkey, hmem⟩ := h.metadata _ _ hstored
      rw [← hsame] at hseal
      obtain rfl := Except.ok.inj ((decryptMetadata_of_encrypt hV hseal).symm.trans hopened)
      exact hinj hmem hname hkey
    · obtain rfl := Except.ok.inj (hopened'.symm.trans hopened)
      exact hrecord

/-- **Bound secrets**: only a secret of the name opens as its secret. -/
theorem Honest.written_of_bound (hideal : V.aead.Ideal) (h : Honest V names s) {aad : Bytes}
    {credentialType : CredentialType} {version : UInt8} (hfield : StoredField s.log ciphertext)
    (haad : entryAad V name credentialType version = .ok aad)
    (hopened : decrypt V ciphertext aad = .ok secret) : WrittenUnrevoked s.log name secret := by
  obtain ⟨key, stored, hstored, rfl | rfl⟩ := hfield
  · obtain ⟨name', _, nonce, secret', aad', _, hseal, hwritten, hbound⟩ :=
      h.secrets key stored hstored
    obtain ⟨rfl, rfl⟩ := eq_of_decrypt hideal hseal hopened
    rcases hbound with rfl | ⟨credentialType', haad'⟩
    · exact absurd rfl (entryAad_ne_nil haad)
    · rwa [(entryAad_fields haad haad').2.2.1]
  · obtain ⟨nonce, record, hseal, _, _⟩ := h.metadata key stored hstored
    obtain ⟨bytes, _, hseal⟩ := encryptMetadata_eq_ok hseal
    exact absurd (eq_of_decrypt hideal hseal hopened).1 (entryAad_ne_nil haad)

/-- **Secrets of version 0**: what is read was written for the name exactly if it is in place. -/
theorem Honest.written_iff (hideal : V.aead.Ideal) (hinj : Set.InjOn (lookupKey V) names)
    (h : Honest V names s) (hname : name ∈ names) (hfield : StoredField s.log entry.encryptedSecret)
    (hopened : decrypt V entry.encryptedSecret [] = .ok secret) :
    WrittenUnrevoked s.log name secret ↔ SecretInPlace V s.log name entry := by
  obtain ⟨nonce, text, aad, hseal⟩ := h.sealed_field hfield
  constructor
  · rintro ⟨before, op, mutation, after, hlog, hwrites, _⟩
    have hmem : .change op mutation ∈ s.log := by simp [hlog]
    obtain ⟨stored, nonce', aad', rfl, hstored⟩ := h.written op mutation hmem name secret hwrites
    obtain ⟨rfl, rfl⟩ := eq_of_decrypt hideal hseal hopened
    exact ⟨stored, ⟨op, hmem⟩, text, nonce, [], nonce', aad', hseal, hstored⟩
  · rintro ⟨stored, hstored, text', _, _, nonce', aad', hseal', hsame⟩
    obtain ⟨name', hname', _, secret', _, hkey, hsealed, hwritten, _⟩ := h.secrets _ _ hstored
    obtain rfl := hinj hname' hname hkey
    obtain ⟨-, rfl⟩ := eq_of_decrypt hideal hseal' hopened
    obtain ⟨-, rfl⟩ := eq_of_decrypt hideal hsame (decrypt_of_encrypt hideal.roundTrips hsealed)
    exact hwritten

/-- **Authenticity of vault records.**  In a vault that may hold entries of an earlier version,
after any run and any rearrangement of its records, what `get` returns for a name is authentic
exactly if the metadata it read and, in a record that says it is of version 0, the secret are in
place. -/
theorem get_authentic_iff (hV : V.Lawful) (hideal : V.aead.Ideal)
    (hinj : Set.InjOn (lookupKey V) names) {s₀ : State} (hstart : Inherited V names s₀)
    {events : List Event} (hnames : ∀ e ∈ events, ∀ op, e.action = .acquire op → op.name ∈ names)
    (hrun : Machine.run (State.step V) s₀ events = some s) {forged : Keyspace}
    (hforged : Rearranged s.log forged) (hname : name ∈ names) {returned : DecryptedEntry}
    (hget : get V forged name = .ok returned) :
    Authentic s.log name returned ↔ InPlace V s.log forged name := by
  have h := honest_of_run hV hstart hnames hrun
  obtain ⟨entry, record, hlookup, hopened, _, hreturned, hsecret⟩ := get_eq_ok hget
  obtain ⟨hsecretField, hmetadataField, -⟩ := hforged _ _ hlookup
  simp only [InPlace, hlookup, Option.some.injEq, exists_eq_left', Authentic, hreturned]
  refine and_congr (h.named_iff hV hinj hname hmetadataField hopened) ?_
  rcases hsecret with ⟨hlegacy, hdecrypt⟩ | ⟨hbound, aad, haad, hdecrypt⟩
  · rw [h.written_iff hideal hinj hname hsecretField hdecrypt]
    exact ⟨fun hplace _ => hplace, fun hplace => hplace hlegacy⟩
  · exact iff_of_true (h.written_of_bound hideal hsecretField haad hdecrypt)
      fun hlegacy => absurd hlegacy hbound

/-! ## Two credentials of one type -/

/-- The credentials of the sample run. -/
def sampleNames : Set Name := {ascii "wx", ascii "map"}

/-- Credentials `wx` and `map`, both API keys, are added. -/
def sampleHistory : List Event :=
  sampleEvents 1 (.add (ascii "wx") .apiKey (ascii "s1")) 1 ++
    sampleEvents 1 (.add (ascii "map") .apiKey (ascii "s2")) 1

theorem sampleNames_injOn : Set.InjOn (lookupKey sampleVault) sampleNames := by
  have hne : lookupKey sampleVault (ascii "wx") ≠ lookupKey sampleVault (ascii "map") := by decide
  rintro a (rfl | rfl) b (rfl | rfl) hab
  · rfl
  · exact absurd hab hne
  · exact absurd hab.symm hne
  · rfl

theorem sampleHistory_names :
    ∀ e ∈ sampleHistory, ∀ op, e.action = .acquire op → op.name ∈ sampleNames := by
  have hall : ∀ e ∈ sampleHistory, ∀ op ∈ (match e.action with
      | .acquire op => some op
      | _ => none), op.name = ascii "wx" ∨ op.name = ascii "map" := by decide
  intro e he op hop
  exact hall e he op (by simp [hop])

/-- A credential as an earlier version stored it at second 1. -/
def sampleLegacy (name secret : Bytes) : StoredEntry where
  envelopeVersion := legacyEnvelopeVersion
  encryptedSecret := ((encrypt sampleVault default secret []).toOption).getD []
  encryptedMetadata := ((encryptMetadata sampleVault default
    (createdRecord name .apiKey (sampleTime 1))).toOption).getD []

/-- An earlier version added `wx` and `map`. -/
def sampleInherited : State :=
  (State.start.inherit sampleVault (.add (ascii "map") .apiKey (ascii "s2")) (ascii "map")
    (sampleLegacy (ascii "map") (ascii "s2"))).inherit sampleVault
      (.add (ascii "wx") .apiKey (ascii "s1")) (ascii "wx") (sampleLegacy (ascii "wx") (ascii "s1"))

theorem sampleInherited_inherited : Inherited sampleVault sampleNames sampleInherited :=
  .entry (createdRecord (ascii "wx") .apiKey (sampleTime 1)) default default
    (.entry (createdRecord (ascii "map") .apiKey (sampleTime 1)) default default .start (.inr rfl)
      rfl rfl rfl rfl) (.inl rfl) rfl rfl rfl rfl

/-- Then `wx` is rotated. -/
def sampleRotation : List Event := sampleEvents 1 (.rotate (ascii "wx") (ascii "s3")) 2

theorem sampleRotation_names :
    ∀ e ∈ sampleRotation, ∀ op, e.action = .acquire op → op.name ∈ sampleNames := by
  simp [sampleRotation, sampleEvents, sampleNames, Op.name]

/-- A store with a record of `wx` only. -/
def soleRecord (entry : StoredEntry) : Keyspace :=
  (∅ : Keyspace).insert (lookupKey sampleVault (ascii "wx")) entry

/-- It is rearranged if the fields of its record come from two that were stored. -/
theorem rearranged_soleRecord {key' : LookupKey} {stored' : StoredEntry}
    (hsecret : StoredAt log key stored) (hmetadata : StoredAt log key' stored') (version : UInt8)
    (hversion : version = stored.envelopeVersion ∨ version = stored'.envelopeVersion) :
    Rearranged log (soleRecord ⟨version, stored.encryptedSecret, stored'.encryptedMetadata⟩) := by
  intro k entry hlookup
  have hkey : k = lookupKey sampleVault (ascii "wx") := by
    by_contra hne
    exact nomatch (AList.lookup_insert_ne hne).symm.trans hlookup
  subst hkey
  obtain rfl := Option.some.inj ((AList.lookup_insert _).symm.trans hlookup)
  refine ⟨⟨key, stored, hsecret, .inl rfl⟩, ⟨key', stored', hmetadata, .inr rfl⟩, ?_⟩
  rcases hversion with rfl | rfl
  · exact ⟨key, stored, hsecret, rfl⟩
  · exact ⟨key', stored', hmetadata, rfl⟩

/-- The entries that the earlier version left. -/
def legacyWx : StoredEntry := sampleLegacy (ascii "wx") (ascii "s1")

def legacyMap : StoredEntry := sampleLegacy (ascii "map") (ascii "s2")

theorem sampleRotation_view :
    ∃ s, Machine.run (State.step sampleVault) sampleInherited sampleRotation = some s ∧
      StoredAt s.log (lookupKey sampleVault (ascii "wx")) legacyWx ∧
      StoredAt s.log (lookupKey sampleVault (ascii "map")) legacyMap ∧
      ∀ op mutation, .change op mutation ∈ s.log → op.writes ≠ some (ascii "wx", ascii "s2") := by
  have hview : (Machine.run (State.step sampleVault) sampleInherited sampleRotation).map (fun s =>
      decide (sampleInherited.log ⊆ s.log ∧ ∀ action ∈ s.log, ∀ op ∈ (match action with
        | .change op _ => some op
        | .audit _ => none : Option Op), op.writes ≠ some (ascii "wx", ascii "s2"))) =
          some true := by
    decide +kernel
  obtain ⟨s, hrun, hlog⟩ := Option.map_eq_some_iff.mp hview
  obtain ⟨hkept, hwrites⟩ := of_decide_eq_true hlog
  exact ⟨s, hrun, ⟨_, hkept (.tail _ (.head _))⟩, ⟨_, hkept (.head _)⟩,
    fun op mutation hmem => hwrites _ hmem op rfl⟩

/-- With the record that the earlier version has left put back, `wx` is found as it was added.  With
the secret of `map` moved into that record, `wx` comes back with the secret of `map`. -/
theorem get_authentic_iff_legacy :
    ∃ s, Machine.run (State.step sampleVault) sampleInherited sampleRotation = some s ∧
      (∃ returned, get sampleVault (soleRecord legacyWx) (ascii "wx") = .ok returned ∧
        Authentic s.log (ascii "wx") returned) ∧
      ∃ forged returned, Rearranged s.log forged ∧
        get sampleVault forged (ascii "wx") = .ok returned ∧ returned.secret = ascii "s2" ∧
        ¬ Authentic s.log (ascii "wx") returned := by
  obtain ⟨s, hrun, hwx, hmap, hwrites⟩ := sampleRotation_view
  have hgets : ((get sampleVault (soleRecord legacyWx) (ascii "wx")).toOption.bind fun put =>
      (get sampleVault (soleRecord ⟨legacyEnvelopeVersion, legacyMap.encryptedSecret,
        legacyWx.encryptedMetadata⟩) (ascii "wx")).toOption.map fun moved => moved.secret) =
      some (ascii "s2") := by decide +kernel
  simp only [Option.bind_eq_some_iff, Option.map_eq_some_iff, toOption_eq_some] at hgets
  obtain ⟨put, hput, moved, hmoved, hsecret⟩ := hgets
  have hreplayed : Rearranged s.log (soleRecord legacyWx) :=
    rearranged_soleRecord hwx hwx legacyEnvelopeVersion (.inl rfl)
  have hplace : InPlace sampleVault s.log (soleRecord legacyWx) (ascii "wx") :=
    ⟨legacyWx, AList.lookup_insert _, .inl ⟨legacyWx, hwx, rfl⟩,
      fun _ => ⟨legacyWx, hwx, ascii "s1", default, [], default, [], rfl, rfl⟩⟩
  refine ⟨s, hrun, ⟨put, hput, ?_⟩, _, moved,
    rearranged_soleRecord hmap hwx legacyEnvelopeVersion (.inr rfl), hmoved, hsecret, ?_⟩
  · exact (get_authentic_iff sampleVault_lawful Aead.transparent_ideal sampleNames_injOn
      sampleInherited_inherited sampleRotation_names hrun hreplayed (.inl rfl) hput).mpr hplace
  · rintro ⟨-, before, op, mutation, after, hlog, hwrote, -⟩
    exact hwrites op mutation (by simp [hlog]) (hsecret ▸ hwrote)

/-- With the metadata of `map` moved into its record, `wx` is returned under the name `map`. -/
theorem moved_metadata_accepted :
    ∃ s forged returned, Machine.run (State.step sampleVault) State.start sampleHistory = some s ∧
      Rearranged s.log forged ∧ get sampleVault forged (ascii "wx") = .ok returned ∧
      returned.name = ascii "map" ∧ returned.secret = ascii "s1" ∧
      ¬ Authentic s.log (ascii "wx") returned := by
  have hview : ((Machine.run (State.step sampleVault) State.start sampleHistory).bind fun s =>
      (s.keyspace.lookup (lookupKey sampleVault (ascii "wx"))).bind fun wx =>
      (s.keyspace.lookup (lookupKey sampleVault (ascii "map"))).bind fun map =>
      (get sampleVault (soleRecord ⟨wx.envelopeVersion, wx.encryptedSecret, map.encryptedMetadata⟩)
        (ascii "wx")).toOption.map fun returned => (returned.name, returned.secret)) =
        some (ascii "map", ascii "s1") := by decide +kernel
  simp only [Option.bind_eq_some_iff, Option.map_eq_some_iff, toOption_eq_some,
    Prod.mk.injEq] at hview
  obtain ⟨s, hrun, wx, hwx, map, hmap, returned, hget, hname, hsecret⟩ := hview
  have h := honest_of_run sampleVault_lawful .start sampleHistory_names hrun
  refine ⟨s, _, returned, hrun, rearranged_soleRecord (h.current _ _ hwx) (h.current _ _ hmap) _
    (.inl rfl), hget, hname, hsecret, ?_⟩
  rintro ⟨hwrong, _⟩
  exact absurd (hname.symm.trans hwrong) (by decide)

end Akroasis.Kryphos
