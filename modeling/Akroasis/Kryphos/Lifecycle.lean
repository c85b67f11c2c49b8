import Akroasis.Kryphos.System

/-!
# Akroasis.Kryphos.Lifecycle

The record of a credential over the life of a vault.  Status, timestamps, rotation count and
history are separate fields that every operation updates on its own; `Lifecycle` is what they
have to say together, `lifecycle_sound` that they do, in every state of every run.

The rotation count is a `u32`.  That it does not wrap around is due to the store: a record
with so many events in its history would be too long for it (`Vault.Sized`).
-/

namespace Akroasis.Kryphos

/-- Lengths, of what other crates write: a ciphertext is not shorter than its plaintext, a
JSON text has at least a byte for each event of a history and each byte of a ciphertext. -/
structure Vault.Sized (V : Vault) : Prop where
  expands : V.aead.Expands
  json : ∀ record bytes, V.recordToJson record = some bytes → record.history.length ≤ bytes.length
  value : ∀ entry, entry.encryptedMetadata.length ≤ V.valueLen entry

/-- A record after a number of rotations, and after its revocation or not. -/
structure Lifecycle (record : EntryMetadataRecord) (rotations : Nat) (revoked : Bool) : Prop where
  history : record.history.map HistoryEvent.kind =
    .created :: (List.replicate rotations .rotated ++ if revoked then [.revoked] else [])
  count : record.metadata.rotationCount = UInt32.ofNat rotations
  status : record.status = .revoked ↔ revoked = true
  revokedAt : record.metadata.revokedAt.isSome ↔ revoked = true

variable {V : Vault} {record : EntryMetadataRecord} {rotations : Nat} {ended : Bool}
  {keyspace : Keyspace} {env : Env} {op : Op} {mutation : Mutation} {entry : StoredEntry}

theorem lifecycle_created (name : Name) (credentialType : CredentialType) (now : Timestamp) :
    Lifecycle (createdRecord name credentialType now) 0 false :=
  ⟨rfl, rfl, by simp [createdRecord], by simp [createdRecord]⟩

theorem Lifecycle.rotated (h : Lifecycle record rotations false) (now : Timestamp) :
    Lifecycle (record.rotated now) (rotations + 1) false where
  history := by
    simp [EntryMetadataRecord.rotated, h.history, List.replicate_succ']
  count := by
    simp [EntryMetadataRecord.rotated, h.count]
  status := h.status
  revokedAt := h.revokedAt

theorem Lifecycle.revoked (h : Lifecycle record rotations false) (now : Timestamp) :
    Lifecycle (record.revoked now) rotations true where
  history := by simp [EntryMetadataRecord.revoked, h.history]
  count := h.count
  status := by simp [EntryMetadataRecord.revoked]
  revokedAt := by simp [EntryMetadataRecord.revoked]

theorem Lifecycle.unrevoked (h : Lifecycle record rotations ended)
    (hstatus : record.status ≠ .revoked) : Lifecycle record rotations false := by
  cases ended with
  | false => exact h
  | true => exact absurd (h.status.mpr rfl) hstatus

/-- An entry whose record has a lifecycle and that is small enough to be stored. -/
def Kept (V : Vault) (entry : StoredEntry) : Prop :=
  ∃ record rotations revoked, decryptMetadata V entry = .ok record ∧
    Lifecycle record rotations revoked ∧ record.history.length < 2 ^ 32

theorem history_lt_of_encryptMetadata (hsize : V.Sized) {nonce : Nonce}
    (h : encryptMetadata V nonce record = .ok entry.encryptedMetadata)
    (hfits : V.valueLen entry ≤ 2 ^ 32) : record.history.length < 2 ^ 32 := by
  unfold encryptMetadata at h
  cases hjson : V.recordToJson record with
  | none => simp [hjson] at h
  | some bytes =>
      simp only [hjson, encrypt] at h
      cases hbody : V.aead.encrypt nonce bytes [] with
      | none => simp [hbody] at h
      | some body =>
          simp only [hbody, Except.ok.injEq] at h
          have hlen := congrArg List.length h
          simp only [List.length_append] at hlen
          have := hsize.json record bytes hjson
          have := hsize.expands nonce bytes [] body hbody
          have := hsize.value entry
          have : nonce.val.length = nonceLen := nonce.property
          unfold nonceLen at this
          omega

/-- What an operation prepares has a lifecycle if what it read has one. -/
theorem kept_of_prepare (hV : V.Lawful) (hsize : V.Sized)
    (hkept : ∀ key entry, keyspace.lookup key = some entry → Kept V entry)
    (h : prepare V keyspace env op = .ok mutation) (hfits : mutation.fits V = true) :
    ∀ key entry, (mutation.apply keyspace).lookup key = some entry → Kept V entry := by
  -- an entry with fresh metadata
  have hnew : ∀ {key nonce new rotations revoked} {record : EntryMetadataRecord},
      mutation = .insert key new → encryptMetadata V nonce record = .ok new.encryptedMetadata →
      Lifecycle record rotations revoked → Kept V new := by
    rintro key nonce new rotations revoked record rfl hmetadata hlife
    exact ⟨record, rotations, revoked, decryptMetadata_of_encrypt hV hmetadata, hlife,
      history_lt_of_encryptMetadata hsize hmetadata (of_decide_eq_true hfits)⟩
  -- the life of a record that was read
  have hlive : ∀ {name entry record}, Readable V keyspace name entry record →
      ∃ rotations, Lifecycle record rotations false := by
    intro name entry record hread
    obtain ⟨record', rotations, revoked, hopened, hlife, _⟩ := hkept _ _ hread.stored
    obtain rfl := Except.ok.inj (hopened.symm.trans hread.opened)
    exact ⟨rotations, hlife.unrevoked hread.unrevoked⟩
  intro key entry hlookup
  by_cases hkey : key = mutation.key
  · subst hkey
    rcases prepare_cases h with ⟨name, credentialType, _, new, _, _, hseal, rfl⟩ |
      ⟨_, _, record, hread, ⟨_, rfl⟩ | ⟨_, new, _, hseal, rfl⟩ | ⟨_, _, hmetadata, rfl⟩⟩
    · obtain rfl : new = entry := by simpa [Mutation.apply, Mutation.key] using hlookup
      exact hnew rfl (sealEntry_eq_ok hseal).2.1 (lifecycle_created name credentialType env.now)
    · simp [Mutation.apply, Mutation.key] at hlookup
    · obtain rfl : new = entry := by simpa [Mutation.apply, Mutation.key] using hlookup
      obtain ⟨rotations, hlife⟩ := hlive hread
      exact hnew rfl (sealEntry_eq_ok hseal).2.1 (hlife.rotated env.now)
    · obtain rfl : _ = entry := by simpa [Mutation.apply, Mutation.key] using hlookup
      obtain ⟨rotations, hlife⟩ := hlive hread
      exact hnew rfl hmetadata (hlife.revoked env.now)
  · rw [lookup_apply_of_ne hkey] at hlookup
    exact hkept key entry hlookup

/-! ## Runs -/

namespace State

variable {s s' : State} {e : Event} {events later : List Event}

/-- In every state the holder of the lock is undisturbed and every stored record has a
lifecycle. -/
theorem kept_of_run (hV : V.Lawful) (hsize : V.Sized)
    (hrun : Machine.run (step V) start events = some s) :
    Undisturbed V s ∧ ∀ key entry, s.keyspace.lookup key = some entry → Kept V entry := by
  refine Machine.run_preserves
    (I := fun s => Undisturbed V s ∧ ∀ key entry, s.keyspace.lookup key = some entry → Kept V entry)
    ?_ ⟨undisturbed_start, by simp [start]⟩ hrun
  rintro s e s' ⟨hlock, hkept⟩ hstep
  refine ⟨hlock.step hstep, ?_⟩
  rcases change_linearized hlock hstep with ⟨hsame, _⟩ |
    ⟨p, env, mutation, _, _, hprepare, hfits, happly, _⟩
  · rwa [hsame]
  · rw [happly]
    exact kept_of_prepare hV hsize hkept hprepare hfits

/-- A revoked entry outlives every step. -/
theorem lookup_step_of_revoked {key : LookupKey} (hlock : Undisturbed V s)
    (hstored : s.keyspace.lookup key = some entry) (hopened : decryptMetadata V entry = .ok record)
    (hrevoked : record.status = .revoked) (hstep : s.step V e = some s') :
    s'.keyspace.lookup key = some entry := by
  rcases change_linearized hlock hstep with ⟨hsame, _⟩ |
    ⟨p, env, mutation, _, _, hprepare, _, happly, _⟩
  · rwa [hsame]
  · have hne : key ≠ mutation.key := by
      rintro rfl
      rw [key_of_prepare hprepare] at hstored
      exact unrevoked_of_prepare hprepare hstored hopened hrevoked
    rwa [happly, lookup_apply_of_ne hne]

/-- **The life of an entry.**  In every state of every run, the history of every stored entry is
its creation, as many rotations as it counts and at most a final revocation, its status and
`revoked_at` agree with that, and an entry that is revoked stays as it is. -/
theorem lifecycle_sound (hV : V.Lawful) (hsize : V.Sized)
    (hrun : Machine.run (step V) start events = some s) :
    (∀ key entry, s.keyspace.lookup key = some entry →
      ∃ record ended, decryptMetadata V entry = .ok record ∧
        record.history.map HistoryEvent.kind =
          .created :: (List.replicate record.metadata.rotationCount.toNat .rotated ++
            if ended then [.revoked] else []) ∧
        (record.status = .revoked ↔ ended = true) ∧
        (record.metadata.revokedAt.isSome ↔ ended = true)) ∧
      ∀ key entry record later s', s.keyspace.lookup key = some entry →
        decryptMetadata V entry = .ok record → record.status = .revoked →
        Machine.run (step V) s later = some s' → s'.keyspace.lookup key = some entry := by
  obtain ⟨hlock, hkept⟩ := kept_of_run hV hsize hrun
  constructor
  · intro key entry hlookup
    obtain ⟨record, rotations, ended, hopened, hlife, hlen⟩ := hkept key entry hlookup
    have hcount : record.metadata.rotationCount.toNat = rotations := by
      have hlength := congrArg List.length hlife.history
      simp only [List.length_map, List.length_cons, List.length_append,
        List.length_replicate] at hlength
      rw [hlife.count, UInt32.toNat_ofNat', Nat.mod_eq_of_lt (by omega)]
    exact ⟨record, ended, hopened, hcount ▸ hlife.history, hlife.status, hlife.revokedAt⟩
  · intro key entry record later s' hlookup hopened hrevoked hlater
    refine (Machine.run_preserves
      (I := fun t => Undisturbed V t ∧ t.keyspace.lookup key = some entry) ?_
        ⟨hlock, hlookup⟩ hlater).2
    rintro t e t' ⟨htlock, htstored⟩ hstep
    exact ⟨htlock.step hstep, lookup_step_of_revoked htlock htstored hopened hrevoked hstep⟩

/-- The braces, the quotes around a name and a colon. -/
theorem length_jsonObject_cons (f : String × Bytes) (fields : List (String × Bytes)) :
    5 ≤ (jsonObject (f :: fields)).length := by
  cases fields <;> simp [jsonObject, jsonString, ascii] <;> omega

theorem sampleVault_sized : sampleVault.Sized where
  expands := Aead.transparent_expands
  json record bytes h := by
    have hhistory : ∀ r ∈ sampleRecords, r.history.length ≤ 3 := by decide
    obtain ⟨hmem, rfl⟩ := sampleVault_recordToJson h
    have htext : 5 ≤ (jsonRecord record).length := length_jsonObject_cons _ _
    have := hhistory record hmem
    omega
  value entry := by
    simp only [sampleVault, jsonBytesLen]
    omega

/-- Credential `wx` is added, rotated and revoked. -/
theorem lifecycle_sound_revoked :
    ∃ s entry record, Machine.run (step sampleVault) start
        (sampleEvents 1 (.add (ascii "wx") .apiKey (ascii "s1")) 1 ++
          sampleEvents 2 (.rotate (ascii "wx") (ascii "s2")) 2 ++
          sampleEvents 1 (.revoke (ascii "wx")) 3) = some s ∧
      s.keyspace.lookup (lookupKey sampleVault (ascii "wx")) = some entry ∧
      decryptMetadata sampleVault entry = .ok record ∧ record.status = .revoked ∧
      record.history.map HistoryEvent.kind = [.created, .rotated, .revoked] ∧
      ∀ later s', Machine.run (step sampleVault) s later = some s' →
        s'.keyspace.lookup (lookupKey sampleVault (ascii "wx")) = some entry := by
  have hview : ((Machine.run (step sampleVault) start
      (sampleEvents 1 (.add (ascii "wx") .apiKey (ascii "s1")) 1 ++
        sampleEvents 2 (.rotate (ascii "wx") (ascii "s2")) 2 ++
        sampleEvents 1 (.revoke (ascii "wx")) 3)).bind fun s =>
      (s.keyspace.lookup (lookupKey sampleVault (ascii "wx"))).bind fun entry =>
        (decryptMetadata sampleVault entry).toOption.map fun record =>
          (record.status, record.metadata.rotationCount)) = some (.revoked, 1) := by decide +kernel
  simp only [Option.bind_eq_some_iff, Option.map_eq_some_iff, toOption_eq_some,
    Prod.mk.injEq] at hview
  obtain ⟨s, hrun, entry, hstored, record, hopened, hstatus, hcount⟩ := hview
  obtain ⟨hlife, hfixed⟩ := lifecycle_sound sampleVault_lawful sampleVault_sized hrun
  obtain ⟨record', ended, hopened', hhistory, hended, _⟩ := hlife _ _ hstored
  obtain rfl := Except.ok.inj (hopened'.symm.trans hopened)
  refine ⟨s, entry, record', hrun, hstored, hopened, hstatus, ?_, ?_⟩
  · rw [hhistory, hcount, hended.mp hstatus]
    rfl
  · intro later s' hlater
    exact hfixed _ _ _ _ _ hstored hopened hstatus hlater

end State

end Akroasis.Kryphos
