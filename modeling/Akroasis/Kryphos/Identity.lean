import Akroasis.Kryphos.System

/-!
# Akroasis.Kryphos.Identity

The signing key of an installation, sealed under the vault key (`seal_signing_key` of
`vault.rs`), and the associated data that keep the ciphertexts of a vault apart.

Everything a vault encrypts is encrypted under one key: the secrets of its entries, their
metadata and the key check, and the signing key.  What tells a ciphertext of one kind from
those of another is its associated data: those of `entry_aad`, none at all, and the tag of the
signing key.  `entryAad_injective` is that these never coincide, and that those of an entry
say which entry it is.
-/

namespace Akroasis.Kryphos

/-- `SIGNING_KEY_ENVELOPE_VERSION`. -/
def signingKeyEnvelopeVersion : UInt8 := 1

/-- `signing_key_aad`. -/
def signingKeyAad : Bytes := signingKeyEnvelopeVersion :: ascii "kryphos/vault/signing-key"

/-- `seal_signing_key`, with the secret half of the identity by its bytes. -/
def sealSigningKey (V : Vault) (nonce : Nonce) (signing : FixedBytes 32) :
    Except VaultError Bytes :=
  match V.aead.encrypt nonce signing.val signingKeyAad with
  | none => .error (.entryCrypto (.encryptionFailed "aead::Error"))
  | some ciphertext => .ok (nonce.val ++ ciphertext)

variable {V V' : Vault} {name name' : Name} {credentialType credentialType' : CredentialType}
  {version version' : UInt8} {aad aad' : Bytes}

/-- Read as the associated data of an entry, the tag of the signing key would begin with a salt
of more than a gigabyte. -/
theorem entryAad_ne_signingKeyAad (h : entryAad V name credentialType version = .ok aad) :
    aad ≠ signingKeyAad := by
  obtain ⟨typeBytes, -, hsalt, -, -, rfl⟩ := entryAad_eq_ok h
  intro heq
  obtain ⟨-, htail⟩ := List.cons.inj heq
  have hlength := congrArg List.length htail
  simp only [lengthPrefixed, List.append_assoc] at htail
  -- the four bytes of the length against the first four letters of the tag
  have hlead : (leBytes 4 V.salt.length).reverse = ascii "kryp" :=
    (List.append_inj (htail.trans
      (show _ = ascii "kryp" ++ ascii "hos/vault/signing-key" by decide)) (by simp; rfl)).1
  have hsize : V.salt.length = 1802664304 := by
    rw [← ofLeBytes_leBytes hsalt, ← List.reverse_reverse (leBytes 4 _), hlead]
    decide
  have htag : (ascii "kryphos/vault/signing-key").length = 25 := by decide
  rw [htag] at hlength
  simp only [lengthPrefixed, List.length_append, List.length_reverse, length_leBytes] at hlength
  omega

/-- **Associated data**: where `entry_aad` succeeds, its result determines the salt of the vault,
the name, the type and the version of the entry, and it is neither the associated data of the
signing key nor empty. -/
theorem entryAad_injective (hsame : V'.typeToJson = V.typeToJson)
    (hjson : ∀ t t' bytes, V.typeToJson t = some bytes → V.typeToJson t' = some bytes → t = t')
    (h : entryAad V name credentialType version = .ok aad)
    (h' : entryAad V' name' credentialType' version' = .ok aad') :
    (aad = aad' → V.salt = V'.salt ∧ name = name' ∧ credentialType = credentialType' ∧
      version = version') ∧ aad ≠ signingKeyAad ∧ aad ≠ [] := by
  refine ⟨?_, entryAad_ne_signingKeyAad h, entryAad_ne_nil h⟩
  rintro rfl
  obtain ⟨hversion, hsalt, hname, htype⟩ := entryAad_fields h h'
  obtain ⟨typeBytes, hbytes, -⟩ := entryAad_eq_ok h
  rw [hsame, hbytes] at htype
  exact ⟨hsalt, hname, hjson _ _ typeBytes hbytes htype.symm, hversion⟩

theorem jsonString_injective {bs bs' : Bytes} (h : jsonString bs = jsonString bs') : bs = bs' :=
  List.append_left_injective _ (List.append_right_injective _ h)

/-- The sample texts of two types differ. -/
theorem jsonType_injective {t t' : CredentialType} (h : jsonType t = jsonType t') : t = t' := by
  have hobject : ∀ {bs bs' : Bytes} (field : String),
      jsonObject [(field, bs)] = jsonObject [(field, bs')] → bs = bs' := by
    intro bs bs' field h
    simpa [jsonObject] using h
  cases t <;> cases t' <;> try rfl
  case custom.custom label label' =>
    rw [jsonString_injective (hobject _ (hobject _ h))]
  all_goals simp [jsonType, jsonString, jsonObject, ascii] at h

/-- The sample vault under another salt. -/
def resalted : Vault := { sampleVault with salt := List.replicate 32 8 }

/-- An API key and a mesh key of one name in two vaults. -/
theorem entryAad_injective_sample :
    ∃ aad aad', entryAad sampleVault (ascii "wx") .apiKey 1 = .ok aad ∧
      entryAad resalted (ascii "wx") .psk 1 = .ok aad' ∧ aad ≠ aad' ∧ aad ≠ signingKeyAad ∧
      aad ≠ [] := by
  have hsame : resalted.typeToJson = sampleVault.typeToJson := rfl
  have hjson : ∀ t t' bytes, sampleVault.typeToJson t = some bytes →
      sampleVault.typeToJson t' = some bytes → t = t' := fun t t' bytes h h' =>
    jsonType_injective (Option.some.inj (h.trans h'.symm))
  obtain ⟨aad, h⟩ : ∃ aad, entryAad sampleVault (ascii "wx") .apiKey 1 = .ok aad := ⟨_, rfl⟩
  obtain ⟨aad', h'⟩ : ∃ aad', entryAad resalted (ascii "wx") .psk 1 = .ok aad' := ⟨_, rfl⟩
  obtain ⟨hinj, hsigning, hnil⟩ := entryAad_injective hsame hjson h h'
  refine ⟨aad, aad', h, h', fun heq => ?_, hsigning, hnil⟩
  cases (hinj heq).2.2.1

end Akroasis.Kryphos
