import Akroasis.Driver
import Akroasis.Kryphos.Identity

/-!
# Akroasis.Kryphos.Creation

How a vault comes to be at a path, and how it is opened there (`Vault::create` and
`Vault::open` of `storage.rs`, with `derive_key` of `crypto.rs`).

`create` makes the directory, locks it, derives the key, writes the header and opens the store.
Each step can fail, and what the steps before it have made stays behind.  Afterwards `create`
refuses any path that exists, and `open` any path without a whole header: a creation that
fails after its first step and before its header is written leaves a path that both refuse, and so
does one that leaves a store which cannot be opened (`create_recoverable_iff`).  Where all failures
of a run of attempts are of other kinds, the path remains one on which a vault can be opened or
created (`attempts_recoverable`).
-/

namespace Akroasis.Kryphos

open Driver

/-! ## Key derivation -/

/-- `KdfParams`. -/
structure KdfParams where
  memoryCostKib : UInt32
  timeCost : UInt32
  parallelism : UInt32
  deriving DecidableEq

/-- `KdfParams::default`. -/
def KdfParams.default : KdfParams := ⟨65536, 3, 4⟩

/-- The errors of `derive_key`, of the variants of `CryptoError`. -/
inductive KdfError where
  | invalidSaltLength (expected actual : Nat)
  | invalidKdfParams (reason : String)
  | encryptionFailed (reason : String)
  deriving DecidableEq

/-- How a `KdfError` is displayed. -/
def KdfError.display : KdfError → String
  | invalidSaltLength expected actual => s!"invalid salt length: expected {expected}, got {actual}"
  | invalidKdfParams reason => s!"unacceptable KDF parameters: {reason}"
  | encryptionFailed reason => s!"encryption failed: {reason}"

/-- A parameter, and the least and the greatest value that is accepted. -/
structure KdfRange where
  label : String
  value : UInt32
  min : UInt32
  max : UInt32

/-- The ranges that `check_kdf_params` goes through. -/
def KdfParams.ranges (params : KdfParams) : List KdfRange :=
  [⟨"memory_cost_kib", params.memoryCostKib, 65536, 1048576⟩, ⟨"time_cost", params.timeCost, 3, 16⟩,
    ⟨"parallelism", params.parallelism, 4, 16⟩]

/-- The check of one parameter. -/
def KdfRange.check (r : KdfRange) : Except KdfError Unit :=
  if r.value < r.min ∨ r.value > r.max then
    .error (.invalidKdfParams s!"{r.label} {r.value} is outside {r.min}..={r.max}")
  else .ok ()

/-- `check_kdf_params`. -/
def checkKdfParams (params : KdfParams) : Except KdfError Unit := params.ranges.forM KdfRange.check

/-- `SALT_LEN`. -/
def saltLen : Nat := 32

/-! ## The vault on disk -/

/-- `StoredHeader`. -/
structure StoredHeader where
  version : UInt32
  salt : Bytes
  kdfParams : KdfParams
  keyCheck : Bytes
  installationPublicKey : Option Bytes
  sealedSigningKey : Option Bytes
  deriving DecidableEq

/-- The code of other crates: Argon2id, ChaCha20-Poly1305, `serde_json`, Ed25519 and `fjall`, and
what an opened vault calls.  `openStore` is the opening of a store in a directory that may be
absent, and `disturbed` what a failed opening leaves of it. -/
structure VaultCrates where
  argon2Params : KdfParams → Except String Unit
  argon2Hash : KdfParams → Bytes → Bytes → Except String (FixedBytes 32)
  cipher : FixedBytes 32 → Aead nonceLen
  headerToJson : StoredHeader → Option Bytes
  headerOfJson : Bytes → Option StoredHeader
  publicKey : FixedBytes 32 → FixedBytes 32
  keyedHash : FixedBytes 32 → Bytes → FixedBytes 32
  typeToJson : CredentialType → Option Bytes
  recordToJson : EntryMetadataRecord → Option Bytes
  recordOfJson : Bytes → Option EntryMetadataRecord
  valueLen : StoredEntry → Nat
  Disk : Type
  emptyDir : Disk
  openStore : Option Disk → Except String Keyspace × Option Disk
  disturbed : Option Disk → Nat → Option Disk

variable (C : VaultCrates)

/-- The opened vault with a key and a salt. -/
def VaultCrates.vault (key : FixedBytes 32) (salt : Bytes) : Vault where
  key := key
  salt := salt
  aead := C.cipher key
  keyedHash := C.keyedHash
  typeToJson := C.typeToJson
  recordToJson := C.recordToJson
  recordOfJson := C.recordOfJson
  valueLen := C.valueLen

/-- `derive_key`. -/
def deriveKey (passphrase salt : Bytes) (kdf : KdfParams) : Except KdfError (FixedBytes 32) :=
  if salt.length ≠ saltLen then .error (.invalidSaltLength saltLen salt.length)
  else do
    checkKdfParams kdf
    (C.argon2Params kdf).mapError fun source =>
      .invalidKdfParams s!"Argon2id rejected the parameters: {source}"
    (C.argon2Hash kdf passphrase salt).mapError fun source =>
      .encryptionFailed s!"Argon2id key derivation failed: {source}"

/-- The directory of a vault: whether the lock file is there, the header file, and the directory of
the store. -/
structure VaultDir where
  lock : Bool
  header : Option Bytes
  data : Option C.Disk

/-- An error of the operating system: whether its kind is `WouldBlock`, and its text. -/
structure IoError where
  wouldBlock : Bool
  text : String
  deriving DecidableEq

/-- The errors of `create` and `open`: variants of `VaultError`, of which `vault` stands for those
that operations on entries have too. -/
inductive SetupError where
  | invalidHeader (reason : String)
  | io (path : String) (source : IoError)
  | wrongPassphrase
  | emptyPassphrase
  | locked (path : String)
  | alreadyExists (path : String)
  | notInitialized (path : String)
  | storageBackend (message : String)
  | vault (error : VaultError)
  deriving DecidableEq

/-- The steps of `create` and `open` that can fail. -/
inductive SetupStep where
  | createDir | createLock | lock | deriveKey | keyCheck | sealSigningKey | serializeHeader
  | createHeader | writeHeader | createDataDir | openDatabase | openKeyspace | readHeader
  deriving DecidableEq

/-- What goes wrong in an attempt: the step, the error, and how far the step came (the bytes that a
write left, or which of its intermediate states the store is left in). -/
structure Fault where
  step : SetupStep
  source : IoError
  extent : Nat

/-- The bytes that `create` draws: the salt, the nonces of the key check and of the sealed signing
key, and the signing key. -/
structure Draws where
  salt : FixedBytes saltLen
  checkNonce : Nonce
  sealNonce : Nonce
  signing : FixedBytes 32

/-- A call on the directory of a vault. -/
abbrev Setup (α : Type) := Driver SetupError (VaultDir C) α

variable {C}

/-- The fault of an attempt, if it is of a given step. -/
def faultAt (fault : Option Fault) (step : SetupStep) : Option Fault := fault.filter (·.step = step)

/-- A step of an attempt: what it does to the directory, and its error and what it leaves where it
is the one that fails. -/
def perform (fault : Option Fault) (step : SetupStep) (done : VaultDir C → VaultDir C)
    (error : Fault → SetupError) (left : Fault → VaultDir C → VaultDir C) : Setup C Unit :=
  ofExec fun dir => (faultAt fault step).elim (.ok (), done dir) fun f =>
    (.error (error f), left f dir)

/-- A step that only fails or not. -/
def failAt (fault : Option Fault) (step : SetupStep) (error : Fault → SetupError) : Setup C Unit :=
  perform fault step id error fun _ => id

/-- `path.join(name)`. -/
def join (path name : String) : String := path ++ "/" ++ name

/-- `acquire_lock`. -/
def acquireLock (path : String) (fault : Option Fault) : Setup C Unit := do
  perform fault .createLock (fun dir => { dir with lock := true })
    (fun f => .io (join path "vault.lock") f.source) fun _ => id
  failAt fault .lock fun f =>
    if f.source.wouldBlock then .locked path else .io (join path "vault.lock") f.source

/-- `write_owner_only_file` of the header.  A write that fails leaves a part of the text, without
its last byte at least. -/
def writeHeader (path : String) (contents : Bytes) (fault : Option Fault) : Setup C Unit := do
  perform fault .createHeader (fun dir => { dir with header := some [] })
    (fun f => .io (join path "header.json") f.source) fun _ => id
  perform fault .writeHeader (fun dir => { dir with header := some contents })
    (fun f => .io (join path "header.json") f.source)
    fun f dir => { dir with header := some (contents.dropLast.take f.extent) }

/-- `create_owner_only_dir` of the directory of the store. -/
def createDataDir (path : String) (fault : Option Fault) : Setup C Unit :=
  perform fault .createDataDir (fun dir => { dir with data := some (dir.data.getD C.emptyDir) })
    (fun f => .io (join path "data") f.source) fun _ => id

/-- `open_fjall`. -/
def openFjall (fault : Option Fault) : Setup C Keyspace := do
  perform fault .openDatabase id (fun f => .storageBackend ("fjall open: " ++ f.source.text))
    fun f dir => { dir with data := C.disturbed dir.data f.extent }
  perform fault .openKeyspace id (fun f => .storageBackend ("fjall keyspace: " ++ f.source.text))
    fun f dir => { dir with data := C.disturbed dir.data f.extent }
  ofExec fun dir => ((C.openStore dir.data).1.mapError .storageBackend,
    { dir with data := (C.openStore dir.data).2 })

/-! ## Creating -/

/-- `KEY_CHECK_PLAINTEXT`. -/
def keyCheckPlaintext : Bytes := ascii "kryphos-vault-key-check-v1"

/-- `VAULT_VERSION`. -/
def vaultVersion : UInt32 := 2

/-- `MIN_SUPPORTED_VAULT_VERSION`. -/
def minSupportedVaultVersion : UInt32 := 2

/-- The error for a key that could not be derived. -/
def kdfError (e : KdfError) : SetupError := .invalidHeader e.display

variable (C) in
/-- The header that `create` writes. -/
def newHeader (draws : Draws) (keyCheck sealedSigningKey : Bytes) : StoredHeader where
  version := vaultVersion
  salt := draws.salt.val
  kdfParams := .default
  keyCheck := keyCheck
  installationPublicKey := some (C.publicKey draws.signing).val
  sealedSigningKey := some sealedSigningKey

variable (C) in
/-- What `create` does in the directory it has made. -/
def populate (path : String) (passphrase : Bytes) (draws : Draws) (fault : Option Fault) :
    Setup C (Vault × Keyspace) := do
  acquireLock path fault
  -- a fault of a computation is an error that its crate reports, for whatever cause
  failAt fault .deriveKey fun f =>
    kdfError (.encryptionFailed s!"Argon2id key derivation failed: {f.source.text}")
  let key ← ofResult ((deriveKey C passphrase draws.salt.val .default).mapError kdfError)
  failAt fault .keyCheck fun _ =>
    .vault (.entryCrypto (.encryptionFailed "ChaCha20-Poly1305 encryption failed"))
  let keyCheck ← ofResult
    ((encrypt (C.vault key draws.salt.val) draws.checkNonce keyCheckPlaintext []).mapError
    .vault)
  failAt fault .sealSigningKey fun _ => .vault (.entryCrypto (.encryptionFailed "aead::Error"))
  let sealedSigningKey ← ofResult ((sealSigningKey (C.vault key draws.salt.val) draws.sealNonce
    draws.signing).mapError .vault)
  failAt fault .serializeHeader fun _ => .vault .serialization
  let headerJson ← ofResult ((C.headerToJson (newHeader C draws keyCheck sealedSigningKey)).elim
    (.error (.vault .serialization)) .ok)
  writeHeader path headerJson fault
  createDataDir path fault
  let keyspace ← openFjall fault
  pure (C.vault key draws.salt.val, keyspace)

variable (C) in
/-- `Vault::create`, at a path where there is nothing or a directory. -/
def create (path : String) (passphrase : Bytes) (draws : Draws) (fault : Option Fault)
    (state : Option (VaultDir C)) : Except SetupError (Vault × Keyspace) × Option (VaultDir C) :=
  if passphrase.isEmpty then (.error .emptyPassphrase, state)
  else if state.isSome then (.error (.alreadyExists path), state)
  else (faultAt fault .createDir).elim
    ((exec (populate C path passphrase draws fault) ⟨false, none, none⟩).map id some)
    fun f => (.error (.io path f.source), state)

/-! ## Opening -/

/-- What `open` makes of a key check that is not decrypted. -/
def keyCheckError : VaultError → SetupError
  | .entryCrypto (.invalidNonceLength expected actual) =>
      .invalidHeader s!"key check is {actual} bytes, too short to carry a {expected}-byte nonce"
  | _ => .wrongPassphrase

/-- `fs::read` of the header. -/
def readHeader (path : String) (fault : Option Fault) : Setup C Bytes := do
  failAt fault .readHeader fun f => .io path f.source
  ofExec fun dir =>
    (dir.header.elim (.error (.io path ⟨false, "No such file or directory (os error 2)"⟩)) .ok, dir)

variable (C) in
/-- What `open` does in a directory with a header before it opens the store. -/
def unlock (path : String) (passphrase : Bytes) (fault : Option Fault) : Setup C Vault := do
  acquireLock path fault
  let headerBytes ← readHeader path fault
  let header ← ofResult ((C.headerOfJson headerBytes).elim (.error (.vault .serialization)) .ok)
  ofResult (if header.version < minSupportedVaultVersion ∨ vaultVersion < header.version then
    .error (.invalidHeader (s!"unsupported version {header.version}, expected " ++
      s!"{minSupportedVaultVersion}..={vaultVersion}"))
    else .ok ())
  failAt fault .deriveKey fun f =>
    kdfError (.encryptionFailed s!"Argon2id key derivation failed: {f.source.text}")
  let key ← ofResult ((deriveKey C passphrase header.salt header.kdfParams).mapError kdfError)
  let plaintext ← ofResult
      ((decrypt (C.vault key header.salt) header.keyCheck []).mapError keyCheckError)
  ofResult (if plaintext ≠ keyCheckPlaintext then .error .wrongPassphrase else .ok ())
  pure (C.vault key header.salt)

variable (C) in
/-- What `open` does in a directory with a header. -/
def openDir (path : String) (passphrase : Bytes) (fault : Option Fault) :
    Setup C (Vault × Keyspace) := do
  let vault ← unlock C path passphrase fault
  let keyspace ← openFjall fault
  pure (vault, keyspace)

variable (C) in
/-- `Vault::open`. -/
def openVault (path : String) (passphrase : Bytes) (fault : Option Fault)
    (state : Option (VaultDir C)) :
    Except SetupError (Vault × Keyspace) × Option (VaultDir C) :=
  (state.filter (·.header.isSome)).elim (.error (.notInitialized path), state) fun dir =>
    (exec (openDir C path passphrase fault) dir).map id some

/-! ## What is expected of the crates -/

/-- The store in a directory can be opened. -/
def VaultCrates.Opens (C : VaultCrates) (data : Option C.Disk) : Prop :=
  ∃ keyspace, (C.openStore data).1 = .ok keyspace

/-- What `create` and `open` rely on: keys are derived with the default parameters and a salt of the
length that is drawn, short texts are sealed and what is sealed can be opened, headers are read back
as they were written and not at all where a part is missing, and a store is made where there is
none. -/
structure VaultCrates.Lawful (C : VaultCrates) : Prop where
  params : C.argon2Params .default = .ok ()
  hash : ∀ (passphrase : Bytes) (salt : FixedBytes saltLen), passphrase.length < 2 ^ 32 →
    ∃ key, C.argon2Hash .default passphrase salt.val = .ok key
  opens : ∀ key, (C.cipher key).RoundTrips
  seals : ∀ key nonce plaintext aad, plaintext.length < 2 ^ 32 →
    ∃ body, (C.cipher key).encrypt nonce plaintext aad = some body
  json : ∀ header, ∃ text, C.headerToJson header = some text
  header : ∀ header text, C.headerToJson header = some text → C.headerOfJson text = some header
  torn : ∀ header text k, C.headerToJson header = some text →
    C.headerOfJson (text.dropLast.take k) = none
  absent : (C.openStore none).1 = .ok ∅
  empty : (C.openStore (some C.emptyDir)).1 = .ok ∅

variable {path : String} {passphrase json : Bytes} {draws : Draws} {key : FixedBytes 32}
  {fault : Option Fault}
  {f : Fault} {step : SetupStep} {dir dir' : VaultDir C} {e : SetupError}

/-! ## Headers -/

variable (C) in
/-- The key of a new vault and the text of its header. -/
def HeaderText (passphrase : Bytes) (draws : Draws) (key : FixedBytes 32) (json : Bytes) : Prop :=
  deriveKey C passphrase draws.salt.val .default = .ok key ∧
    ∃ keyCheck sealedSigningKey,
      encrypt (C.vault key draws.salt.val) draws.checkNonce keyCheckPlaintext [] = .ok keyCheck ∧
      sealSigningKey (C.vault key draws.salt.val) draws.sealNonce draws.signing =
        .ok sealedSigningKey ∧
      C.headerToJson (newHeader C draws keyCheck sealedSigningKey) = some json

/-- The defaults are in the range that is accepted. -/
theorem checkKdfParams_default : checkKdfParams .default = .ok () := by decide

theorem exists_headerText (hC : C.Lawful) (hlen : passphrase.length < 2 ^ 32) (draws : Draws) :
    ∃ key json, HeaderText C passphrase draws key json := by
  obtain ⟨key, hkey⟩ := hC.hash passphrase draws.salt hlen
  have hderive : deriveKey C passphrase draws.salt.val .default = .ok key := by
    have hsalt : draws.salt.val.length = saltLen := draws.salt.property
    simp [deriveKey, hsalt, checkKdfParams_default, hC.params, hkey, bind, Except.bind]
  obtain ⟨body, hbody⟩ := hC.seals key draws.checkNonce keyCheckPlaintext [] (by decide)
  have hcheck : encrypt (C.vault key draws.salt.val) draws.checkNonce keyCheckPlaintext [] =
      .ok (draws.checkNonce.val ++ body) := by simp [encrypt, VaultCrates.vault, hbody]
  have hsigning : draws.signing.val.length < 2 ^ 32 := by simp [draws.signing.property]
  obtain ⟨sealedBody, hsealed⟩ :=
    hC.seals key draws.sealNonce draws.signing.val signingKeyAad hsigning
  have hseal : sealSigningKey (C.vault key draws.salt.val) draws.sealNonce draws.signing =
      .ok (draws.sealNonce.val ++ sealedBody) := by
    simp [sealSigningKey, VaultCrates.vault, hsealed]
  obtain ⟨json, hjson⟩ := hC.json (newHeader C draws _ _)
  exact ⟨key, json, hderive, _, _, hcheck, hseal, hjson⟩

/-! ## Attempts -/

theorem faultAt_eq_some {f : Fault} :
    faultAt fault step = some f ↔ fault = some f ∧ f.step = step := by
  simp [faultAt, Option.filter_eq_some_iff]

section Steps

variable {Q : SetupError → VaultDir C → Prop}

/-- **Step**: what it does, or what it leaves. -/
theorem perform_endsIn {done : VaultDir C → VaultDir C} {error : Fault → SetupError}
    {left : Fault → VaultDir C → VaultDir C}
    (hQ : ∀ f, fault = some f → f.step = step → Q (error f) (left f dir)) :
    EndsIn (perform fault step done error left) dir () (done dir) Q := by
  unfold EndsIn perform
  rw [exec_ofExec]
  cases hf : faultAt fault step with
  | none => exact .inl rfl
  | some f =>
      obtain ⟨hfault, hstep⟩ := faultAt_eq_some.mp hf
      exact .inr ⟨_, _, rfl, hQ f hfault hstep⟩

theorem failAt_endsIn {error : Fault → SetupError}
    (hQ : ∀ f, fault = some f → f.step = step → Q (error f) dir) :
    EndsIn (failAt fault step error) dir () dir Q := perform_endsIn hQ

theorem acquireLock_endsIn
    (hQ : ∀ f e dir', fault = some f → f.step = .createLock ∨ f.step = .lock →
      dir'.header = dir.header →
      dir'.data = dir.data → Q e dir') :
    EndsIn (acquireLock path fault) dir () { dir with lock := true } Q :=
  (perform_endsIn fun f hf hstep => hQ f _ _ hf (.inl hstep) rfl rfl).bind
    (failAt_endsIn fun f hf hstep => hQ f _ _ hf (.inr hstep) rfl rfl)

theorem readHeader_endsIn (hheader : dir.header = some json)
    (hQ : ∀ f e, fault = some f → f.step = .readHeader → Q e dir) :
    EndsIn (readHeader path fault) dir json dir Q :=
  .bind (failAt_endsIn fun f hf hstep => hQ f _ hf hstep) (.inl (by simp [hheader]))

/-- **Store**: one that can be opened is opened, or left as the failed step leaves it. -/
theorem openFjall_endsIn {keyspace : Keyspace} (hopens : (C.openStore dir.data).1 = .ok keyspace)
    (hQ : ∀ f e, fault = some f → f.step = .openDatabase ∨ f.step = .openKeyspace →
      Q e { dir with data := C.disturbed dir.data f.extent }) :
    EndsIn (openFjall fault) dir keyspace { dir with data := (C.openStore dir.data).2 } Q := by
  refine (perform_endsIn fun f hf hstep => ?_).bind
    ((perform_endsIn fun f hf hstep => ?_).bind (.inl ?_))
  · exact hQ f _ hf (.inl hstep)
  · exact hQ f _ hf (.inr hstep)
  · simp [hopens]

end Steps

/-- The steps of `create` between its directory and its header. -/
def bareSteps : List SetupStep :=
  [.createLock, .lock, .deriveKey, .keyCheck, .sealSigningKey, .serializeHeader, .createHeader]

/-- The steps of `create` after its header. -/
def storeSteps : List SetupStep := [.createDataDir, .openDatabase, .openKeyspace]

theorem not_mem_storeSteps (h : step ∈ bareSteps) : step ∉ storeSteps := by
  revert h
  cases step <;> decide

variable (C) in
/-- The store that is left if a step of `create` after the header fails. -/
def Fault.store (f : Fault) : Option C.Disk :=
  if f.step = .createDataDir then none else C.disturbed (some C.emptyDir) f.extent

/-- What `create` leaves in the directory that it has made, if a step fails. -/
inductive Remains (json : Bytes) (f : Fault) (dir : VaultDir C) : Prop
  | bare (hstep : f.step ∈ bareSteps) (header : dir.header = none)
  | torn (hstep : f.step = .writeHeader) (header : dir.header = some (json.dropLast.take f.extent))
  | whole (hstep : f.step ∈ storeSteps) (header : dir.header = some json)
    (data : dir.data = f.store C)

/-- **Creating**: a vault without entries, or what the failed step has left. -/
theorem populate_endsIn (hC : C.Lawful) (h : HeaderText C passphrase draws key json) (path : String)
    (fault : Option Fault) :
    EndsIn (populate C path passphrase draws fault) ⟨false, none, none⟩
      (C.vault key draws.salt.val, ∅) ⟨true, some json, (C.openStore (some C.emptyDir)).2⟩
      fun _ dir => ∃ f, fault = some f ∧ Remains json f dir := by
  obtain ⟨hkey, keyCheck, sealedSigningKey, hcheck, hseal, hjson⟩ := h
  have hlock (f : Fault) (hstep : f.step = .createLock ∨ f.step = .lock) : f.step ∈ bareSteps := by
    rcases hstep with hstep | hstep <;> simp [hstep, bareSteps]
  have hopen (f : Fault) (hstep : f.step = .openDatabase ∨ f.step = .openKeyspace) :
      f.step ∈ storeSteps ∧ C.disturbed (some C.emptyDir) f.extent = f.store C := by
    rcases hstep with hstep | hstep <;> simp [Fault.store, hstep, storeSteps]
  -- what is computed between the lock and the header leaves a directory without one
  have hbare {step error} (hmem : step ∈ bareSteps) {dir : VaultDir C}
      (hheader : dir.header = none) :
      EndsIn (failAt fault step error) dir () dir
        fun _ dir => ∃ f, fault = some f ∧ Remains json f dir :=
    failAt_endsIn fun f hf hstep => ⟨f, hf, .bare (hstep ▸ hmem) hheader⟩
  refine .bind
    (acquireLock_endsIn fun f _ dir hf hstep hheader _ => ⟨f, hf, .bare (hlock f hstep) hheader⟩) ?_
  refine .bind (hbare (by decide) rfl) (.bind (endsIn_ofResult (mapError_eq_ok.mpr hkey)) ?_)
  refine .bind (hbare (by decide) rfl) (.bind (endsIn_ofResult (mapError_eq_ok.mpr hcheck)) ?_)
  refine .bind (hbare (by decide) rfl) (.bind (endsIn_ofResult (mapError_eq_ok.mpr hseal)) ?_)
  refine .bind (hbare (by decide) rfl) (.bind (endsIn_ofResult (a := json) (by rw [hjson]; rfl)) ?_)
  refine .bind
    (.bind (perform_endsIn fun f hf hstep => ⟨f, hf, .bare (by simp [hstep, bareSteps]) rfl⟩)
    (perform_endsIn fun f hf hstep => ⟨f, hf, .torn hstep rfl⟩)) ?_
  refine .bind (perform_endsIn fun f hf hstep =>
    ⟨f, hf, .whole (by simp [hstep, storeSteps]) rfl (by simp [Fault.store, hstep])⟩) ?_
  exact .bind (openFjall_endsIn hC.empty fun f _ hf hstep =>
    ⟨f, hf, .whole (hopen f hstep).1 rfl (hopen f hstep).2⟩) endsIn_pure

/-- With the passphrase of the header the key is derived, or a fault leaves header and store. -/
theorem unlock_endsIn (hC : C.Lawful) (h : HeaderText C passphrase draws key json)
    (hheader : dir.header = some json) (path : String) (fault : Option Fault) :
    EndsIn (unlock C path passphrase fault) dir (C.vault key draws.salt.val)
      { dir with lock := true }
      fun _ left => fault ≠ none ∧ left.header = some json ∧ left.data = dir.data := by
  obtain ⟨hkey, keyCheck, sealedSigningKey, hcheck, -, hjson⟩ := h
  have hfault {f : Fault} (hf : fault = some f) : fault ≠ none := by simp [hf]
  have hplain : decrypt (C.vault key draws.salt.val) keyCheck [] = .ok keyCheckPlaintext :=
    decrypt_of_encrypt (hC.opens key) hcheck
  refine .bind (acquireLock_endsIn fun f _ left hf _ hheader' hdata =>
    ⟨hfault hf, hheader'.trans hheader, hdata⟩) ?_
  refine .bind (readHeader_endsIn hheader fun f _ hf _ => ⟨hfault hf, hheader, rfl⟩) ?_
  refine .bind (endsIn_ofResult (a := newHeader C draws keyCheck sealedSigningKey)
    (by rw [hC.header _ _ hjson]; rfl)) (.bind (endsIn_ofResult rfl) ?_)
  refine .bind (failAt_endsIn fun f hf _ => ⟨hfault hf, hheader, rfl⟩) ?_
  refine .bind (endsIn_ofResult (mapError_eq_ok.mpr hkey)) ?_
  exact .bind (endsIn_ofResult (mapError_eq_ok.mpr hplain))
    (.bind (endsIn_ofResult (if_neg (by simp))) endsIn_pure)

/-- **Opening** with the passphrase of the header, where the store can be opened: the vault, or a
fault that spares the header and leaves the store or what a failed opening makes of it. -/
theorem openDir_endsIn (hC : C.Lawful) (h : HeaderText C passphrase draws key json)
    (hheader : dir.header = some json) {keyspace : Keyspace}
    (hopens : (C.openStore dir.data).1 = .ok keyspace) (path : String) (fault : Option Fault) :
    EndsIn (openDir C path passphrase fault) dir (C.vault key draws.salt.val, keyspace)
      { dir with lock := true, data := (C.openStore dir.data).2 }
      fun _ left => fault ≠ none ∧ left.header = some json ∧ (left.data = dir.data ∨
        ∃ f, fault = some f ∧ (f.step = .openDatabase ∨ f.step = .openKeyspace) ∧
          left.data = C.disturbed dir.data f.extent) := by
  refine .bind ((unlock_endsIn hC h hheader path fault).mono
    fun _ _ hleft => ⟨hleft.1, hleft.2.1, .inl hleft.2.2⟩) ?_
  exact .bind (openFjall_endsIn hopens fun f _ hf hstep =>
    ⟨by simp [hf], hheader, .inr ⟨f, hf, hstep, rfl⟩⟩) endsIn_pure

/-! ## Recovery -/

variable (C) in
/-- Once nothing goes wrong any more, the vault is opened at the path or can be created there. -/
def Recoverable (path : String) (passphrase : Bytes) (state : Option (VaultDir C)) : Prop :=
  (∃ opened, (openVault C path passphrase none state).1 = .ok opened) ∨
    ∀ draws, ∃ created, (create C path passphrase draws none state).1 = .ok created

theorem create_some (hne : passphrase ≠ []) (draws : Draws) (fault : Option Fault) :
    create C path passphrase draws fault (some dir) = (.error (.alreadyExists path), some dir) := by
  simp [create, hne]

theorem create_none (hne : passphrase ≠ []) :
    create C path passphrase draws fault none = (faultAt fault .createDir).elim
      ((exec (populate C path passphrase draws fault) ⟨false, none, none⟩).map id some)
      fun f => (.error (.io path f.source), none) := by
  simp [create, hne]

theorem openVault_some (hheader : dir.header = some json) :
    openVault C path passphrase fault (some dir) =
      (exec (openDir C path passphrase fault) dir).map id some := by
  simp [openVault, Option.filter, hheader]

theorem recoverable_none (hC : C.Lawful) (hne : passphrase ≠ [])
    (hlen : passphrase.length < 2 ^ 32) :
    Recoverable C path passphrase none := by
  refine .inr fun draws => ?_
  obtain ⟨key, json, h⟩ := exists_headerText hC hlen draws
  have hexec := (populate_endsIn hC h path none).exec_eq (by simp)
  exact ⟨_, by rw [create_none hne, faultAt, Option.filter_none, Option.elim_none, hexec]; rfl⟩

/-- With a whole header, everything depends on the store. -/
theorem recoverable_whole_iff (hC : C.Lawful) (hne : passphrase ≠ [])
    (h : HeaderText C passphrase draws key json) (hheader : dir.header = some json) :
    Recoverable C path passphrase (some dir) ↔ C.Opens dir.data := by
  constructor
  · rintro (⟨opened, hopen⟩ | hcreate)
    · cases hstore : (C.openStore dir.data).1 with
      | ok keyspace => exact ⟨keyspace, hstore⟩
      | error message =>
          have hunlock := (unlock_endsIn hC h hheader path none).exec_eq (by simp)
          have hfails : exec (openFjall none) { dir with lock := true } =
              (.error (.storageBackend message),
                { dir with lock := true, data := (C.openStore dir.data).2 }) :=
            congrArg (fun r => (r.mapError SetupError.storageBackend, _)) hstore
          rw [openVault_some hheader, openDir, exec_bind_ok hunlock,
            exec_bind_error hfails] at hopen
          cases hopen
    · obtain ⟨created, hcreated⟩ := hcreate draws
      rw [create_some hne] at hcreated
      cases hcreated
  · rintro ⟨keyspace, hopens⟩
    have hexec := (openDir_endsIn hC h hheader hopens path none).exec_eq (by simp)
    exact .inl ⟨_, by rw [openVault_some hheader, hexec]; rfl⟩

/-- A header that is there but cannot be read. -/
theorem exec_openDir_unreadable {text : Bytes} (htext : dir.header = some text)
    (hparse : C.headerOfJson text = none) :
    exec (openDir C path passphrase none) dir =
      (.error (.vault .serialization), { dir with lock := true }) := by
  have hlock : exec (acquireLock path none) dir = (.ok (), { dir with lock := true }) := rfl
  have hread :
      EndsIn (readHeader path none) { dir with lock := true } text { dir with lock := true }
      fun _ _ => False := readHeader_endsIn htext (by simp)
  refine exec_bind_error ?_
  rw [unlock, exec_bind_ok hlock, exec_bind_ok (hread.exec_eq (by simp))]
  refine exec_bind_error ?_
  rw [exec_ofResult, hparse]
  rfl

/-- Without a header that can be read, both refuse. -/
theorem not_recoverable (hne : passphrase ≠ [])
    (hheader : ∀ text, dir.header = some text → C.headerOfJson text = none) :
    ¬Recoverable C path passphrase (some dir) := by
  rintro (⟨opened, hopen⟩ | hcreate)
  · cases htext : dir.header with
    | none => simp [openVault, Option.filter, htext] at hopen
    | some text =>
        rw [openVault_some htext, exec_openDir_unreadable htext (hheader text htext)] at hopen
        cases hopen
  · obtain ⟨created, hcreated⟩ :=
      hcreate ⟨.replicate _ 0, .replicate _ 0, .replicate _ 0, .replicate _ 0⟩
    rw [create_some hne] at hcreated
    cases hcreated

/-- **Remains**: a path is usable again only with a whole header and a store that opens. -/
theorem Remains.recoverable_iff (hC : C.Lawful) (hne : passphrase ≠ [])
    (h : HeaderText C passphrase draws key json) (hremains : Remains json f dir) :
    Recoverable C path passphrase (some dir) ↔ f.step ∈ storeSteps ∧ C.Opens (f.store C) := by
  cases hremains with
  | bare hmem hheader =>
      exact iff_of_false (not_recoverable hne (by simp [hheader])) fun h =>
        not_mem_storeSteps hmem h.1
  | torn hwrite hheader =>
      obtain ⟨-, _, _, -, -, hjson⟩ := h
      refine iff_of_false (not_recoverable hne fun text htext => ?_) (by simp [hwrite, storeSteps])
      obtain rfl := Option.some.inj (hheader.symm.trans htext)
      exact hC.torn _ _ _ hjson
  | whole hmem hheader hdata =>
      rw [recoverable_whole_iff hC hne h hheader, hdata, and_iff_right hmem]

/-- **Creating at a free path**: no directory, a vault, or what the failed step has left. -/
theorem create_cases (hC : C.Lawful) (hne : passphrase ≠ [])
    (h : HeaderText C passphrase draws key json) (path : String) (fault : Option Fault) :
    (∃ f e, fault = some f ∧ f.step = .createDir ∧
        create C path passphrase draws fault none = (.error e, none)) ∨
      (∃ dir, dir.header = some json ∧ dir.data = (C.openStore (some C.emptyDir)).2 ∧
        create C path passphrase draws fault none =
          (.ok (C.vault key draws.salt.val, ∅), some dir)) ∨
      ∃ f e dir, fault = some f ∧ f.step ≠ .createDir ∧ Remains json f dir ∧
        create C path passphrase draws fault none = (.error e, some dir) := by
  rw [create_none hne]
  cases hdir : faultAt fault .createDir with
  | some f =>
      obtain ⟨hf, hstep⟩ := faultAt_eq_some.mp hdir
      exact .inl ⟨f, _, hf, hstep, rfl⟩
  | none =>
      obtain hok | ⟨e, dir, herror, f, hf, hremains⟩ := populate_endsIn hC h path fault
      · exact .inr (.inl ⟨_, rfl, rfl, by rw [hok]; rfl⟩)
      · have hstep : f.step ≠ .createDir := fun hstep => by
          rw [faultAt_eq_some.mpr ⟨hf, hstep⟩] at hdir
          cases hdir
        exact .inr (.inr ⟨f, e, dir, hf, hstep, hremains, by rw [herror]; rfl⟩)

/-- **Failed creations**: when a creation at a free path fails, the vault can afterwards be opened
there or created again exactly if what failed is the creation of the vault's own directory, or
comes after the header has been written and leaves a store that can be opened. -/
theorem create_recoverable_iff (hC : C.Lawful) (hne : passphrase ≠ [])
    (hlen : passphrase.length < 2 ^ 32) {state : Option (VaultDir C)}
    (hfail : create C path passphrase draws (some f) none = (.error e, state)) :
    Recoverable C path passphrase state ↔
      f.step = .createDir ∨ f.step ∈ storeSteps ∧ C.Opens (f.store C) := by
  obtain ⟨key, json, h⟩ := exists_headerText hC hlen draws
  obtain ⟨f', e', hf, hstep, hcreate⟩ | ⟨dir, -, -, hcreate⟩ |
      ⟨f', e', dir, hf, hstep, hremains, hcreate⟩ :=
    create_cases hC hne h path (some f)
  · obtain rfl := Option.some.inj hf
    obtain ⟨-, rfl⟩ := Prod.mk.inj (hfail.symm.trans hcreate)
    exact iff_of_true (recoverable_none hC hne hlen) (.inl hstep)
  · cases hfail.symm.trans hcreate
  · obtain rfl := Option.some.inj hf
    obtain ⟨-, rfl⟩ := Prod.mk.inj (hfail.symm.trans hcreate)
    rw [hremains.recoverable_iff hC hne h, or_iff_right hstep]

/-! ## Runs of attempts -/

/-- An attempt to create or to open a vault. -/
inductive Attempt where
  | creating (draws : Draws) (fault : Option Fault)
  | opening (fault : Option Fault)

/-- What an attempt leaves at the path. -/
def Attempt.after (path : String) (passphrase : Bytes) (state : Option (VaultDir C)) :
    Attempt → Option (VaultDir C)
  | .creating draws fault => (create C path passphrase draws fault state).2
  | .opening fault => (openVault C path passphrase fault state).2

/-- A failed opening of the store that leaves it no worse: if it could be opened, it still can. -/
def Fault.Mild (C : VaultCrates) (f : Fault) : Prop :=
  ∀ data, C.Opens data → C.Opens (C.disturbed data f.extent)

/-- What fails of the attempt spares the path: the creation of a vault does not fail between the
directory and the whole header, and a store that is not opened is left no worse. -/
def Attempt.Spares (C : VaultCrates) : Attempt → Prop
  | .creating _ fault => ∀ f, fault = some f →
      f.step = .createDir ∨ f.step ∈ storeSteps ∧ (f.step ≠ .createDataDir → f.Mild C)
  | .opening fault => ∀ f, fault = some f →
      f.step = .openDatabase ∨ f.step = .openKeyspace → f.Mild C

/-- Nothing at all, or a whole header and a store that opens. -/
inductive Settled (C : VaultCrates) (passphrase : Bytes) : Option (VaultDir C) → Prop
  | absent : Settled C passphrase none
  | whole (draws : Draws) (key : FixedBytes 32) (json : Bytes) (dir : VaultDir C)
      (h : HeaderText C passphrase draws key json) (header : dir.header = some json)
      (data : C.Opens dir.data) : Settled C passphrase (some dir)

section Runs

-- A store that was opened can be opened again.
variable (hC : C.Lawful) (hkept : ∀ data, C.Opens data → C.Opens (C.openStore data).2)
  (hne : passphrase ≠ []) (hlen : passphrase.length < 2 ^ 32) {state : Option (VaultDir C)}

include hC

include hkept in
theorem Settled.opening (h : Settled C passphrase state)
    (hspares : (Attempt.opening fault).Spares C) :
    Settled C passphrase (openVault C path passphrase fault state).2 := by
  cases h with
  | absent => exact .absent
  | whole draws key json dir h hheader hdata =>
      obtain ⟨keyspace, hopens⟩ := hdata
      rw [openVault_some hheader]
      obtain hok | ⟨e, left, herror, -, hheader', hleft⟩ :=
        openDir_endsIn hC h hheader hopens path fault
      · rw [hok]
        exact .whole _ _ _ _ h hheader (hkept _ ⟨keyspace, hopens⟩)
      · rw [herror]
        refine .whole _ _ _ _ h hheader' ?_
        obtain hleft | ⟨f, hf, hstep, hleft⟩ := hleft
        · exact hleft ▸ ⟨keyspace, hopens⟩
        · exact hleft ▸ hspares f hf hstep _ ⟨keyspace, hopens⟩

include hne hlen

theorem Settled.recoverable (h : Settled C passphrase state) :
    Recoverable C path passphrase state := by
  cases h with
  | absent => exact recoverable_none hC hne hlen
  | whole draws key json dir h hheader hdata =>
      exact (recoverable_whole_iff hC hne h hheader).mpr hdata

include hkept

theorem Settled.creating (h : Settled C passphrase state)
    (hspares : (Attempt.creating draws fault).Spares C) :
    Settled C passphrase (create C path passphrase draws fault state).2 := by
  cases h with
  | whole draws' key json dir h hheader hdata =>
      rw [create_some hne]
      exact .whole _ _ _ _ h hheader hdata
  | absent =>
      obtain ⟨key, json, h⟩ := exists_headerText hC hlen draws
      obtain ⟨_, _, -, -, hcreate⟩ | ⟨dir, hheader, hdata, hcreate⟩ |
        ⟨f, _, dir, hf, hstep, hremains, hcreate⟩ := create_cases hC hne h path fault
      · rw [hcreate]
        exact .absent
      · rw [hcreate]
        exact .whole _ _ _ _ h hheader (hdata ▸ hkept _ ⟨∅, hC.empty⟩)
      · rw [hcreate]
        obtain ⟨hlate, hmild⟩ := (hspares f hf).resolve_left hstep
        cases hremains with
        | torn hwrite _ => simp [hwrite, storeSteps] at hlate
        | bare hmem _ => exact absurd hlate (not_mem_storeSteps hmem)
        | whole _ hheader hdata =>
            refine .whole _ _ _ _ h hheader ?_
            rw [hdata, Fault.store]
            split
            · exact ⟨∅, hC.absent⟩
            · next hopening => exact hmild hopening _ ⟨∅, hC.empty⟩

/-- **Runs**: after any attempts that spare the path, the vault can be opened or created there. -/
theorem attempts_recoverable {attempts : List Attempt}
    (hspares : ∀ attempt ∈ attempts, attempt.Spares C) :
    Recoverable C path passphrase (attempts.foldl (Attempt.after path passphrase) none) := by
  have hsettled : Settled C passphrase (attempts.foldl (Attempt.after path passphrase) none) :=
    List.foldlRecOn attempts _ .absent fun state h attempt hmem => by
      cases attempt with
      | creating draws fault => exact h.creating hC hkept hne hlen (hspares _ hmem)
      | opening fault => exact h.opening hC hkept (hspares _ hmem)
  exact hsettled.recoverable hC hne hlen

end Runs

/-! ## A failed creation -/

/-- A number of four bytes. -/
def packNumber (n : UInt32) : Bytes := Aead.mark (leBytes 4 n.toNat)

/-- A text that may be absent. -/
def packOption (text : Option Bytes) : Bytes := Aead.mark (text.elim [] (1 :: ·))

/-- A header with the ends of all its parts and its own marked. -/
def packHeader (h : StoredHeader) : Bytes :=
  Aead.mark (packNumber h.version ++ (Aead.mark h.salt ++ (packNumber h.kdfParams.memoryCostKib ++
    (packNumber h.kdfParams.timeCost ++
      (packNumber h.kdfParams.parallelism ++ (Aead.mark h.keyCheck ++
      (packOption h.installationPublicKey ++ packOption h.sealedSigningKey)))))))

def unpackNumber (bytes : Bytes) : Option (UInt32 × Bytes) :=
  (Aead.unmark bytes).map fun p => (.ofNat (ofLeBytes p.1), p.2)

def unpackOption (bytes : Bytes) : Option (Option Bytes × Bytes) :=
  (Aead.unmark bytes).map fun p => (if p.1 = [] then none else some p.1.tail, p.2)

def unpackHeader (bytes : Bytes) : Option StoredHeader := do
  let whole ← Aead.unmark bytes
  let version ← unpackNumber whole.1
  let salt ← Aead.unmark version.2
  let memory ← unpackNumber salt.2
  let time ← unpackNumber memory.2
  let parallelism ← unpackNumber time.2
  let keyCheck ← Aead.unmark parallelism.2
  let publicKey ← unpackOption keyCheck.2
  let signingKey ← unpackOption publicKey.2
  some ⟨version.1, salt.1, ⟨memory.1, time.1, parallelism.1⟩, keyCheck.1, publicKey.1, signingKey.1⟩

theorem unpackNumber_packNumber (n : UInt32) (rest : Bytes) :
    unpackNumber (packNumber n ++ rest) = some (n, rest) := by
  have hn : ofLeBytes (leBytes 4 n.toNat) = n.toNat := ofLeBytes_leBytes n.toNat_lt
  simp [unpackNumber, packNumber, Aead.unmark_mark, hn]

theorem unpackOption_packOption (text : Option Bytes) (rest : Bytes) :
    unpackOption (packOption text ++ rest) = some (text, rest) := by
  cases text <;> simp [unpackOption, packOption, Aead.unmark_mark]

theorem unpackHeader_packHeader (h : StoredHeader) : unpackHeader (packHeader h) = some h := by
  have hwhole (body : Bytes) : Aead.unmark (Aead.mark body) = some (body, []) := by
    simpa using Aead.unmark_mark body []
  have hlast : unpackOption (packOption h.sealedSigningKey) = some (h.sealedSigningKey, []) := by
    simpa using unpackOption_packOption h.sealedSigningKey []
  refine Option.bind_eq_some_iff.mpr ⟨_, hwhole _, ?_⟩
  refine Option.bind_eq_some_iff.mpr ⟨_, unpackNumber_packNumber _ _, ?_⟩
  refine Option.bind_eq_some_iff.mpr ⟨_, Aead.unmark_mark _ _, ?_⟩
  refine Option.bind_eq_some_iff.mpr ⟨_, unpackNumber_packNumber _ _, ?_⟩
  refine Option.bind_eq_some_iff.mpr ⟨_, unpackNumber_packNumber _ _, ?_⟩
  refine Option.bind_eq_some_iff.mpr ⟨_, unpackNumber_packNumber _ _, ?_⟩
  refine Option.bind_eq_some_iff.mpr ⟨_, Aead.unmark_mark _ _, ?_⟩
  refine Option.bind_eq_some_iff.mpr ⟨_, unpackOption_packOption _ _, ?_⟩
  exact Option.bind_eq_some_iff.mpr ⟨_, hlast, rfl⟩

/-- Crates with no secrets.  Short salts are refused, and a store is damaged for good if the first
step of its opening fails. -/
def plainCrates : VaultCrates where
  argon2Params _ := .ok ()
  argon2Hash _ passphrase salt :=
    if salt.length < 8 then .error "salt is too short" else .ok (.slice 32 0 (passphrase ++ salt))
  cipher _ := .transparent nonceLen
  headerToJson header := some (packHeader header)
  headerOfJson := unpackHeader
  publicKey signing := signing
  keyedHash := sampleVault.keyedHash
  typeToJson := sampleVault.typeToJson
  recordToJson := sampleVault.recordToJson
  recordOfJson := sampleVault.recordOfJson
  valueLen := sampleVault.valueLen
  Disk := Bool
  emptyDir := true
  openStore data := if data = some false then (.error "fjall open", data) else (.ok ∅, some true)
  disturbed data extent := if extent = 0 then some false else data

theorem plainCrates_lawful : plainCrates.Lawful where
  params := rfl
  hash _ salt _ := by
    have hsalt : ¬salt.val.length < 8 := by simp [salt.property, saltLen]
    exact ⟨_, if_neg hsalt⟩
  opens _ := Aead.transparent_ideal.roundTrips
  seals _ _ _ _ _ := ⟨_, rfl⟩
  json _ := ⟨_, rfl⟩
  header header text h := by
    obtain rfl := Option.some.inj h
    exact unpackHeader_packHeader header
  torn header text k h := by
    obtain rfl := Option.some.inj h
    have htorn : Aead.unmark ((packHeader header).dropLast.take k) = none :=
      Aead.unmark_take_dropLast_mark _ k
    show unpackHeader _ = none
    rw [unpackHeader, htorn]
    rfl
  absent := rfl
  empty := rfl

def zeroDraws : Draws := ⟨.replicate _ 0, .replicate _ 0, .replicate _ 0, .replicate _ 0⟩

/-- The disk is full at some step. -/
def diskFull (step : SetupStep) : Fault :=
  ⟨step, ⟨false, "No space left on device (os error 28)"⟩, 5⟩

/-- The first step of opening the store fails at once. -/
def storeDamaged : Fault := { diskFull .openDatabase with extent := 0 }

/-- The store cannot be opened, and is left as it was or damaged. -/
theorem create_recoverable_store :
    ∃ e state e' state',
      create plainCrates "v" (ascii "pw") zeroDraws (some (diskFull .openDatabase)) none =
        (.error e, state) ∧ Recoverable plainCrates "v" (ascii "pw") state ∧
      create plainCrates "v" (ascii "pw") zeroDraws (some storeDamaged) none = (.error e', state') ∧
        ¬Recoverable plainCrates "v" (ascii "pw") state' := by
  obtain ⟨e, state, hfail⟩ : ∃ e state, create plainCrates "v" (ascii "pw") zeroDraws
      (some (diskFull .openDatabase)) none = (.error e, state) := ⟨_, _, rfl⟩
  obtain ⟨e', state', hfail'⟩ : ∃ e state, create plainCrates "v" (ascii "pw") zeroDraws
      (some storeDamaged) none = (.error e, state) := ⟨_, _, rfl⟩
  have hsafe := create_recoverable_iff plainCrates_lawful (by decide) (by decide) hfail
  have hdamaged := create_recoverable_iff plainCrates_lawful (by decide) (by decide) hfail'
  refine ⟨e, state, e', state', hfail, hsafe.mpr (.inr ⟨by decide, ∅, rfl⟩), hfail', ?_⟩
  rw [hdamaged]
  rintro (hdir | ⟨-, keyspace, hopens⟩)
  · cases hdir
  · cases hopens

/-- The store cannot be created, then it cannot be opened, and then somebody tries again. -/
theorem attempts_recoverable_retried :
    Recoverable plainCrates "v" (ascii "pw") ([.creating zeroDraws (some (diskFull .createDataDir)),
      .opening (some (diskFull .openDatabase)), .creating zeroDraws none].foldl
        (Attempt.after "v" (ascii "pw")) none) := by
  have hmild (step : SetupStep) : (diskFull step).Mild plainCrates := fun data h => h
  refine attempts_recoverable plainCrates_lawful (fun data ⟨keyspace, hopens⟩ => ?_) (by decide)
    (by decide) ?_
  · cases hdata : data with
    | none => exact ⟨∅, rfl⟩
    | some whole => cases whole <;> simp_all [plainCrates, VaultCrates.Opens]
  · intro attempt hmem
    simp only [List.mem_cons, List.not_mem_nil, or_false] at hmem
    rcases hmem with rfl | rfl | rfl
    · rintro f ⟨⟩
      exact .inr ⟨by decide, fun _ => hmild _⟩
    · rintro f ⟨⟩ -
      exact hmild _
    · rintro f ⟨⟩

/-- The disk is full when the header is written: five bytes of it remain, and from then on a vault
can neither be opened nor created. -/
theorem create_poisons_path :
    ∃ e dir, create plainCrates "v" (ascii "pw") zeroDraws (some (diskFull .writeHeader)) none =
        (.error e, some dir) ∧
      (openVault plainCrates "v" (ascii "pw") none (some dir)).1 = .error (.vault .serialization) ∧
      (∀ draws, (create plainCrates "v" (ascii "pw") draws none (some dir)).1 =
        .error (.alreadyExists "v")) ∧
      ¬Recoverable plainCrates "v" (ascii "pw") (some dir) := by
  have hne : ascii "pw" ≠ [] := by decide
  refine ⟨_, _, rfl, rfl, fun draws => by rw [create_some hne],
    not_recoverable hne fun text htext => ?_⟩
  obtain rfl := Option.some.inj htext
  rfl

end Akroasis.Kryphos
