import Akroasis.Kryphos.Operations
import Akroasis.Machine

/-!
# Akroasis.Kryphos.System

The vault shared by threads (`kryphos/src/storage.rs`).  A mutating operation takes the write
lock, reads and prepares its change, appends to the audit log, changes the store and persists
it, and then releases the lock (`commit_audited`); any of these steps may fail.  Reads take no
lock and happen at any time.

A state keeps, besides the store and the holder of the lock, what reached the audit log and
the store, in order, and the answers that callers got.  `change_linearized` says that the lock
makes operations atomic: the store changes only by what an operation prepares on it as it is.
-/

namespace Akroasis.Kryphos

/-- `LogEntryKind::VaultMutation`. -/
structure AuditEntry where
  credentialRef : String
  operation : String
  deriving DecidableEq

/-- What reached the audit log or the store. -/
inductive StoreAction where
  | audit (entry : AuditEntry)
  | change (op : Op) (mutation : Mutation)
  deriving DecidableEq

/-- How an operation ended. -/
inductive Outcome where
  | refused (error : VaultError)
  | auditFailed | writeFailed | persistFailed | done
  deriving DecidableEq

/-- What the caller of an operation gets. -/
def Outcome.result (op : Op) : Outcome → Except VaultError Unit
  | .refused error => .error error
  | .auditFailed => .error .tamperLog
  | .writeFailed | .persistFailed =>
      .error (.auditedMutationFailed op.name op.operation .storageBackend)
  | .done => .ok ()

/-- How far the holder of the lock has come. -/
inductive Phase where
  | locked
  | prepared (mutation : Mutation)
  | audited (mutation : Mutation)
  | written
  deriving DecidableEq

/-- The operation that holds the lock, with the store as it was when it took it. -/
structure Progress where
  thread : Nat
  op : Op
  before : Keyspace
  phase : Phase
  deriving DecidableEq

/-- An operation that has ended, with the store before and after. -/
structure Reply where
  thread : Nat
  op : Op
  outcome : Outcome
  before : Keyspace
  after : Keyspace
  deriving DecidableEq

/-- The vault. -/
structure State where
  keyspace : Keyspace
  holder : Option Progress
  log : List StoreAction
  replies : List Reply
  deriving DecidableEq

/-- What the audit log answers.  An append that fails may have been recorded all the same. -/
inductive AuditAnswer where
  | appended
  | failed (recorded : Bool)
  deriving DecidableEq

/-- What a thread does next. -/
inductive Action where
  | acquire (op : Op)
  | prepare (env : Env)
  | audit (answer : AuditAnswer)
  | write (ok : Bool)
  | persist (ok : Bool)
  | get (name : Name)
  deriving DecidableEq

/-- A step of one thread. -/
structure Event where
  thread : Nat
  action : Action
  deriving DecidableEq

/-- The store takes values of up to 2^32 bytes. -/
def Mutation.fits (V : Vault) : Mutation → Bool
  | .insert _ entry => V.valueLen entry ≤ 2 ^ 32
  | .remove _ => true

namespace State

/-- A created vault. -/
def start : State := ⟨∅, none, [], []⟩

/-- The entry of an operation in the audit log. -/
def auditEntry (V : Vault) (op : Op) : AuditEntry := ⟨auditRef V op.name, op.operation⟩

/-- The audit entry of an operation is appended. -/
def record (V : Vault) (s : State) (op : Op) : State :=
  { s with log := s.log ++ [.audit (auditEntry V op)] }

/-- The store is changed. -/
def change (s : State) (op : Op) (mutation : Mutation) : State :=
  { s with keyspace := mutation.apply s.keyspace, log := s.log ++ [.change op mutation] }

/-- The holder goes on. -/
def goto (s : State) (p : Progress) (phase : Phase) : State :=
  { s with holder := some { p with phase := phase } }

/-- The holder releases the lock and returns. -/
def finish (s : State) (p : Progress) (outcome : Outcome) : State :=
  { s with
    holder := none
    replies := s.replies ++ [⟨p.thread, p.op, outcome, p.before, s.keyspace⟩] }

variable (V : Vault)

/-- A step of the holder of the lock. -/
def advance (s : State) (p : Progress) : Phase → Action → Option State
  | .locked, .prepare env => some <|
      match prepare V s.keyspace env p.op with
      | .error error => s.finish p (.refused error)
      | .ok mutation => s.goto p (.prepared mutation)
  | .prepared mutation, .audit .appended => some ((s.record V p.op).goto p (.audited mutation))
  | .prepared _, .audit (.failed recorded) =>
      some ((if recorded then s.record V p.op else s).finish p .auditFailed)
  | .audited mutation, .write true =>
      if mutation.fits V then some ((s.change p.op mutation).goto p .written) else none
  | .audited _, .write false => some (s.finish p .writeFailed)
  | .written, .persist ok => some (s.finish p (if ok then .done else .persistFailed))
  | _, _ => none

/-- A step of any thread. -/
def step (s : State) (e : Event) : Option State :=
  match e.action, s.holder with
  | .get _, _ => some s
  | .acquire op, none => some { s with holder := some ⟨e.thread, op, s.keyspace, .locked⟩ }
  | _, none => none
  | action, some p => if p.thread = e.thread then s.advance V p p.phase action else none

/-! ## What a step can do -/

variable {V} {s s' : State} {e : Event} {p : Progress}

/-- The steps of the holder of the lock. -/
inductive Advanced (V : Vault) (s : State) (p : Progress) : State → Prop
  | refused (hphase : p.phase = .locked) (error : VaultError) :
      Advanced V s p (s.finish p (.refused error))
  | prepared (hphase : p.phase = .locked) {env : Env} {mutation : Mutation}
      (h : prepare V s.keyspace env p.op = .ok mutation) :
      Advanced V s p (s.goto p (.prepared mutation))
  | audited {mutation : Mutation} (hphase : p.phase = .prepared mutation) :
      Advanced V s p ((s.record V p.op).goto p (.audited mutation))
  | auditFailed {mutation : Mutation} (hphase : p.phase = .prepared mutation) :
      Advanced V s p (s.finish p .auditFailed)
  | auditLost {mutation : Mutation} (hphase : p.phase = .prepared mutation) :
      Advanced V s p ((s.record V p.op).finish p .auditFailed)
  | written {mutation : Mutation} (hphase : p.phase = .audited mutation)
      (hfits : mutation.fits V = true) : Advanced V s p ((s.change p.op mutation).goto p .written)
  | writeFailed {mutation : Mutation} (hphase : p.phase = .audited mutation) :
      Advanced V s p (s.finish p .writeFailed)
  | persistFailed (hphase : p.phase = .written) : Advanced V s p (s.finish p .persistFailed)
  | done (hphase : p.phase = .written) : Advanced V s p (s.finish p .done)

theorem advanced_of_advance {action : Action} (h : s.advance V p p.phase action = some s') :
    Advanced V s p s' := by
  generalize hphase : p.phase = phase at h
  unfold advance at h
  split at h
  next env =>
    obtain rfl := Option.some.inj h
    cases hprepare : prepare V s.keyspace env p.op with
    | error error => exact .refused hphase error
    | ok mutation => exact .prepared hphase hprepare
  next mutation =>
    obtain rfl := Option.some.inj h
    exact .audited hphase
  next recorded =>
    obtain rfl := Option.some.inj h
    cases recorded with
    | false => exact .auditFailed hphase
    | true => exact .auditLost hphase
  next mutation =>
    split at h
    next hfits =>
      obtain rfl := Option.some.inj h
      exact .written hphase hfits
    next => cases h
  next =>
    obtain rfl := Option.some.inj h
    exact .writeFailed hphase
  next ok =>
    obtain rfl := Option.some.inj h
    cases ok with
    | false => exact .persistFailed hphase
    | true => exact .done hphase
  next => cases h

/-- A step reads, takes the lock, or is one of its holder. -/
theorem step_cases (h : s.step V e = some s') :
    s' = s ∨
      (s.holder = none ∧ ∃ op, e.action = .acquire op ∧
        s' = { s with holder := some ⟨e.thread, op, s.keyspace, .locked⟩ }) ∨
      ∃ p, s.holder = some p ∧ Advanced V s p s' := by
  unfold step at h
  split at h
  next => exact .inl (Option.some.inj h).symm
  next op haction hholder =>
    exact .inr (.inl ⟨hholder, op, haction, (Option.some.inj h).symm⟩)
  next => cases h
  next p hholder _ =>
    split at h
    next => exact .inr (.inr ⟨p, hholder, advanced_of_advance h⟩)
    next => cases h

/-! ## The lock -/

/-- What holds while an operation holds the lock: until it writes, the store is as it found
it and its change is the one it would prepare now. -/
def Pending (V : Vault) (s : State) (p : Progress) : Phase → Prop
  | .locked => s.keyspace = p.before
  | .prepared mutation =>
      s.keyspace = p.before ∧ ∃ env, prepare V s.keyspace env p.op = .ok mutation
  | .audited mutation =>
      s.keyspace = p.before ∧ (∃ env, prepare V s.keyspace env p.op = .ok mutation) ∧
      ∃ earlier, s.log = earlier ++ [.audit (auditEntry V p.op)]
  | .written => True

/-- The operation that holds the lock is undisturbed. -/
def Undisturbed (V : Vault) (s : State) : Prop := ∀ p ∈ s.holder, Pending V s p p.phase

theorem undisturbed_start : Undisturbed V start := by simp [Undisturbed, start]

theorem Undisturbed.step (h : Undisturbed V s) (hstep : s.step V e = some s') :
    Undisturbed V s' := by
  rcases step_cases hstep with rfl | ⟨_, op, _, rfl⟩ | ⟨p, hholder, hadvanced⟩
  · exact h
  · rintro p ⟨⟩
    rfl
  · have hp := h p hholder
    cases hadvanced with
    | refused | auditFailed | auditLost | writeFailed | persistFailed | done =>
        rintro q ⟨⟩
    | prepared hphase hprepare =>
        rw [hphase] at hp
        rintro q ⟨⟩
        exact ⟨hp, _, hprepare⟩
    | audited hphase =>
        rw [hphase] at hp
        rintro q ⟨⟩
        exact ⟨hp.1, hp.2, s.log, rfl⟩
    | written =>
        rintro q ⟨⟩
        trivial

/-- **The lock makes operations atomic.**  A step leaves the store alone, or changes it by
what an operation prepares on the store as it is, right after its audit entry. -/
theorem change_linearized (h : Undisturbed V s) (hstep : s.step V e = some s') :
    s'.keyspace = s.keyspace ∧
        (s'.log = s.log ∨ ∃ op, s'.log = s.log ++ [.audit (auditEntry V op)]) ∨
      ∃ p env mutation earlier, s.holder = some p ∧ prepare V s.keyspace env p.op = .ok mutation ∧
        mutation.fits V = true ∧ s'.keyspace = mutation.apply s.keyspace ∧
        s.log = earlier ++ [.audit (auditEntry V p.op)] ∧
        s'.log = s.log ++ [.change p.op mutation] := by
  rcases step_cases hstep with rfl | ⟨_, op, _, rfl⟩ | ⟨p, hholder, hadvanced⟩
  · exact .inl ⟨rfl, .inl rfl⟩
  · exact .inl ⟨rfl, .inl rfl⟩
  · cases hadvanced with
    | refused | prepared | auditFailed | writeFailed | persistFailed | done =>
        exact .inl ⟨rfl, .inl rfl⟩
    | audited | auditLost => exact .inl ⟨rfl, .inr ⟨p.op, rfl⟩⟩
    | @written mutation hphase hfits =>
        have hp := h p hholder
        rw [hphase] at hp
        obtain ⟨_, ⟨env, hprepare⟩, earlier, hlog⟩ := hp
        exact .inr ⟨p, env, mutation, earlier, hholder, hprepare, hfits, rfl, hlog, rfl⟩

end State

/-! ## A sample vault

Encryption that hides nothing, and `serde_json` for the records that the samples need. -/

/-- A JSON string of characters that need no escape. -/
def jsonString (bs : Bytes) : Bytes := ascii "\"" ++ (bs ++ ascii "\"")

/-- A JSON array. -/
def jsonArray (items : List Bytes) : Bytes :=
  ascii "[" ++ ((items.intersperse (ascii ",")).flatten ++ ascii "]")

/-- A JSON object, by the names and texts of its fields. -/
def jsonObject (fields : List (String × Bytes)) : Bytes :=
  let members := fields.map fun f => jsonString (ascii f.1) ++ (ascii ":" ++ f.2)
  ascii "\x7b" ++ ((members.intersperse (ascii ",")).flatten ++ ascii "\x7d")

/-- A whole second within the first ten of the epoch. -/
def jsonTime (t : Timestamp) : Bytes :=
  jsonString
    (ascii "1970-01-01T00:00:0" ++ ([48 + UInt8.ofNat (t / 1000000000).toNat] ++ ascii "Z"))

/-- The JSON text of a credential type. -/
def jsonType : CredentialType → Bytes
  | .apiKey => jsonString (ascii "ApiKey")
  | .psk => jsonString (ascii "Psk")
  | .certificate => jsonString (ascii "Certificate")
  | .radioKey => jsonString (ascii "RadioKey")
  | .custom label => jsonObject [("Custom", jsonObject [("label", jsonString label)])]

/-- The JSON text of an event. -/
def jsonEvent (e : HistoryEvent) : Bytes :=
  let kind := match e.kind with
    | .created => "Created"
    | .rotated => "Rotated"
    | .revoked => "Revoked"
  jsonObject [("timestamp", jsonTime e.timestamp), ("kind", jsonString (ascii kind))]

/-- The JSON text of a record that was rotated less than ten times. -/
def jsonRecord (r : EntryMetadataRecord) : Bytes :=
  let time (t : Option Timestamp) := match t with
    | none => ascii "null"
    | some t => jsonTime t
  let status := match r.status with
    | .active => "Active"
    | .revoked => "Revoked"
    | .expired => "Expired"
  jsonObject [("name", jsonString r.name), ("credential_type", jsonType r.credentialType),
    ("metadata", jsonObject [("created_at", jsonTime r.metadata.createdAt),
      ("rotated_at", time r.metadata.rotatedAt), ("revoked_at", time r.metadata.revokedAt),
      ("rotation_count", [48 + UInt8.ofNat r.metadata.rotationCount.toNat]),
      ("tags", jsonArray (r.metadata.tags.map jsonString))]),
    ("status", jsonString (ascii status)), ("history", jsonArray (r.history.map jsonEvent))]

/-- The length of a JSON array of bytes that is not empty. -/
def jsonBytesLen (bs : Bytes) : Nat :=
  1 + bs.length + (bs.map fun b => if b < 10 then 1 else if b < 100 then 2 else 3).sum

/-- Second `n` of the epoch. -/
def sampleTime (n : Int) : Timestamp := 1000000000 * n

/-- The records of credential `wx` over its life, and of credential `map` when it is new. -/
def sampleRecords : List EntryMetadataRecord :=
  let created := createdRecord (ascii "wx") .apiKey (sampleTime 1)
  let rotated := created.rotated (sampleTime 2)
  [created, rotated, rotated.revoked (sampleTime 3),
    createdRecord (ascii "map") .apiKey (sampleTime 1)]

/-- A vault with no secrets. -/
def sampleVault : Vault where
  key := .replicate 32 7
  salt := List.replicate 32 9
  aead := .transparent nonceLen
  keyedHash _ bytes := .slice 32 0 bytes
  typeToJson t := some (jsonType t)
  recordToJson r := if r ∈ sampleRecords then some (jsonRecord r) else none
  recordOfJson bs := sampleRecords.find? fun r => jsonRecord r = bs
  valueLen e := 64 + jsonBytesLen e.encryptedSecret + jsonBytesLen e.encryptedMetadata

theorem sampleVault_recordToJson {record : EntryMetadataRecord} {bytes : Bytes}
    (h : sampleVault.recordToJson record = some bytes) :
    record ∈ sampleRecords ∧ jsonRecord record = bytes := by
  by_cases hmem : record ∈ sampleRecords
  · exact ⟨hmem, by simpa [sampleVault, hmem] using h⟩
  · simp [sampleVault, hmem] at h

theorem sampleVault_lawful : sampleVault.Lawful where
  opens := Aead.transparent_ideal.roundTrips
  json record bytes h := by
    have hall : ∀ r ∈ sampleRecords, sampleVault.recordOfJson (jsonRecord r) = some r := by
      decide +kernel
    obtain ⟨hmem, rfl⟩ := sampleVault_recordToJson h
    exact hall record hmem

/-- Thread `thread` carries out `op` at second `n`, and nothing fails. -/
def sampleEvents (thread : Nat) (op : Op) (n : Int) : List Event :=
  [⟨thread, .acquire op⟩, ⟨thread, .prepare ⟨sampleTime n, default, default, false⟩⟩,
    ⟨thread, .audit .appended⟩, ⟨thread, .write true⟩, ⟨thread, .persist true⟩]

end Akroasis.Kryphos
