import Akroasis.Mesh.StoreForward

/-!
# Akroasis.Mesh.Snapshot

Restoring the store-and-forward queues (`deserialize` of `store_forward.rs`), and what it
means for the limits of the store.

`deserialize` checks the number of destinations of a snapshot but not the length of its
queues.  So a store keeps its limits over any calls exactly if every snapshot it accepts
keeps the limit of a queue (`within_runs_iff`).
-/

namespace Akroasis.Mesh

/-- `serde_json` on `HashMap<u32, Vec<StoredMessage>>`. -/
structure SnapshotJson where
  fromSlice : Bytes → Option (Table UInt32 (List StoredMessage))

/-- The errors of `deserialize`. -/
inductive RestoreError
  | storeForwardSerde
  | storeForwardOverCapacity (destinationCount max : Nat)
  deriving DecidableEq

namespace StoreForward

section

variable (J : SnapshotJson)

/-- `deserialize`: a snapshot with too many destinations is refused, any other one replaces
the queues. -/
def deserialize (s : StoreForward) (data : Bytes) : Except RestoreError Unit × StoreForward :=
  match J.fromSlice data with
  | none => (.error .storeForwardSerde, s)
  | some raw =>
      if maxDestinations < raw.size then
        (.error (.storeForwardOverCapacity raw.size maxDestinations), s)
      else (.ok (), { s with queues := raw })

end

variable {s : StoreForward} {J : SnapshotJson} {limit : Nat}

/-! ## Limits -/

/-- The store keeps its limits. -/
structure Within (s : StoreForward) : Prop where
  destinations : s.queues.size ≤ maxDestinations
  length : ∀ dest, (s.queue dest).length ≤ s.maxQueuePerDest

/-- With a limit of at least one these are the limits of a store that was never restored. -/
theorem within_iff_bounded (hlimit : 1 ≤ s.maxQueuePerDest) : s.Within ↔ s.Bounded := by
  have hmax : max s.maxQueuePerDest 1 = s.maxQueuePerDest := Nat.max_eq_left hlimit
  constructor
  · intro h
    exact ⟨h.destinations, fun dest => (h.length dest).trans (Nat.le_max_left _ _),
      fun h0 => by omega⟩
  · intro h
    exact ⟨h.destinations, fun dest => hmax ▸ h.length dest⟩

/-- A store that is refused changes no queue, unless the limit is zero: then the queue of
a new destination has been created. -/
theorem lookup_store_of_error (hlimit : 1 ≤ s.maxQueuePerDest) {dest : UInt32} {msg : StoredMessage}
    {e : Error} (h : (s.store dest msg).1 = .error e) (m : UInt32) :
    (s.store dest msg).2.queues.lookup m = s.queues.lookup m := by
  unfold store at h ⊢
  by_cases hdest : s.noDestination dest = true
  · simp [hdest]
  · by_cases hfull : s.maxQueuePerDest ≤ (s.queue dest).length
    · by_cases hprio : minPriority (s.queue dest) < msg.priority
      · simp [hdest, hfull, hprio] at h
      · simp only [hdest, hfull, hprio, if_true, if_false, Bool.false_eq_true]
        -- a full queue is not empty, so it was there
        have hsome : s.queues.lookup dest = some (s.queue dest) := by
          unfold queue at hfull ⊢
          cases hq : s.queues.lookup dest with
          | none => simp [hq] at hfull; omega
          | some q => rfl
        rw [withQueue, Table.lookup_insert_ite]
        split
        · next heq => rw [heq, hsome]
        · rfl
    · simp [hdest, hfull] at h

/-! ## Runs -/

end StoreForward

/-- The calls that change a store. -/
inductive StoreOp
  | store (dest : UInt32) (msg : StoredMessage)
  | drainFor (dest : UInt32)
  | pruneExpired (nowMs : Nat)
  | deserialize (data : Bytes)

/-- No queue of a snapshot that `deserialize` accepts is longer than `limit`. -/
def StoreOp.KeepsLimit (J : SnapshotJson) (limit : Nat) : StoreOp → Prop
  | .deserialize data => ∀ raw, J.fromSlice data = some raw → raw.size ≤ maxDestinations →
      ∀ dest, ((raw.lookup dest).getD []).length ≤ limit
  | _ => True

namespace StoreForward

variable {s : StoreForward} {J : SnapshotJson} {limit : Nat}

/-- One call. -/
def apply (J : SnapshotJson) (s : StoreForward) : StoreOp → StoreForward
  | .store dest msg => (s.store dest msg).2
  | .drainFor dest => (s.drainFor dest).2
  | .pruneExpired nowMs => s.pruneExpired nowMs
  | .deserialize data => (s.deserialize J data).2

/-- The store after some calls. -/
def applyAll (J : SnapshotJson) (s : StoreForward) (ops : List StoreOp) : StoreForward :=
  ops.foldl (apply J) s

theorem maxQueuePerDest_apply (J : SnapshotJson) (s : StoreForward) (op : StoreOp) :
    (s.apply J op).maxQueuePerDest = s.maxQueuePerDest := by
  cases op with
  | store dest msg =>
      simp only [apply, store]
      split
      · rfl
      · split
        · split <;> rfl
        · rfl
  | drainFor dest => rfl
  | pruneExpired nowMs => rfl
  | deserialize data =>
      simp only [apply, deserialize]
      cases J.fromSlice data with
      | none => rfl
      | some raw => simp only; split <;> rfl

theorem maxQueuePerDest_applyAll (J : SnapshotJson) (s : StoreForward) (ops : List StoreOp) :
    (s.applyAll J ops).maxQueuePerDest = s.maxQueuePerDest := by
  induction ops generalizing s with
  | nil => rfl
  | cons op ops ih => exact (ih (s.apply J op)).trans (maxQueuePerDest_apply J s op)

/-- **Step**: a call keeps the limits if the snapshot it may restore does. -/
theorem Within.apply (h : s.Within) (hlimit : 1 ≤ s.maxQueuePerDest) {op : StoreOp}
    (hop : op.KeepsLimit J s.maxQueuePerDest) : (s.apply J op).Within := by
  have hbounded := (within_iff_bounded hlimit).mp h
  have hlimit' : 1 ≤ (s.apply J op).maxQueuePerDest := by rwa [maxQueuePerDest_apply]
  cases op with
  | store dest msg => exact (within_iff_bounded hlimit').mpr (hbounded.store dest msg)
  | drainFor dest => exact (within_iff_bounded hlimit').mpr (hbounded.drainFor dest)
  | pruneExpired nowMs => exact (within_iff_bounded hlimit').mpr (hbounded.pruneExpired nowMs)
  | deserialize data =>
      simp only [StoreForward.apply, deserialize]
      cases hraw : J.fromSlice data with
      | none => exact h
      | some raw =>
          by_cases hsize : maxDestinations < raw.size
          · simpa only [hsize, if_true] using h
          · simp only [hsize, if_false]
            exact ⟨Nat.le_of_not_lt hsize, hop raw hraw (Nat.le_of_not_lt hsize)⟩

theorem Within.applyAll (h : s.Within) (hlimit : 1 ≤ s.maxQueuePerDest) {ops : List StoreOp}
    (hops : ∀ op ∈ ops, op.KeepsLimit J s.maxQueuePerDest) : (s.applyAll J ops).Within := by
  induction ops generalizing s with
  | nil => exact h
  | cons op ops ih =>
      have hsame := maxQueuePerDest_apply J s op
      refine ih (h.apply hlimit (hops op List.mem_cons_self)) (by rwa [hsame]) fun o ho => ?_
      rw [hsame]
      exact hops o (List.mem_cons_of_mem _ ho)

/-- A restored store within its limits was restored from a snapshot that keeps them. -/
theorem keepsLimit_of_within {op : StoreOp} (h : (s.apply J op).Within) :
    op.KeepsLimit J s.maxQueuePerDest := by
  cases op with
  | deserialize data =>
      intro raw hraw hsize dest
      have hlength := h.length dest
      simp only [StoreForward.apply, deserialize, hraw, not_lt.mpr hsize, if_false] at hlength
      exact hlength
  | _ => trivial

/-- **Limits over runs**: with a limit of at least one, a store keeps its limits throughout a
run, with no queue changed by a store that is refused, exactly if no queue of a snapshot it
accepts is longer than the limit. -/
theorem within_runs_iff (J : SnapshotJson) {limit : Nat} (hlimit : 1 ≤ limit) (ops : List StoreOp) :
    (∀ done, done <+: ops →
      ((⟨∅, limit⟩ : StoreForward).applyAll J done).Within ∧
      ∀ dest msg e, (((⟨∅, limit⟩ : StoreForward).applyAll J done).store dest msg).1 = .error e →
        ∀ m, (((⟨∅, limit⟩ : StoreForward).applyAll J done).store dest msg).2.queues.lookup m =
          ((⟨∅, limit⟩ : StoreForward).applyAll J done).queues.lookup m) ↔
    ∀ op ∈ ops, op.KeepsLimit J limit := by
  set s₀ : StoreForward := ⟨∅, limit⟩ with hs₀
  have hsame : ∀ done, (s₀.applyAll J done).maxQueuePerDest = limit := fun done =>
    maxQueuePerDest_applyAll J s₀ done
  constructor
  · intro h op hop
    obtain ⟨done, rest, rfl⟩ := List.append_of_mem hop
    have hnext := (h (done ++ [op]) ⟨rest, by simp⟩).1
    rw [applyAll, List.foldl_append] at hnext
    exact hsame done ▸ keepsLimit_of_within (s := s₀.applyAll J done) hnext
  · intro h done hdone
    have hempty : s₀.Within := ⟨by simp [hs₀, Table.size], fun dest => by simp [hs₀, queue]⟩
    refine ⟨hempty.applyAll hlimit fun op hop => h op (hdone.subset hop), fun dest msg e he m => ?_⟩
    exact lookup_store_of_error (by rwa [hsame done]) he m

/-- A message without content. -/
def sampleStored (id : UInt32) : StoredMessage := ⟨[], id, 7, 1, 64, 0, 3600, 0⟩

/-- Two messages for node 7. -/
def twoStored : Table UInt32 (List StoredMessage) :=
  (∅ : Table UInt32 (List StoredMessage)).insert 7 [sampleStored 1, sampleStored 2]

/-- The fields of a message after its id. -/
def sampleFields : String :=
  ",\"dest\":7,\"portnum\":1,\"priority\":64,\"stored_at_ms\":0," ++
    "\"ttl_secs\":3600,\"delivery_attempts\":0\x7d"

/-- The snapshot that holds them. -/
def twoStoredJson : Bytes :=
  ascii ("\x7b\"7\":[\x7b\"packet_bytes\":[],\"packet_id\":1" ++ sampleFields ++
    ",\x7b\"packet_bytes\":[],\"packet_id\":2" ++ sampleFields ++ "]\x7d")

/-- `serde_json` on one text and the queues it stands for; other texts are left out. -/
def jsonOf (text : Bytes) (queues : Table UInt32 (List StoredMessage)) : SnapshotJson where
  fromSlice data := if data = text then some queues else none

theorem keepsLimit_jsonOf (text : Bytes) {queues : Table UInt32 (List StoredMessage)}
    (h : ∀ dest, ((queues.lookup dest).getD []).length ≤ limit) :
    (StoreOp.deserialize text).KeepsLimit (jsonOf text queues) limit := by
  intro raw hraw _ dest
  obtain rfl : queues = raw := by simpa [jsonOf] using hraw
  exact h dest

theorem deserialize_jsonOf (s : StoreForward) (text : Bytes)
    {queues : Table UInt32 (List StoredMessage)} (h : ¬ maxDestinations < queues.size) :
    s.deserialize (jsonOf text queues) text = (.ok (), { s with queues := queues }) := by
  simp [deserialize, jsonOf, h]

/-- A limit of two admits the snapshot. -/
theorem within_runs_two_stored :
    ((⟨∅, 2⟩ : StoreForward).applyAll (jsonOf twoStoredJson twoStored)
      [.deserialize twoStoredJson]).Within := by
  have hlimit : ∀ dest, ((twoStored.lookup dest).getD []).length ≤ 2 := by
    intro dest
    rw [twoStored, Table.lookup_insert_ite]
    split
    · simp
    · simp
  refine ((within_runs_iff (jsonOf twoStoredJson twoStored) (by decide)
    [.deserialize twoStoredJson]).mpr (fun op hop => ?_) _ (List.prefix_refl _)).1
  rw [List.mem_singleton.mp hop]
  exact keepsLimit_jsonOf twoStoredJson hlimit

/-- A limit of one does not, but `deserialize` takes it. -/
theorem long_snapshot_restored :
    ((⟨∅, 1⟩ : StoreForward).deserialize (jsonOf twoStoredJson twoStored) twoStoredJson).1 =
      .ok () ∧
      (((⟨∅, 1⟩ : StoreForward).deserialize (jsonOf twoStoredJson twoStored) twoStoredJson).2.queue
        7).length = 2 := by
  rw [deserialize_jsonOf _ _ (by decide)]
  exact ⟨rfl, by decide⟩

end StoreForward

end Akroasis.Mesh
