import Akroasis.Table

/-!
# Akroasis.Mesh.Delivery

The delivery tracker (`delivery.rs`): a record per message and counters per destination.

Instants and durations are nanoseconds; every method takes the clock readings it makes.
A record is *active* while it is queued or sent and *settled* afterwards.  `Accounted` is
what the counters are for: of a destination's attempts, those not acknowledged or failed
are its active records.  `mark_sent` and `mark_failed` do not ask whether the record they
meet is settled already; each such record is counted once too often, and `recounts` lists
the destinations of these.
-/

namespace Akroasis.Mesh

/-- A monotonic clock reading. -/
abbrev Instant := Nat

/-- A time span. -/
abbrev Duration := Nat

/-- `Duration::from_secs`. -/
def fromSecs (secs : Nat) : Duration := secs * 1000000000

/-- `as_millis`. -/
def asMillis (d : Duration) : Nat := d / 1000000

/-- `routing::Error`. -/
inductive RoutingError where
  | none | noRoute | gotNak | timeout | noInterface | maxRetransmit | noChannel | tooLarge
  | noResponse | dutyCycleLimit | badRequest | notAuthorized
  deriving DecidableEq

/-- Why a message delivery failed. -/
inductive DeliveryFailure where
  | noRoute
  | maxRetries
  | nak (error : RoutingError)
  | unknownNak (code : Int)
  | ttl
  | nodeOffline
  deriving DecidableEq

/-- Lifecycle state of an outbound message. -/
inductive DeliveryStatus where
  | queued
  | sent (time : Instant)
  | acknowledged (time : Instant) (hops : Option UInt8)
  | failed (reason : DeliveryFailure)
  | expired
  deriving DecidableEq

namespace DeliveryStatus

/-- `Queued | Sent { .. }`. -/
def isActive : DeliveryStatus → Bool
  | queued | sent _ => true
  | acknowledged _ _ | failed _ | expired => false

/-- `Acknowledged { .. }`. -/
def isAcknowledged : DeliveryStatus → Bool
  | acknowledged _ _ => true
  | queued | sent _ | failed _ | expired => false

/-- `Failed { .. } | Expired`. -/
def isFailure : DeliveryStatus → Bool
  | failed _ | expired => true
  | queued | sent _ | acknowledged _ _ => false

theorem isActive_of_isAcknowledged {status : DeliveryStatus} (h : status.isAcknowledged) :
    status.isActive = false := by
  cases status <;> simp_all [isAcknowledged, isActive]

end DeliveryStatus

/-- Per-destination delivery statistics. -/
structure DestStats where
  attempted : Nat := 0
  acknowledged : Nat := 0
  failed : Nat := 0
  latencySumMs : Nat := 0
  totalRetries : Nat := 0
  deriving DecidableEq

/-- Internal record for a tracked message. -/
structure DeliveryRecord where
  status : DeliveryStatus
  dest : UInt32
  created : Instant
  retries : UInt8
  deriving DecidableEq

/-- Tracks the full delivery lifecycle of outbound messages. -/
structure DeliveryTracker where
  records : Table UInt32 DeliveryRecord := ∅
  destStats : Table UInt32 DestStats := ∅

/-- `dest_stats.entry(dest).or_default()` followed by an update. -/
def bump (stats : Table UInt32 DestStats) (dest : UInt32) (f : DestStats → DestStats) :
    Table UInt32 DestStats :=
  stats.insert dest (f ((stats.lookup dest).getD {}))

/-- The largest `u64`. -/
def maxU64 : Nat := 2 ^ 64 - 1

namespace DeliveryTracker

/-- `delivery_status`. -/
def deliveryStatus (t : DeliveryTracker) (id : UInt32) : Option DeliveryStatus :=
  (t.records.lookup id).map DeliveryRecord.status

/-- `stats_for`, with the counters of a destination without any as zero. -/
def statsFor (t : DeliveryTracker) (dest : UInt32) : DestStats := (t.destStats.lookup dest).getD {}

/-- `track`. -/
def track (t : DeliveryTracker) (id dest : UInt32) (now : Instant) : DeliveryTracker where
  records := t.records.insert id ⟨.queued, dest, now, 0⟩
  destStats := bump t.destStats dest fun s => { s with attempted := s.attempted + 1 }

/-- `mark_sent`. -/
def markSent (t : DeliveryTracker) (id : UInt32) (now : Instant) : DeliveryTracker :=
  { t with records := t.records.modify id fun r => { r with status := .sent now } }

/-- `mark_acknowledged`. -/
def markAcknowledged (t : DeliveryTracker) (id : UInt32) (hops : Option UInt8) (now : Instant) :
    DeliveryTracker :=
  match t.records.lookup id with
  | none => t
  | some record =>
      if record.status.isAcknowledged then t
      else
        let reconcileFailed := record.status.isFailure
        let latencyMs := asMillis (now - record.created)
        { records := t.records.insert id { record with status := .acknowledged now hops }
          destStats := bump t.destStats record.dest fun s =>
            { s with
              failed := if reconcileFailed then s.failed - 1 else s.failed
              acknowledged := s.acknowledged + 1
              latencySumMs := min maxU64 (s.latencySumMs + min latencyMs maxU64) } }

/-- The common part of `mark_failed` and `mark_expired`. -/
def markSettled (t : DeliveryTracker) (id : UInt32) (status : DeliveryStatus) : DeliveryTracker :=
  match t.records.lookup id with
  | none => t
  | some record =>
      { records := t.records.insert id { record with status := status }
        destStats := bump t.destStats record.dest fun s => { s with failed := s.failed + 1 } }

/-- `mark_failed`. -/
def markFailed (t : DeliveryTracker) (id : UInt32) (reason : DeliveryFailure) : DeliveryTracker :=
  t.markSettled id (.failed reason)

/-- `record_retry`. -/
def recordRetry (t : DeliveryTracker) (id : UInt32) : DeliveryTracker :=
  match t.records.lookup id with
  | none => t
  | some record =>
      { records := t.records.insert id { record with retries := record.retries + 1 }
        destStats := bump t.destStats record.dest fun s =>
          { s with totalRetries := s.totalRetries + 1 } }

/-- `prune_completed`. -/
def pruneCompleted (t : DeliveryTracker) (maxAge : Duration) (now : Instant) : DeliveryTracker :=
  { t with records := t.records.retain fun _ r =>
      r.status.isActive || decide (now - r.created < maxAge) }

/-- Is the record still active after `maxAge`? -/
def isStale (maxAge : Duration) (now : Instant) (r : DeliveryRecord) : Bool :=
  r.status.isActive && decide (maxAge ≤ now - r.created)

/-- `expire_stale`: the ids expired, and the tracker after the loop over the records. -/
def expireStale (t : DeliveryTracker) (maxAge : Duration) (now : Instant) :
    List UInt32 × DeliveryTracker :=
  let stale := t.records.retain fun _ r => isStale maxAge now r
  (stale.keys,
    { records := t.records.mapValues fun _ r =>
        if isStale maxAge now r then { r with status := .expired } else r
      destStats := stale.entries.foldl
        (fun stats e => bump stats e.2.dest fun s => { s with failed := s.failed + 1 })
        t.destStats })

/-! ## What each method does to the records -/

section

variable (t : DeliveryTracker) (id m : UInt32)

theorem lookup_track (dest : UInt32) (now : Instant) :
    (t.track id dest now).records.lookup m =
      if m = id then some ⟨.queued, dest, now, 0⟩ else t.records.lookup m :=
  Table.lookup_insert_ite _ _ _ _

theorem lookup_markSent (now : Instant) :
    (t.markSent id now).records.lookup m =
      if m = id then (t.records.lookup id).map fun r => { r with status := .sent now }
      else t.records.lookup m :=
  Table.lookup_modify _ _ _ _

theorem lookup_markAcknowledged (hops : Option UInt8) (now : Instant) :
    (t.markAcknowledged id hops now).records.lookup m =
      if m = id then (t.records.lookup id).map fun r =>
        if r.status.isAcknowledged then r else { r with status := .acknowledged now hops }
      else t.records.lookup m := by
  unfold markAcknowledged
  cases h : t.records.lookup id with
  | none =>
      by_cases hm : m = id
      · subst hm; simp [h]
      · simp [hm]
  | some r =>
      by_cases hack : r.status.isAcknowledged = true
      · by_cases hm : m = id
        · subst hm; simp [h, hack]
        · simp [hm, hack]
      · simp only [if_neg hack, Option.map_some, Table.lookup_insert_ite]

/-- An ACK leaves the record acknowledged, whatever it was before. -/
theorem isAcknowledged_of_markAcknowledged {t : DeliveryTracker} {id : UInt32} {hops : Option UInt8}
    {now : Instant} {r' : DeliveryRecord}
    (h : (t.markAcknowledged id hops now).records.lookup id = some r') :
    r'.status.isAcknowledged := by
  rw [lookup_markAcknowledged, if_pos rfl] at h
  obtain ⟨r, -, rfl⟩ := Option.map_eq_some_iff.mp h
  split
  · assumption
  · rfl

theorem lookup_markSettled (status : DeliveryStatus) :
    (t.markSettled id status).records.lookup m =
      if m = id then (t.records.lookup id).map fun r => { r with status := status }
      else t.records.lookup m := by
  unfold markSettled
  cases h : t.records.lookup id with
  | none =>
      by_cases hm : m = id
      · subst hm; simp [h]
      · simp [hm]
  | some r => simp only [Option.map_some, Table.lookup_insert_ite]

theorem lookup_recordRetry :
    (t.recordRetry id).records.lookup m =
      if m = id then (t.records.lookup id).map fun r => { r with retries := r.retries + 1 }
      else t.records.lookup m := by
  unfold recordRetry
  cases h : t.records.lookup id with
  | none =>
      by_cases hm : m = id
      · subst hm; simp [h]
      · simp [hm]
  | some r => simp only [Option.map_some, Table.lookup_insert_ite]

theorem lookup_pruneCompleted (maxAge : Duration) (now : Instant) :
    (t.pruneCompleted maxAge now).records.lookup m = (t.records.lookup m).filter fun r =>
      r.status.isActive || decide (now - r.created < maxAge) :=
  Table.lookup_retain _ _ _

theorem lookup_expireStale (maxAge : Duration) (now : Instant) :
    (t.expireStale maxAge now).2.records.lookup m = (t.records.lookup m).map fun r =>
      if isStale maxAge now r then { r with status := .expired } else r :=
  Table.lookup_mapValues _ _ _

end

/-! ## Settled records -/

/-- No record appears or disappears, and one that is settled stays settled. -/
structure Updates (t' t : DeliveryTracker) : Prop where
  isSome : ∀ id, (t'.records.lookup id).isSome = (t.records.lookup id).isSome
  settled : ∀ id r r', t.records.lookup id = some r → t'.records.lookup id = some r' →
    r.status.isActive = false → r'.status.isActive = false

namespace Updates

variable {t t' t'' : DeliveryTracker}

theorem refl (t : DeliveryTracker) : Updates t t where
  isSome _ := rfl
  settled _ r r' h h' hr := by
    obtain rfl := Option.some.inj (h.symm.trans h')
    exact hr

theorem trans (h' : Updates t'' t') (h : Updates t' t) : Updates t'' t where
  isSome id := (h'.isSome id).trans (h.isSome id)
  settled id r r'' hr hr'' hsettled := by
    have hsome := h.isSome id
    rw [hr, Option.isSome_some] at hsome
    obtain ⟨r', hr'⟩ := Option.isSome_iff_exists.mp hsome
    exact h'.settled id r' r'' hr' hr'' (h.settled id r r' hr hr' hsettled)

/-- Methods that rewrite records one by one. -/
theorem of_map {f : UInt32 → DeliveryRecord → DeliveryRecord}
    (hmap : ∀ id, t'.records.lookup id = (t.records.lookup id).map (f id))
    (hf : ∀ id r, r.status.isActive = false → (f id r).status.isActive = false) : Updates t' t where
  isSome id := by rw [hmap, Option.isSome_map]
  settled id r r' hr hr' hsettled := by
    rw [hmap, hr] at hr'
    obtain rfl := Option.some.inj hr'
    exact hf id r hsettled

theorem markAcknowledged (t : DeliveryTracker) (id : UInt32) (hops : Option UInt8) (now : Instant) :
    Updates (t.markAcknowledged id hops now) t := by
  refine of_map (f := fun m r => if m = id then
      if r.status.isAcknowledged then r else { r with status := .acknowledged now hops }
    else r) (fun m => ?_) fun m r hr => ?_
  · rw [lookup_markAcknowledged]
    by_cases hm : m = id
    · subst hm
      simp
    · simp [hm]
  · split_ifs
    · exact hr
    · rfl
    · exact hr

theorem markSettled (t : DeliveryTracker) (id : UInt32) {status : DeliveryStatus}
    (hstatus : status.isActive = false) : Updates (t.markSettled id status) t := by
  refine of_map (f := fun m r => if m = id then { r with status := status } else r)
    (fun m => ?_) fun m r hr => ?_
  · rw [lookup_markSettled]
    by_cases hm : m = id
    · subst hm
      simp
    · simp [hm]
  · split
    · exact hstatus
    · exact hr

theorem recordRetry (t : DeliveryTracker) (id : UInt32) : Updates (t.recordRetry id) t := by
  refine of_map (f := fun m r => if m = id then { r with retries := r.retries + 1 } else r)
    (fun m => ?_) fun m r hr => ?_
  · rw [lookup_recordRetry]
    by_cases hm : m = id
    · subst hm
      simp
    · simp [hm]
  · split <;> exact hr

theorem expireStale (t : DeliveryTracker) (maxAge : Duration) (now : Instant) :
    Updates (t.expireStale maxAge now).2 t := by
  refine of_map (fun m => lookup_expireStale t m maxAge now) fun _ r hr => ?_
  split
  · rfl
  · exact hr

end Updates

/-! ## Accounting -/

/-- The number of a destination's active records. -/
def active (t : DeliveryTracker) (dest : UInt32) : Nat :=
  t.records.count fun _ r => r.dest == dest && r.status.isActive

/-- The number of a destination's records that failed or expired. -/
def failures (t : DeliveryTracker) (dest : UInt32) : Nat :=
  t.records.count fun _ r => r.dest == dest && r.status.isFailure

/-- The counters agree with the records, up to those counted again. -/
structure Accounted (t : DeliveryTracker) (recounts : List UInt32) : Prop where
  attempted : ∀ dest, (t.statsFor dest).attempted + recounts.count dest =
    (t.statsFor dest).acknowledged + (t.statsFor dest).failed + t.active dest
  failures : ∀ dest, t.failures dest ≤ (t.statsFor dest).failed

/-- The destination of a record that is settled. -/
def settledDest (t : DeliveryTracker) (id : UInt32) : List UInt32 :=
  match t.records.lookup id with
  | none => []
  | some r => if r.status.isActive then [] else [r.dest]

theorem settledDest_of_none {t : DeliveryTracker} {id : UInt32} (h : t.records.lookup id = none) :
    t.settledDest id = [] := by
  rw [settledDest, h]

theorem settledDest_of_some {t : DeliveryTracker} {id : UInt32} {r : DeliveryRecord}
    (h : t.records.lookup id = some r) :
    t.settledDest id = List.replicate (if r.status.isActive then 0 else 1) r.dest := by
  simp only [settledDest, h]
  cases r.status.isActive <;> rfl

theorem getD_lookup_bump (stats : Table UInt32 DestStats) (dest m : UInt32)
    (f : DestStats → DestStats) :
    ((bump stats dest f).lookup m).getD {} =
      if m = dest then f ((stats.lookup dest).getD {}) else (stats.lookup m).getD {} := by
  rw [bump, Table.lookup_insert_ite]
  split <;> rfl

theorem accounted_empty : Accounted {} [] := ⟨fun _ => rfl, fun _ => Nat.le_refl 0⟩

namespace Accounted

variable {t : DeliveryTracker} {recounts : List UInt32} {id : UInt32}

theorem perm (h : Accounted t recounts) {recounts' : List UInt32}
    (hperm : recounts'.Perm recounts) :
    Accounted t recounts' :=
  ⟨fun dest => by rw [hperm.count_eq]; exact h.attempted dest, h.failures⟩

/-- The update of a destination's counters balances the change of a record's status, up to
`extra` units; `n` and `m` count the other records, and `k` what was counted again. -/
def Balances (f : DestStats → DestStats) (extra : Nat) (r r' : DeliveryRecord) : Prop :=
  ∀ (s : DestStats) (k n m : Nat),
    s.attempted + k = s.acknowledged + s.failed + (n + if r.status.isActive then 1 else 0) →
    m + (if r.status.isFailure then 1 else 0) ≤ s.failed →
    (f s).attempted + (extra + k) =
        (f s).acknowledged + (f s).failed + (n + if r'.status.isActive then 1 else 0) ∧
      m + (if r'.status.isFailure then 1 else 0) ≤ (f s).failed

/-- Replacing a record keeps the accounts if the update of its destination's counters
balances the change of status. -/
theorem replace (h : Accounted t recounts) {r : DeliveryRecord} (hr : t.records.lookup id = some r)
    (r' : DeliveryRecord) (hdest : r'.dest = r.dest) {stats : Table UInt32 DestStats}
    {f : DestStats → DestStats} (extra : Nat)
    (hstats : ∀ m, (stats.lookup m).getD {} =
      if m = r.dest then f (t.statsFor r.dest) else t.statsFor m)
    (hf : Balances f extra r r') :
    Accounted ⟨t.records.insert id r', stats⟩ (List.replicate extra r.dest ++ recounts) := by
  have hboth : ∀ dest,
      let t' : DeliveryTracker := ⟨t.records.insert id r', stats⟩
      (t'.statsFor dest).attempted + (List.replicate extra r.dest ++ recounts).count dest =
          (t'.statsFor dest).acknowledged + (t'.statsFor dest).failed + t'.active dest ∧
        t'.failures dest ≤ (t'.statsFor dest).failed := by
    intro dest
    have hactive := h.attempted dest
    have hfailures := h.failures dest
    rw [active, ← Table.count_erase_add hr] at hactive
    rw [DeliveryTracker.failures, ← Table.count_erase_add hr] at hfailures
    have hstat : (⟨t.records.insert id r', stats⟩ : DeliveryTracker).statsFor dest =
        if dest = r.dest then f (t.statsFor r.dest) else t.statsFor dest := hstats dest
    simp only [hstat, active, DeliveryTracker.failures, Table.count_insert, hdest,
      List.count_append, List.count_replicate]
    by_cases hd : dest = r.dest
    · subst hd
      simp only [beq_self_eq_true, Bool.true_and] at hactive hfailures
      simp only [beq_self_eq_true, Bool.true_and, if_true]
      exact hf _ _ _ _ hactive hfailures
    · have hne : (r.dest == dest) = false := beq_false_of_ne (Ne.symm hd)
      simp only [hne, Bool.false_and, Bool.false_eq_true, if_false] at hactive hfailures
      simp only [hne, Bool.false_and, Bool.false_eq_true, if_false, if_neg hd, Nat.zero_add]
      exact ⟨hactive, hfailures⟩
  exact ⟨fun dest => (hboth dest).1, fun dest => (hboth dest).2⟩

/-- As `replace`, with the counters updated in place. -/
theorem update (h : Accounted t recounts) {r : DeliveryRecord} (hr : t.records.lookup id = some r)
    (r' : DeliveryRecord) (hdest : r'.dest = r.dest) {f : DestStats → DestStats} (extra : Nat)
    (hf : Balances f extra r r') :
    Accounted ⟨t.records.insert id r', bump t.destStats r.dest f⟩
      (List.replicate extra r.dest ++ recounts) :=
  h.replace hr r' hdest extra (fun m => getD_lookup_bump t.destStats r.dest m f) hf

theorem track (h : Accounted t recounts) (hnew : t.records.lookup id = none) (dest : UInt32)
    (now : Instant) : Accounted (t.track id dest now) recounts := by
  have hactive : ∀ m, (t.track id dest now).active m = t.active m + if dest = m then 1 else 0 := by
    intro m
    rw [active, active, DeliveryTracker.track, Table.count_insert_of_none hnew]
    simp [DeliveryStatus.isActive]
  have hfailures : ∀ m, (t.track id dest now).failures m = t.failures m := by
    intro m
    rw [DeliveryTracker.failures, DeliveryTracker.failures, DeliveryTracker.track,
      Table.count_insert_of_none hnew]
    simp [DeliveryStatus.isFailure]
  have hstats : ∀ m, (t.track id dest now).statsFor m =
      if m = dest then { t.statsFor dest with attempted := (t.statsFor dest).attempted + 1 }
      else t.statsFor m := fun m => getD_lookup_bump _ _ _ _
  constructor
  · intro m
    have hm := h.attempted m
    rw [hactive, hstats]
    by_cases hd : m = dest
    · subst hd; simp only [if_true]; omega
    · simp only [if_neg hd, if_neg (Ne.symm hd)]; omega
  · intro m
    have hm := h.failures m
    rw [hfailures, hstats]
    split
    · next heq => subst heq; exact hm
    · exact hm

/-- Marking a settled record as sent revives it, although it stays counted. -/
theorem markSent (h : Accounted t recounts) (id : UInt32) (now : Instant) :
    Accounted (t.markSent id now) (t.settledDest id ++ recounts) := by
  unfold DeliveryTracker.markSent
  cases hr : t.records.lookup id with
  | none => rwa [Table.modify_of_none hr, settledDest_of_none hr]
  | some r =>
      rw [Table.modify_of_some hr, settledDest_of_some hr]
      refine h.replace (f := fun s => s) hr { r with status := .sent now } rfl _ (fun m => ?_)
        fun s k n m hs hm => ?_
      · split
        · next heq => subst heq; rfl
        · rfl
      · cases hstatus : r.status <;>
          simp_all [DeliveryStatus.isActive, DeliveryStatus.isFailure] <;> omega

theorem markAcknowledged (h : Accounted t recounts) (hops : Option UInt8) (now : Instant) :
    Accounted (t.markAcknowledged id hops now) recounts := by
  unfold DeliveryTracker.markAcknowledged
  cases hr : t.records.lookup id with
  | none => exact h
  | some r =>
      by_cases hack : r.status.isAcknowledged = true
      · simp only [if_pos hack]; exact h
      · simp only [if_neg hack]
        refine h.update hr { r with status := .acknowledged now hops } rfl 0 fun s k n m hs hm => ?_
        cases hstatus : r.status <;>
          simp_all [DeliveryStatus.isActive, DeliveryStatus.isFailure,
            DeliveryStatus.isAcknowledged] <;> omega

/-- Failing a settled record counts it again. -/
theorem markSettled (h : Accounted t recounts) (id : UInt32) {status : DeliveryStatus}
    (hstatus : status.isFailure) :
    Accounted (t.markSettled id status) (t.settledDest id ++ recounts) := by
  have hinactive : status.isActive = false := by
    cases status <;> simp_all [DeliveryStatus.isActive, DeliveryStatus.isFailure]
  unfold DeliveryTracker.markSettled
  cases hr : t.records.lookup id with
  | none => rwa [settledDest_of_none hr]
  | some r =>
      rw [settledDest_of_some hr]
      refine h.update hr { r with status := status } rfl _ fun s k n m hs hm => ?_
      simp only [hstatus, hinactive, if_true, Bool.false_eq_true, if_false]
      cases hr : r.status <;>
        simp_all [DeliveryStatus.isActive, DeliveryStatus.isFailure] <;> omega

theorem recordRetry (h : Accounted t recounts) : Accounted (t.recordRetry id) recounts := by
  unfold DeliveryTracker.recordRetry
  cases hr : t.records.lookup id with
  | none => exact h
  | some r =>
      refine h.update hr { r with retries := r.retries + 1 } rfl 0 fun s k n m hs hm => ?_
      rw [Nat.zero_add]
      exact ⟨hs, hm⟩

theorem pruneCompleted (h : Accounted t recounts) (maxAge : Duration) (now : Instant) :
    Accounted (t.pruneCompleted maxAge now) recounts := by
  constructor
  · intro dest
    have hactive : (t.pruneCompleted maxAge now).active dest = t.active dest := by
      rw [active, active, DeliveryTracker.pruneCompleted, Table.count_retain]
      congr 1
      funext _ r
      cases r.status.isActive <;> simp
    rw [hactive]
    exact h.attempted dest
  · intro dest
    refine Nat.le_trans ?_ (h.failures dest)
    rw [DeliveryTracker.failures, DeliveryTracker.failures, DeliveryTracker.pruneCompleted,
      Table.count_retain]
    exact List.countP_mono_left fun e _ he => (Bool.and_eq_true_iff.mp he).1

/-- The loop of `expire_stale` counts one failure for each entry. -/
theorem getD_lookup_foldl_bump (entries : List (Σ _ : UInt32, DeliveryRecord))
    (stats : Table UInt32 DestStats) (m : UInt32) :
    ((entries.foldl (fun stats e => bump stats e.2.dest fun s => { s with failed := s.failed + 1 })
        stats).lookup m).getD {} =
      { (stats.lookup m).getD {} with
        failed := ((stats.lookup m).getD {}).failed + entries.countP fun e => e.2.dest == m } := by
  induction entries generalizing stats with
  | nil => rfl
  | cons e entries ih =>
      rw [List.foldl_cons, ih, getD_lookup_bump, List.countP_cons]
      by_cases hm : m = e.2.dest
      · subst hm
        simp only [if_true, beq_self_eq_true, DestStats.mk.injEq, and_true, true_and]
        omega
      · simp only [if_neg hm, beq_false_of_ne (Ne.symm hm), Bool.false_eq_true, if_false,
          Nat.add_zero]

theorem expireStale (h : Accounted t recounts) (maxAge : Duration) (now : Instant) :
    Accounted (t.expireStale maxAge now).2 recounts := by
  set stale : UInt32 → Nat := fun dest =>
    t.records.count fun _ r => r.dest == dest && isStale maxAge now r with hstale
  have hstats : ∀ dest, (t.expireStale maxAge now).2.statsFor dest =
      { t.statsFor dest with failed := (t.statsFor dest).failed + stale dest } := by
    intro dest
    have hcount := Table.count_retain t.records (fun _ r => isStale maxAge now r)
      fun _ r => r.dest == dest
    rw [hstale]
    simp only [← hcount]
    exact getD_lookup_foldl_bump _ _ _
  have hactive : ∀ dest, (t.expireStale maxAge now).2.active dest + stale dest = t.active dest := by
    intro dest
    rw [active, DeliveryTracker.expireStale, Table.count_mapValues]
    refine Table.count_add _ fun _ r => ?_
    unfold isStale
    grind [DeliveryStatus.isActive]
  have hfailures : ∀ dest,
      t.failures dest + stale dest = (t.expireStale maxAge now).2.failures dest := by
    intro dest
    simp only [DeliveryTracker.failures, DeliveryTracker.expireStale, Table.count_mapValues]
    refine Table.count_add _ fun _ r => ?_
    unfold isStale
    cases hs : r.status <;> grind [DeliveryStatus.isActive, DeliveryStatus.isFailure]
  constructor
  · intro dest
    have := h.attempted dest
    have := hactive dest
    simp only [hstats]
    omega
  · intro dest
    have := h.failures dest
    rw [hstats, ← hfailures]
    simp only
    omega

end Accounted

end DeliveryTracker

end Akroasis.Mesh
