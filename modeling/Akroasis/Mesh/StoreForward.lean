import Akroasis.Mesh.Outbound

/-!
# Akroasis.Mesh.StoreForward

Store-and-forward for nodes that are offline (`store_forward.rs`): one bounded queue per
destination, in which a message of higher priority displaces one of the lowest.

As for the outbound queue, each operation is described by what it does to `ids`.  A store
that was only ever filled by `store` is `Bounded`: no queue is longer than its limit (a
limit of zero still lets one message of positive priority in).
-/

namespace Akroasis.Mesh

/-- `MAX_DESTINATIONS`. -/
def maxDestinations : Nat := 256

/-- A message stored for later delivery to an offline node. -/
structure StoredMessage where
  packetBytes : Bytes
  packetId : UInt32
  dest : UInt32
  portnum : Int
  priority : Int
  storedAtMs : Nat
  ttlSecs : Nat
  deliveryAttempts : UInt8
  deriving DecidableEq

/-- The wall-clock time at which a message expires, in saturating `u64` arithmetic. -/
def StoredMessage.expiresAtMs (m : StoredMessage) : Nat :=
  min maxU64 (m.storedAtMs + min maxU64 (m.ttlSecs * 1000))

/-- Has the message's TTL passed? -/
def StoredMessage.isExpired (nowMs : Nat) (m : StoredMessage) : Bool :=
  !decide (nowMs < m.expiresAtMs)

/-- Server-side message queuing for offline nodes. -/
structure StoreForward where
  queues : Table UInt32 (List StoredMessage) := ∅
  maxQueuePerDest : Nat

namespace StoreForward

/-- The queue of a destination, empty if there is none. -/
def queue (s : StoreForward) (dest : UInt32) : List StoredMessage := (s.queues.lookup dest).getD []

/-- The lowest priority in a queue. -/
def minPriority (queue : List StoredMessage) : Int :=
  ((queue.map StoredMessage.priority).min?).getD 0

/-- Is there no room for another destination? -/
def noDestination (s : StoreForward) (dest : UInt32) : Bool :=
  (s.queues.lookup dest).isNone && decide (maxDestinations ≤ s.queues.size)

/-- The store with one queue replaced. -/
def withQueue (s : StoreForward) (dest : UInt32) (queue : List StoredMessage) : StoreForward :=
  { s with queues := s.queues.insert dest queue }

/-- The queue without its first message of the lowest priority. -/
def displace (queue : List StoredMessage) : List StoredMessage :=
  queue.eraseP fun m => m.priority = minPriority queue

/-- `store`.  The queue of a new destination is created before its limit is checked. -/
def store (s : StoreForward) (dest : UInt32) (msg : StoredMessage) :
    Except Error Unit × StoreForward :=
  if s.noDestination dest then (.error (.queueFull dest), s)
  else if s.maxQueuePerDest ≤ (s.queue dest).length then
    if minPriority (s.queue dest) < msg.priority then
      (.ok (), s.withQueue dest (displace (s.queue dest) ++ [msg]))
    else (.error (.queueFull dest), s.withQueue dest (s.queue dest))
  else (.ok (), s.withQueue dest (s.queue dest ++ [msg]))

/-- `drain_for`. -/
def drainFor (s : StoreForward) (dest : UInt32) : List StoredMessage × StoreForward :=
  (s.queue dest, { s with queues := s.queues.erase dest })

/-- `prune_expired`. -/
def pruneExpired (s : StoreForward) (nowMs : Nat) : StoreForward :=
  { s with
    queues := (s.queues.mapValues fun _ q => q.filter fun m => !m.isExpired nowMs).retain
      fun _ q => !q.isEmpty }

/-! ## The ids a store holds -/

/-- The packet ids of a list of stored messages. -/
def idsOf (queue : List StoredMessage) : List UInt32 := queue.map StoredMessage.packetId

/-- All packet ids in the store. -/
def ids (s : StoreForward) : Multiset UInt32 := s.queues.gather idsOf

/-- What `store` displaces. -/
def evicted (s : StoreForward) (dest : UInt32) (msg : StoredMessage) : List UInt32 :=
  if s.noDestination dest ∨ (s.queue dest).length < s.maxQueuePerDest ∨
      msg.priority ≤ minPriority (s.queue dest) then []
  else idsOf ((s.queue dest).find? fun m => m.priority = minPriority (s.queue dest)).toList

/-- What `prune_expired` drops. -/
def expiredIds (s : StoreForward) (nowMs : Nat) : List UInt32 :=
  s.queues.entries.flatMap fun e => idsOf (e.2.filter fun m => m.isExpired nowMs)

variable {s : StoreForward} {dest : UInt32} {q : List StoredMessage}

/-- The other queues and this one. -/
theorem gather_erase_queue {A : Type*} (s : StoreForward) (dest : UInt32)
    (f : List StoredMessage → List A) (hf : f [] = []) :
    Table.gather (s.queues.erase dest) f + (f (s.queue dest) : Multiset A) = s.queues.gather f := by
  unfold queue
  cases h : s.queues.lookup dest with
  | none => rw [Table.erase_of_none h, Option.getD_none, hf]; exact add_zero _
  | some q => exact Table.gather_erase_add h f

theorem ids_withQueue (s : StoreForward) (dest : UInt32) (q : List StoredMessage) :
    (s.withQueue dest q).ids + (idsOf (s.queue dest) : Multiset UInt32) =
      s.ids + (idsOf q : Multiset UInt32) := by
  rw [ids, ids, withQueue, Table.gather_insert, ← gather_erase_queue s dest idsOf rfl]
  abel

theorem idsOf_append (q r : List StoredMessage) :
    (idsOf (q ++ r) : Multiset UInt32) =
      (idsOf q : Multiset UInt32) + (idsOf r : Multiset UInt32) := by
  rw [idsOf, List.map_append, ← Multiset.coe_add]
  rfl

/-- Removing the first message that satisfies `p` takes its id out. -/
theorem idsOf_eraseP (q : List StoredMessage) (p : StoredMessage → Bool) :
    (idsOf (q.eraseP p) : Multiset UInt32) + (idsOf (q.find? p).toList : Multiset UInt32) =
      (idsOf q : Multiset UInt32) := by
  induction q with
  | nil => rfl
  | cons m q ih =>
      cases hp : p m with
      | true =>
          rw [List.eraseP_cons_of_pos hp, List.find?_cons_of_pos hp, Multiset.add_comm]
          rfl
      | false =>
          rw [List.eraseP_cons_of_neg (by simp [hp]), List.find?_cons_of_neg (by simp [hp])]
          simp only [idsOf, List.map_cons, ← Multiset.cons_coe] at ih ⊢
          rw [Multiset.cons_add, ih]

/-- `store` takes the message in if it says so, and lets go of what it displaces. -/
theorem ids_store (s : StoreForward) (dest : UInt32) (msg : StoredMessage) :
    (s.store dest msg).2.ids + (s.evicted dest msg : Multiset UInt32) =
      s.ids + if (s.store dest msg).1.isOk then {msg.packetId} else 0 := by
  unfold store evicted
  by_cases hdest : s.noDestination dest = true
  · simp [hdest, Except.isOk, Except.toBool]
  · simp only [hdest, if_false, false_or, Bool.false_eq_true]
    by_cases hroom : s.maxQueuePerDest ≤ (s.queue dest).length
    · simp only [if_pos hroom, not_lt.mpr hroom, false_or]
      by_cases hprio : minPriority (s.queue dest) < msg.priority
      · simp only [if_pos hprio, if_neg (not_le.mpr hprio), Except.isOk, Except.toBool, if_true]
        have hset := ids_withQueue s dest (displace (s.queue dest) ++ [msg])
        rw [idsOf_append] at hset
        have herase := idsOf_eraseP (s.queue dest) fun m => m.priority = minPriority (s.queue dest)
        rw [← herase] at hset
        refine add_right_cancel (b := (idsOf (displace (s.queue dest)) : Multiset UInt32)) ?_
        rw [add_assoc, add_comm (idsOf _ : Multiset UInt32)]
        refine hset.trans ?_
        rw [show (idsOf [msg] : Multiset UInt32) = {msg.packetId} from rfl]
        abel
      · simp only [if_neg hprio, if_pos (not_lt.mp hprio), Except.isOk, Except.toBool,
          Bool.false_eq_true, if_false]
        simpa using add_right_cancel (ids_withQueue s dest (s.queue dest))
    · simp only [if_neg hroom, not_le.mp hroom, true_or, if_true, Except.isOk, Except.toBool]
      have hset := ids_withQueue s dest (s.queue dest ++ [msg])
      rw [idsOf_append, ← add_assoc, add_right_comm] at hset
      simpa [idsOf] using add_right_cancel hset

theorem ids_drainFor (s : StoreForward) (dest : UInt32) :
    (s.drainFor dest).2.ids + (idsOf (s.drainFor dest).1 : Multiset UInt32) = s.ids :=
  gather_erase_queue s dest idsOf rfl

theorem ids_pruneExpired (s : StoreForward) (nowMs : Nat) :
    (s.pruneExpired nowMs).ids + (s.expiredIds nowMs : Multiset UInt32) = s.ids := by
  have hkept : (s.pruneExpired nowMs).ids =
      s.queues.gather fun q => idsOf (q.filter fun m => !m.isExpired nowMs) := by
    rw [ids, pruneExpired, Table.gather_retain _ _ _ fun _ q hq => ?_, Table.gather_mapValues]
    simpa [idsOf] using hq
  have hdropped : (s.expiredIds nowMs : Multiset UInt32) =
      s.queues.gather fun q => idsOf (q.filter fun m => m.isExpired nowMs) := rfl
  rw [hkept, hdropped, add_comm]
  refine Table.gather_add _ fun q => ?_
  rw [idsOf, idsOf, Multiset.coe_add, ← List.map_append]
  exact Multiset.coe_eq_coe.mpr ((List.filter_append_perm _ q).map _)

/-! ## Queues and their limits -/

theorem queue_withQueue (s : StoreForward) (dest m : UInt32) (q : List StoredMessage) :
    (s.withQueue dest q).queue m = if m = dest then q else s.queue m := by
  rw [queue, withQueue, Table.lookup_insert_ite]
  split <;> rfl

theorem queue_drainFor (s : StoreForward) (dest m : UInt32) :
    (s.drainFor dest).2.queue m = if m = dest then [] else s.queue m := by
  rw [queue, drainFor, Table.lookup_erase_ite]
  split <;> rfl

theorem queue_pruneExpired (s : StoreForward) (nowMs : Nat) (dest : UInt32) :
    (s.pruneExpired nowMs).queue dest = (s.queue dest).filter fun m => !m.isExpired nowMs := by
  rw [queue, queue, pruneExpired, Table.lookup_retain, Table.lookup_mapValues]
  cases s.queues.lookup dest with
  | none => rfl
  | some q =>
      simp only [Option.map_some, Option.getD_some, Option.filter_some]
      split
      · rfl
      · next hempty => simpa using hempty

/-- What a queue holds after `store` was there before or is the new message. -/
theorem mem_queue_store {s : StoreForward} {dest m : UInt32} {msg x : StoredMessage}
    (h : x ∈ (s.store dest msg).2.queue m) : x ∈ s.queue m ∨ m = dest ∧ x = msg := by
  unfold store at h
  split at h
  · exact .inl h
  · split at h
    · split at h
      all_goals
        simp only [queue_withQueue] at h
        split at h
      · next heq =>
        rcases List.mem_append.mp h with h | h
        · exact .inl (heq ▸ List.mem_of_mem_eraseP h)
        · exact .inr ⟨heq, List.mem_singleton.mp h⟩
      · exact .inl h
      · next heq => exact .inl (heq ▸ h)
      · exact .inl h
    · simp only [queue_withQueue] at h
      split at h
      · next heq =>
        rcases List.mem_append.mp h with h | h
        · exact .inl (heq ▸ h)
        · exact .inr ⟨heq, List.mem_singleton.mp h⟩
      · exact .inl h

/-- The limits a store keeps. -/
structure Bounded (s : StoreForward) : Prop where
  destinations : s.queues.size ≤ maxDestinations
  length : ∀ dest, (s.queue dest).length ≤ max s.maxQueuePerDest 1
  positive : s.maxQueuePerDest = 0 → ∀ dest, ∀ m ∈ s.queue dest, 0 < m.priority

theorem minPriority_mem (h : q ≠ []) :
    ∃ m ∈ q, m.priority = minPriority q := by
  cases hmin : (q.map StoredMessage.priority).min? with
  | none => simp [List.min?_eq_none_iff] at hmin; contradiction
  | some p =>
      obtain ⟨m, hm, rfl⟩ := List.mem_map.mp (List.min?_mem hmin)
      exact ⟨m, hm, by rw [minPriority, hmin]; rfl⟩

theorem length_displace (h : q ≠ []) :
    (displace q).length + 1 = q.length := by
  obtain ⟨m, hm, heq⟩ := minPriority_mem h
  have hlen := List.length_eraseP_of_mem (p := fun m => decide (m.priority = minPriority q)) hm
    (by simpa using heq)
  have hpos := List.length_pos_of_mem hm
  rw [displace, hlen]
  omega

/-- A queue within the limit may be set where there is room for its destination. -/
theorem Bounded.withQueue (h : Bounded s) {dest : UInt32} (hdest : ¬ s.noDestination dest = true)
    (hlen : q.length ≤ max s.maxQueuePerDest 1)
    (hpos : s.maxQueuePerDest = 0 → ∀ m ∈ q, 0 < m.priority) : Bounded (s.withQueue dest q) := by
  refine ⟨?_, fun m => ?_, fun h0 m x hx => ?_⟩
  · change Table.size (s.queues.insert dest q) ≤ _
    rw [Table.size_insert]
    cases hl : s.queues.lookup dest with
    | none =>
        rw [Table.erase_of_none hl]
        simp [noDestination, hl] at hdest
        omega
    | some q' => rw [Table.size_erase_add hl]; exact h.destinations
  · rw [queue_withQueue]
    split
    · exact hlen
    · exact h.length m
  · rw [queue_withQueue] at hx
    split at hx
    · exact hpos h0 x hx
    · exact h.positive h0 m x hx

theorem Bounded.store (h : Bounded s) (dest : UInt32) (msg : StoredMessage) :
    Bounded (s.store dest msg).2 := by
  unfold StoreForward.store
  by_cases hdest : s.noDestination dest = true
  · simpa only [if_pos hdest] using h
  · have hlen := h.length dest
    simp only [if_neg hdest]
    split
    · next hfull =>
      split
      · next hprio =>
        refine h.withQueue hdest ?_ fun h0 m hm => ?_
        · rw [List.length_append, List.length_singleton]
          by_cases hq : s.queue dest = []
          · rw [hq]; simp [displace]
          · rw [length_displace hq]; exact hlen
        · rcases List.mem_append.mp hm with hm | hm
          · exact h.positive h0 dest m (List.mem_of_mem_eraseP hm)
          · obtain rfl := List.mem_singleton.mp hm
            refine lt_of_le_of_lt ?_ hprio
            by_cases hq : s.queue dest = []
            · rw [hq]; decide
            · obtain ⟨x, hx, heq⟩ := minPriority_mem hq
              exact heq ▸ (h.positive h0 dest x hx).le
      · exact h.withQueue hdest hlen fun h0 => h.positive h0 dest
    · next hroom =>
      refine h.withQueue hdest ?_ fun h0 => absurd hroom (by omega)
      rw [List.length_append, List.length_singleton]
      omega

theorem Bounded.drainFor (h : Bounded s) (dest : UInt32) : Bounded (s.drainFor dest).2 := by
  refine ⟨(Table.size_erase_le _ _).trans h.destinations, fun m => ?_, fun h0 m x hx => ?_⟩
  · rw [queue_drainFor]
    split
    · simp
    · exact h.length m
  · rw [queue_drainFor] at hx
    split at hx
    · exact absurd hx List.not_mem_nil
    · exact h.positive h0 m x hx

theorem Bounded.pruneExpired (h : Bounded s) (nowMs : Nat) : Bounded (s.pruneExpired nowMs) := by
  refine ⟨?_, fun m => ?_, fun h0 m x hx => ?_⟩
  · refine (Table.size_retain_le _ _).trans ?_
    rw [Table.size_mapValues]
    exact h.destinations
  · rw [queue_pruneExpired]
    exact (List.length_filter_le _ _).trans (h.length m)
  · rw [queue_pruneExpired] at hx
    exact h.positive h0 m x (List.mem_of_mem_filter hx)

/-! ## Putting messages back -/

/-- The loop that stores deferred messages again. -/
def restore (s : StoreForward) (dest : UInt32) (deferred : List StoredMessage) : StoreForward :=
  deferred.foldl (fun s msg => (s.store dest msg).2) s

theorem Bounded.restore (h : Bounded s) (dest : UInt32) (deferred : List StoredMessage) :
    Bounded (s.restore dest deferred) := by
  induction deferred generalizing s with
  | nil => exact h
  | cons msg rest ih => exact ih (h.store dest msg)

theorem mem_queue_restore {s : StoreForward} {dest m : UInt32} {deferred : List StoredMessage}
    {x : StoredMessage} (h : x ∈ (s.restore dest deferred).queue m) :
    x ∈ s.queue m ∨ m = dest ∧ x ∈ deferred := by
  induction deferred generalizing s with
  | nil => exact .inl h
  | cons msg rest ih =>
      rcases ih h with hx | ⟨rfl, hx⟩
      · rcases mem_queue_store hx with hx | ⟨rfl, rfl⟩
        · exact .inl hx
        · exact .inr ⟨rfl, List.mem_cons_self⟩
      · exact .inr ⟨rfl, List.mem_cons_of_mem _ hx⟩

/-- A destination whose queue was taken away can be given one again. -/
theorem Bounded.noDestination_drainFor (h : Bounded s) (hne : s.queue dest ≠ []) :
    (s.drainFor dest).2.noDestination dest = false := by
  cases hl : s.queues.lookup dest with
  | none => exact absurd (by rw [queue, hl]; rfl) hne
  | some q =>
      have hsize := Table.size_erase_add hl
      have hmax := h.destinations
      have hlt : ¬ maxDestinations ≤ Table.size (s.queues.erase dest) := by omega
      simp [StoreForward.noDestination, StoreForward.drainFor, hlt]

/-- `store` touches one queue. -/
theorem queue_store_ne (s : StoreForward) (msg : StoredMessage) {m : UInt32} (h : m ≠ dest) :
    (s.store dest msg).2.queue m = s.queue m := by
  unfold store
  split
  · rfl
  · split
    · split <;> rw [queue_withQueue, if_neg h]
    · rw [queue_withQueue, if_neg h]

theorem queue_restore_ne (s : StoreForward) (deferred : List StoredMessage) {m : UInt32}
    (h : m ≠ dest) :
    (s.restore dest deferred).queue m = s.queue m := by
  induction deferred generalizing s with
  | nil => rfl
  | cons msg rest ih => exact (ih (s.store dest msg).2).trans (queue_store_ne s msg h)

/-- A message for which there is room is appended and displaces nothing. -/
theorem store_of_room (msg : StoredMessage) (hdest : s.noDestination dest = false)
    (hlen : (s.queue dest).length < max s.maxQueuePerDest 1)
    (hpos : s.maxQueuePerDest = 0 → 0 < msg.priority) :
    s.store dest msg = (.ok (), s.withQueue dest (s.queue dest ++ [msg])) ∧
      s.evicted dest msg = [] := by
  by_cases hroom : s.maxQueuePerDest ≤ (s.queue dest).length
  · -- only a limit of zero leaves room beyond itself
    have h0 : s.maxQueuePerDest = 0 := by omega
    have hq : s.queue dest = [] := List.eq_nil_of_length_eq_zero (by omega)
    have hprio : minPriority (s.queue dest) < msg.priority := by rw [hq]; exact hpos h0
    refine ⟨?_, ?_⟩
    · rw [store, hdest, if_neg Bool.false_ne_true, if_pos hroom, if_pos hprio, hq]
      rfl
    · rw [evicted]
      split
      · rfl
      · rw [hq]; rfl
  · refine ⟨?_, ?_⟩
    · rw [store, hdest, if_neg Bool.false_ne_true, if_neg hroom]
    · rw [evicted, if_pos (.inr (.inl (Nat.lt_of_not_le hroom)))]

/-- Deferred messages that fit are all stored again, in order. -/
theorem queue_restore {deferred : List StoredMessage} (hdest : s.noDestination dest = false)
    (hlen : (s.queue dest).length + deferred.length ≤ max s.maxQueuePerDest 1)
    (hpos : s.maxQueuePerDest = 0 → ∀ m ∈ deferred, 0 < m.priority) :
    (s.restore dest deferred).queue dest = s.queue dest ++ deferred ∧
      (s.restore dest deferred).ids = s.ids + (idsOf deferred : Multiset UInt32) := by
  induction deferred generalizing s with
  | nil => exact ⟨by simp [restore], (add_zero _).symm⟩
  | cons msg rest ih =>
      rw [List.length_cons] at hlen
      obtain ⟨hstore, hevicted⟩ := store_of_room msg hdest (by omega)
        fun h0 => hpos h0 msg List.mem_cons_self
      have hids := ids_store s dest msg
      rw [hevicted, hstore] at hids
      have hnext : (s.withQueue dest (s.queue dest ++ [msg])).noDestination dest = false := by
        simp [noDestination, withQueue]
      have hqueue : (s.withQueue dest (s.queue dest ++ [msg])).queue dest =
          s.queue dest ++ [msg] := by
        rw [queue_withQueue, if_pos rfl]
      have hfits : ((s.withQueue dest (s.queue dest ++ [msg])).queue dest).length + rest.length ≤
          max s.maxQueuePerDest 1 := by
        rw [hqueue, List.length_append, List.length_singleton]
        omega
      obtain ⟨hq, hi⟩ := ih hnext hfits fun h0 m hm => hpos h0 m (List.mem_cons_of_mem _ hm)
      have hcons : s.restore dest (msg :: rest) =
          (s.withQueue dest (s.queue dest ++ [msg])).restore dest rest := by
        rw [restore, List.foldl_cons, hstore]
        rfl
      rw [hcons, hq, hi, hqueue]
      refine ⟨by simp, ?_⟩
      have hhead : (s.withQueue dest (s.queue dest ++ [msg])).ids = s.ids + {msg.packetId} := by
        simpa [Except.isOk, Except.toBool] using hids
      rw [hhead, add_assoc]
      rfl

end StoreForward

end Akroasis.Mesh
