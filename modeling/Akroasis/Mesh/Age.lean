import Akroasis.Mesh.Collector

/-!
# Akroasis.Mesh.Age

How old node records are (`elapsed_since_heard` of `node_db.rs`), and what is made of their ages
(`classify_node_state` and `run_stale_detection` of `discovery.rs`).

The age is a signed difference of milliseconds that is cast to an unsigned number, so it is
one only if the record was not heard in the future (`Clock.elapsedSinceHeard_eq`).  Every packet
is heard at a reading of the clock.  A `NodeInfo` message is not: it says itself when its node
was last heard, and the handshake, the collector and the processor take its word for it.  So
ages are ages in runs whose `NodeInfo` messages report nothing from the future
(`Collector.run_aged`).
-/

namespace Akroasis.Mesh

variable {J : Timestamps}

/-! ## Durations

A duration is a number of nanoseconds. -/

/-- `Duration::from_millis`. -/
def fromMillis (millis : Nat) : Nat := millis * 1000000

/-- `a.saturating_sub(b)` of `i64`. -/
def i64SaturatingSub (a b : ℤ) : ℤ :=
  if a - b < -2 ^ 63 then -2 ^ 63 else if 2 ^ 63 ≤ a - b then 2 ^ 63 - 1 else a - b

/-- `x as u64` of an `i64`. -/
def i64AsU64 (x : ℤ) : Nat := (x % 2 ^ 64).toNat

/-- `elapsed_since_heard`. -/
def MeshNode.elapsedSinceHeard (node : MeshNode J) (now : J.Timestamp) : Option Nat :=
  node.lastHeard.map fun lastHeard =>
    fromMillis (i64AsU64 (i64SaturatingSub (J.asMillisecond now) (J.asMillisecond lastHeard)))

/-! ## Lifecycle states -/

/-- `NodeState`. -/
inductive NodeState where
  | active | stale | offline | removed
  deriving DecidableEq

/-- From the best state to the worst. -/
def NodeState.rank : NodeState → Nat
  | .active => 0
  | .stale => 1
  | .offline => 2
  | .removed => 3

/-- `classify_node_state`. -/
def classifyNodeState (elapsed staleTimeout : Nat) : NodeState :=
  if elapsed < staleTimeout then .active
  else if elapsed < staleTimeout * 2 then .stale
  else if elapsed < staleTimeout * 3 then .offline
  else .removed

/-- `offline_nodes` of `run_stale_detection`. -/
def NodeDb.offlineNodes (db : NodeDb J) (it : Table.Iteration UInt32 (MeshNode J))
    (now : J.Timestamp) (staleTimeout : Nat) : List UInt32 :=
  (db.nodes.visit it).filterMap fun (num, node) => do
    let elapsed ← node.elapsedSinceHeard now
    if classifyNodeState elapsed staleTimeout = .offline then some num else none

/-- The longer ago, the worse. -/
theorem rank_classifyNodeState_mono {elapsed elapsed' : Nat} (h : elapsed ≤ elapsed')
    (staleTimeout : Nat) :
    (classifyNodeState elapsed staleTimeout).rank ≤
      (classifyNodeState elapsed' staleTimeout).rank := by
  unfold classifyNodeState
  split_ifs <;> simp only [NodeState.rank] <;> omega

/-! ## Clocks -/

/-- What `jiff` promises of its time stamps: nanoseconds since 1970 within some ten thousand
years. -/
structure Clock (J : Timestamps) where
  nanos : J.Timestamp → ℤ
  nanos_fromSecond : ∀ second t, J.fromSecond second = some t → nanos t = second * 1000000000
  asMillisecond_eq : ∀ t, J.asMillisecond t = (nanos t).tdiv 1000000
  abs_nanos_le : ∀ t, |nanos t| ≤ 400000000000 * 1000000000

namespace Clock

variable (K : Clock J)

/-- The milliseconds of a time stamp, and what they leave. -/
theorem nanos_eq (t : J.Timestamp) :
    ∃ rest, K.nanos t = 1000000 * J.asMillisecond t + rest ∧ -1000000 < rest ∧ rest < 1000000 := by
  refine ⟨(K.nanos t).tmod 1000000, ?_, ?_, Int.tmod_lt_of_pos _ (by decide)⟩
  · rw [K.asMillisecond_eq, Int.mul_tdiv_add_tmod]
  · exact Int.lt_tmod_of_pos _ (by decide)

theorem asMillisecond_mono {t t' : J.Timestamp} (h : K.nanos t ≤ K.nanos t') :
    J.asMillisecond t ≤ J.asMillisecond t' := by
  rw [K.asMillisecond_eq, K.asMillisecond_eq]
  exact Int.tdiv_le_tdiv (by decide) h

include K in
/-- No difference of two time stamps is cut off. -/
theorem i64SaturatingSub_eq (t now : J.Timestamp) :
    i64SaturatingSub (J.asMillisecond now) (J.asMillisecond t) =
      J.asMillisecond now - J.asMillisecond t ∧
      |J.asMillisecond now - J.asMillisecond t| < 2 ^ 63 := by
  obtain ⟨rest, heq, hlow, hhigh⟩ := K.nanos_eq t
  obtain ⟨rest', heq', hlow', hhigh'⟩ := K.nanos_eq now
  have hrange := abs_le.mp (K.abs_nanos_le t)
  have hrange' := abs_le.mp (K.abs_nanos_le now)
  constructor
  · unfold i64SaturatingSub
    rw [if_neg (by omega), if_neg (by omega)]
  · rw [abs_lt]
    omega

/-- **Age**: of a record that was not heard in the future, the time since then, in whole
milliseconds of either clock reading. -/
theorem elapsedSinceHeard_eq {node : MeshNode J} {t now : J.Timestamp}
    (hheard : node.lastHeard = some t) (h : K.nanos t ≤ K.nanos now) :
    ∃ elapsed, node.elapsedSinceHeard now = some elapsed ∧
      (elapsed : ℤ) = 1000000 * (J.asMillisecond now - J.asMillisecond t) ∧
      |(elapsed : ℤ) - (K.nanos now - K.nanos t)| < 2000000 := by
  obtain ⟨hsub, hlt⟩ := K.i64SaturatingSub_eq t now
  have hmono := K.asMillisecond_mono h
  have hcast : ((i64AsU64 (J.asMillisecond now - J.asMillisecond t) : Nat) : ℤ) =
      J.asMillisecond now - J.asMillisecond t := by
    rw [abs_lt] at hlt
    unfold i64AsU64
    omega
  have helapsed : ((fromMillis (i64AsU64 (J.asMillisecond now - J.asMillisecond t)) : Nat) : ℤ) =
      1000000 * (J.asMillisecond now - J.asMillisecond t) := by
    rw [fromMillis]
    push_cast
    omega
  refine ⟨_, by rw [MeshNode.elapsedSinceHeard, hheard, Option.map_some, hsub], helapsed, ?_⟩
  obtain ⟨rest, heq, hlow, hhigh⟩ := K.nanos_eq t
  obtain ⟨rest', heq', hlow', hhigh'⟩ := K.nanos_eq now
  rw [helapsed, abs_lt]
  omega

end Clock

/-- **Offline**: the nodes that stale detection announces have an age of two to three timeouts. -/
theorem NodeDb.mem_offlineNodes_iff {db : NodeDb J} {it : Table.Iteration UInt32 (MeshNode J)}
    {now : J.Timestamp} {staleTimeout : Nat} {num : UInt32} :
    num ∈ db.offlineNodes it now staleTimeout ↔
      ∃ node elapsed, db.get num = some node ∧ node.elapsedSinceHeard now = some elapsed ∧
        staleTimeout * 2 ≤ elapsed ∧ elapsed < staleTimeout * 3 := by
  have hoffline (elapsed : Nat) : classifyNodeState elapsed staleTimeout = .offline ↔
      staleTimeout * 2 ≤ elapsed ∧ elapsed < staleTimeout * 3 := by
    unfold classifyNodeState
    split_ifs <;> simp <;> omega
  simp only [offlineNodes, List.mem_filterMap, Prod.exists, Table.mem_visit, Option.bind_eq_bind,
    Option.bind_eq_some_iff, Option.ite_none_right_eq_some, hoffline, Option.some.injEq, get]
  constructor
  · rintro ⟨k, node, hget, elapsed, helapsed, hrange, rfl⟩
    exact ⟨node, elapsed, hget, helapsed, hrange⟩
  · rintro ⟨node, elapsed, hget, helapsed, hrange⟩
    exact ⟨num, node, hget, elapsed, helapsed, hrange, rfl⟩

/-! ## Packets -/

namespace PacketProcessor

variable {C : ProcessorCrates} {p p' : PacketProcessor C} {m : Moment C} {sender : UInt32}
  {P : MeshNode C.time → Prop} {events : List MeshEvent} {packet : MeshPacket}

/-- The records that a packet writes have the time at which it was heard. -/
def Stamps (m : Moment C) (p p' : PacketProcessor C) : Prop :=
  p'.nodeDb = p.nodeDb ∨
    ∃ node, node.lastHeard = some m.timestamp ∧ p'.nodeDb = p.nodeDb.insert m.nodes node

theorem Stamps.every (h : Stamps m p p') (hP : ∀ node, node.lastHeard = some m.timestamp → P node)
    (hdb : p.nodeDb.Every P) : p'.nodeDb.Every P := by
  obtain heq | ⟨node, hheard, heq⟩ := h
  · rwa [heq]
  · rw [heq]
    exact hdb.insert (hP node hheard)

theorem stamps_applyPassiveLearning
    (h : p.applyPassiveLearning m packet sender = some p') : Stamps m p p' := by
  obtain ⟨node, hdb, -, hheard⟩ := nodeDb_applyPassiveLearning h
  exact .inr ⟨node, hheard, hdb⟩

theorem stamps_handleNodeinfo {payload : Bytes}
    (h : p.handleNodeinfo m sender payload = some (p', events)) :
    Stamps m p p' := by
  unfold handleNodeinfo at h
  split at h
  · obtain ⟨rfl, -⟩ := Prod.mk.inj (Option.some.inj h)
    exact .inl rfl
  · obtain ⟨t, -, ht⟩ := Option.map_eq_some_iff.mp h
    obtain ⟨rfl, -⟩ := Prod.mk.inj ht
    exact .inr ⟨_, rfl, rfl⟩

theorem stamps_handlePosition (p : PacketProcessor C) (m : Moment C) (sender : UInt32)
    (payload : Bytes) :
    Stamps m p (p.handlePosition m sender payload).1 := by
  unfold handlePosition
  split
  · exact .inl rfl
  · dsimp only
    split
    · exact .inl rfl
    · exact .inr ⟨_, rfl, rfl⟩

theorem stamps_handleTelemetry (p : PacketProcessor C) (m : Moment C) (sender : UInt32)
    (payload : Bytes) :
    Stamps m p (p.handleTelemetry m sender payload).1 := by
  unfold handleTelemetry
  split
  · dsimp only
    split
    · exact .inr ⟨_, rfl, rfl⟩
    · exact .inl rfl
  · exact .inl rfl

theorem stamps_handleNeighborinfo {payload : Bytes}
    (h : p.handleNeighborinfo m sender payload = some (p', events)) : Stamps m p p' := by
  unfold handleNeighborinfo at h
  split at h
  · obtain ⟨rfl, -⟩ := Prod.mk.inj (Option.some.inj h)
    exact .inl rfl
  · split at h
    · obtain ⟨rfl, -⟩ := Prod.mk.inj (Option.some.inj h)
      exact .inl rfl
    · simp only [Option.bind_eq_bind, Option.bind_eq_some_iff, Option.some.injEq,
        Prod.mk.injEq] at h
      obtain ⟨_, -, _, -, rfl, -⟩ := h
      exact .inl rfl

theorem stamps_handleTraceroute {payload : Bytes}
    (h : p.handleTraceroute m sender packet payload = some (p', events)) : Stamps m p p' := by
  unfold handleTraceroute at h
  split at h
  · obtain ⟨rfl, -⟩ := Prod.mk.inj (Option.some.inj h)
    exact .inl rfl
  · simp only [Option.bind_eq_bind, Option.bind_eq_some_iff] at h
    obtain ⟨_, -, _, -, h⟩ := h
    split at h
    · obtain ⟨rfl, -⟩ := Prod.mk.inj (Option.some.inj h)
      exact .inl rfl
    · obtain ⟨_, -, h⟩ := Option.bind_eq_some_iff.mp h
      obtain ⟨rfl, -⟩ := Prod.mk.inj (Option.some.inj h)
      exact .inl rfl

/-- **Packet**: what holds of the old records, and of all that are heard now, holds of all. -/
theorem every_processMeshPacket (hdb : p.nodeDb.Every P)
    (hP : ∀ node, node.lastHeard = some m.timestamp → P node)
    (h : p.processMeshPacket m packet = some (p', events)) : p'.nodeDb.Every P := by
  unfold processMeshPacket at h
  split at h
  · obtain ⟨rfl, -⟩ := Prod.mk.inj (Option.some.inj h)
    exact hdb
  · next sender _ =>
    obtain ⟨p₁, hlearn, h⟩ := Option.bind_eq_some_iff.mp h
    have h₁ := (stamps_applyPassiveLearning hlearn).every hP hdb
    have hstamps : Stamps m p₁ p' → p'.nodeDb.Every P := fun hstamps => hstamps.every hP h₁
    have hsame : some (p₁, []) = some (p', events) → Stamps m p₁ p' := fun heq =>
      .inl (congrArg nodeDb (Prod.mk.inj (Option.some.inj heq)).1.symm)
    split at h
    · next decoded _ =>
      refine hstamps ?_
      split at h
      · exact stamps_handleNodeinfo h
      split at h
      · exact (Prod.mk.inj (Option.some.inj h)).1 ▸
          stamps_handlePosition p₁ m sender decoded.payload
      split at h
      · exact (Prod.mk.inj (Option.some.inj h)).1 ▸
          stamps_handleTelemetry p₁ m sender decoded.payload
      split at h
      · exact stamps_handleNeighborinfo h
      split at h
      · exact stamps_handleTraceroute h
      split at h <;> exact hsame h
    · exact hstamps (hsame h)

end PacketProcessor

namespace Collector

variable {C : ProcessorCrates} {c c' : Collector C} {K : Clock C.time} {now : C.time.Timestamp}
  {m : Moment C} {fromRadio : FromRadio} {p : PacketProcessor C} {events : List (CollectorEvent C)}

/-- A record in the database of the collector, of a handshake or of the processor. -/
def Stores (c : Collector C) (node : MeshNode C.time) : Prop :=
  (∃ num, c.nodeDb.get num = some node) ∨
    (∃ h num, c.phase = .handshaking h ∧ h.nodeDb.get num = some node) ∨
    ∃ p num, c.phase = .receiving p ∧ p.nodeDb.get num = some node

/-- Ages are what they should be: nothing was heard in the future, an age is the time since then,
and what was heard later is in no worse a state. -/
structure Aged (K : Clock C.time) (now : C.time.Timestamp) (c : Collector C) : Prop where
  past : ∀ node t, c.Stores node → node.lastHeard = some t → K.nanos t ≤ K.nanos now
  age : ∀ node t, c.Stores node → node.lastHeard = some t →
    ∃ elapsed, node.elapsedSinceHeard now = some elapsed ∧
      (elapsed : ℤ) = 1000000 * (C.time.asMillisecond now - C.time.asMillisecond t) ∧
      |(elapsed : ℤ) - (K.nanos now - K.nanos t)| < 2000000
  order : ∀ earlier later t t', c.Stores earlier → c.Stores later → earlier.lastHeard = some t →
    later.lastHeard = some t' → K.nanos t ≤ K.nanos t' →
    ∃ elapsed elapsed', earlier.elapsedSinceHeard now = some elapsed ∧
      later.elapsedSinceHeard now = some elapsed' ∧ ∀ staleTimeout,
        (classifyNodeState elapsed' staleTimeout).rank ≤
          (classifyNodeState elapsed staleTimeout).rank

/-- The frame is handled at that time or before. -/
def HandledBy (K : Clock C.time) (now : C.time.Timestamp) : CollectorEvent C → Prop
  | .frame m _ => K.nanos m.timestamp ≤ K.nanos now
  | _ => True

/-- A `NodeInfo` message says that its node was heard at that time or before, or not at all. -/
def ReportsBy (K : Clock C.time) (now : C.time.Timestamp) : CollectorEvent C → Prop
  | .frame _ (some (.nodeInfo ni)) =>
    ni.lastHeard = 0 ∨ (ni.lastHeard.toNat : ℤ) * 1000000000 ≤ K.nanos now
  | _ => True

/-- Not heard after a time. -/
def HeardBy (K : Clock C.time) (now : C.time.Timestamp) (node : MeshNode C.time) : Prop :=
  ∀ t, node.lastHeard = some t → K.nanos t ≤ K.nanos now

/-- No record of any database was heard after a time, nor any that is yet to be merged. -/
structure Past (K : Clock C.time) (now : C.time.Timestamp) (c : Collector C) : Prop where
  db : c.nodeDb.Every (HeardBy K now)
  phase : match c.phase with
    | .connecting => True
    | .handshaking h => h.nodeDb.Every (HeardBy K now) ∧ ∀ node ∈ h.knownNodes, HeardBy K now node
    | .merging nodes => ∀ node ∈ nodes, HeardBy K now node
    | .receiving p => p.nodeDb.Every (HeardBy K now)

theorem past_new : (new : Collector C).Past K now := ⟨NodeDb.every_new, trivial⟩

/-- **Node info**: the record is as old as the message says. -/
theorem heardBy_nodeInfo {ni : NodeInfo}
    (h : ni.lastHeard = 0 ∨ (ni.lastHeard.toNat : ℤ) * 1000000000 ≤ K.nanos now) :
    HeardBy K now (nodeInfoToMeshNode ni) := by
  intro t ht
  simp only [nodeInfoToMeshNode] at ht
  split at ht
  · cases ht
  · next hne =>
    rw [K.nanos_fromSecond _ t ht]
    exact h.resolve_left hne

theorem heardBy_of_stamp (hm : K.nanos m.timestamp ≤ K.nanos now) {node : MeshNode C.time}
    (h : node.lastHeard = some m.timestamp) : HeardBy K now node := by
  intro t ht
  obtain rfl := Option.some.inj (h.symm.trans ht)
  exact hm

/-- **Packets**: the collector's own copy. -/
theorem every_processPacket {db : NodeDb C.time} (hdb : db.Every (HeardBy K now))
    (hm : K.nanos m.timestamp ≤ K.nanos now)
    (hreport : ReportsBy K now (.frame m fromRadio)) :
    (processPacket db m fromRadio).Every (HeardBy K now) := by
  unfold processPacket
  split
  · unfold handleMeshPacket
    split
    · exact hdb
    · dsimp only
      split <;> exact hdb.insert (heardBy_of_stamp hm rfl)
  · exact hdb.insert (heardBy_nodeInfo hreport)
  · exact hdb

/-- **Processor**. -/
theorem every_dispatchToProcessor {p' : PacketProcessor C} (hdb : p.nodeDb.Every (HeardBy K now))
    (hm : K.nanos m.timestamp ≤ K.nanos now)
    (hreport : ReportsBy K now (.frame m fromRadio))
    (h : dispatchToProcessor p m fromRadio = some p') :
    p'.nodeDb.Every (HeardBy K now) := by
  unfold dispatchToProcessor at h
  split at h
  · obtain ⟨⟨_, _⟩, hprocess, rfl⟩ := Option.map_eq_some_iff.mp h
    exact PacketProcessor.every_processMeshPacket hdb (fun _ => heardBy_of_stamp hm) hprocess
  · obtain rfl := Option.some.inj h
    exact hdb.insert (heardBy_nodeInfo hreport)
  · obtain rfl := Option.some.inj h
    exact hdb

/-- **Frame**. -/
theorem Past.recv (h : c.Past K now) (hm : K.nanos m.timestamp ≤ K.nanos now)
    (hreport : ReportsBy K now (.frame m fromRadio))
    (hrecv : c.recv m fromRadio = some c') : c'.Past K now := by
  obtain ⟨hdb, hphase⟩ := h
  unfold Collector.recv at hrecv
  split at hrecv
  · next hs hp =>
    rw [hp] at hphase
    have hinfo : ∀ ni, fromRadio = some (.nodeInfo ni) → HeardBy K now (nodeInfoToMeshNode ni) := by
      rintro ni rfl
      exact heardBy_nodeInfo hreport
    have hround := every_handshakeRecv hphase.1 hphase.2 m.nodes hinfo
    split at hrecv
    · next heq =>
      rw [heq] at hround
      obtain rfl := Option.some.inj hrecv
      exact ⟨hdb, hround⟩
    · next heq =>
      rw [heq] at hround
      obtain rfl := Option.some.inj hrecv
      exact ⟨hdb, hround⟩
    · obtain rfl := Option.some.inj hrecv
      exact ⟨hdb, trivial⟩
  · next p hp =>
    rw [hp] at hphase
    obtain ⟨p', hdispatch, rfl⟩ := Option.map_eq_some_iff.mp hrecv
    exact ⟨every_processPacket hdb hm hreport,
      every_dispatchToProcessor hphase hm hreport hdispatch⟩
  · obtain rfl := Option.some.inj hrecv
    exact ⟨hdb, hphase⟩

/-- **Step**: no event writes a record from the future. -/
theorem Past.step (h : c.Past K now) {event : CollectorEvent C} (hhandled : HandledBy K now event)
    (hreport : ReportsBy K now event) (hstep : c.step event = some c') : c'.Past K now := by
  obtain ⟨hdb, hphase⟩ := h
  cases event with
  | frame m fromRadio => exact Past.recv ⟨hdb, hphase⟩ hhandled hreport hstep
  | connect wantConfigId =>
      simp only [Collector.step] at hstep
      split at hstep <;> obtain rfl := Option.some.inj hstep
      · exact ⟨hdb, NodeDb.every_new, by simp [Handshake.start]⟩
      · exact ⟨hdb, hphase⟩
  | fail =>
      simp only [Collector.step] at hstep
      split at hstep <;> obtain rfl := Option.some.inj hstep
      · exact ⟨hdb, trivial⟩
      · exact ⟨hdb, hphase⟩
  | merge m =>
      simp only [Collector.step] at hstep
      split at hstep <;> obtain rfl := Option.some.inj hstep
      · next node rest hp =>
        rw [hp] at hphase
        obtain ⟨hnode, hrest⟩ := List.forall_mem_cons.mp hphase
        exact ⟨hdb.insert hnode, hrest⟩
      · exact ⟨hdb, trivial⟩
      · exact ⟨hdb, hphase⟩
  | start =>
      simp only [Collector.step] at hstep
      split at hstep <;> obtain rfl := Option.some.inj hstep
      · exact ⟨hdb, hdb⟩
      · exact ⟨hdb, hphase⟩
  | removeStale m timeout =>
      simp only [Collector.step] at hstep
      split at hstep <;> obtain rfl := Option.some.inj hstep
      · next p hp =>
        rw [hp] at hphase
        exact ⟨hdb, hphase⟩
      · exact ⟨hdb, hphase⟩

theorem Past.heardBy (h : c.Past K now) {node : MeshNode C.time} (hstored : c.Stores node) :
    HeardBy K now node := by
  obtain ⟨hdb, hphase⟩ := h
  obtain ⟨num, hget⟩ | ⟨hs, num, hp, hget⟩ | ⟨p, num, hp, hget⟩ := hstored
  · exact (hdb num node hget).2
  · rw [hp] at hphase
    exact (hphase.1 num node hget).2
  · rw [hp] at hphase
    exact (hphase num node hget).2

theorem Past.aged (h : c.Past K now) : c.Aged K now where
  past node t hstored ht := h.heardBy hstored t ht
  age node t hstored ht := K.elapsedSinceHeard_eq ht (h.heardBy hstored t ht)
  order earlier later t t' hearlier hlater ht ht' hle := by
    obtain ⟨elapsed, helapsed, heq, -⟩ := K.elapsedSinceHeard_eq ht (h.heardBy hearlier t ht)
    obtain ⟨elapsed', helapsed', heq', -⟩ := K.elapsedSinceHeard_eq ht' (h.heardBy hlater t' ht')
    have hmono := K.asMillisecond_mono hle
    exact ⟨elapsed, elapsed', helapsed, helapsed', rank_classifyNodeState_mono (by omega)⟩

/-- **Offline**: stale detection announces the nodes that were heard two to three timeouts ago. -/
theorem Past.mem_offlineNodes_iff (h : c.Past K now) (hp : c.phase = .receiving p)
    {it : Table.Iteration UInt32 (MeshNode C.time)} {staleTimeout : Nat} {num : UInt32} :
    num ∈ p.nodeDb.offlineNodes it now staleTimeout ↔
      ∃ node t, p.nodeDb.get num = some node ∧ node.lastHeard = some t ∧
        (staleTimeout : ℤ) * 2 ≤ 1000000 * (C.time.asMillisecond now - C.time.asMillisecond t) ∧
        1000000 * (C.time.asMillisecond now - C.time.asMillisecond t) < (staleTimeout : ℤ) * 3 := by
  have hage {node t} (hget : p.nodeDb.get num = some node) (ht : node.lastHeard = some t) :=
    K.elapsedSinceHeard_eq ht (h.heardBy (.inr (.inr ⟨p, num, hp, hget⟩)) t ht)
  rw [NodeDb.mem_offlineNodes_iff]
  constructor
  · rintro ⟨node, elapsed, hget, helapsed, hlow, hhigh⟩
    obtain ⟨t, ht, -⟩ := Option.map_eq_some_iff.mp helapsed
    obtain ⟨elapsed', helapsed', heq, -⟩ := hage hget ht
    obtain rfl := Option.some.inj (helapsed.symm.trans helapsed')
    exact ⟨node, t, hget, ht, by omega, by omega⟩
  · rintro ⟨node, t, hget, ht, hlow, hhigh⟩
    obtain ⟨elapsed, helapsed, heq, -⟩ := hage hget ht
    exact ⟨node, elapsed, hget, helapsed, by omega, by omega⟩

/-- **Run**: what is reported of the past only leaves no record heard in the future. -/
theorem past_of_run (hrun : Machine.run step new events = some c)
    (hhandled : ∀ event ∈ events, HandledBy K now event)
    (hreports : ∀ event ∈ events, ReportsBy K now event) : c.Past K now :=
  Machine.run_invariant (P := fun _ event => HandledBy K now event ∧ ReportsBy K now event)
    (fun _ _ _ h hevent hstep => h.step hevent.1 hevent.2 hstep) past_new
    (Machine.meets_of_forall_mem
      (fun event hmem _ => ⟨hhandled event hmem, hreports event hmem⟩) _) hrun

/-- **Ages**: at a time when all frames of a run have been handled, if no `NodeInfo` message of it
reports a later time, then no record was heard in the future, ages are the times since then,
and a record heard later is in no worse a state. -/
theorem run_aged (hrun : Machine.run step new events = some c)
    (hhandled : ∀ event ∈ events, HandledBy K now event)
    (hreports : ∀ event ∈ events, ReportsBy K now event) : c.Aged K now :=
  (past_of_run hrun hhandled hreports).aged

/-- **Announced**: in such a run, stale detection announces the nodes whose last packet, or the last
report of it, is two to three timeouts old, and no others. -/
theorem run_offline (hrun : Machine.run step new events = some c)
    (hhandled : ∀ event ∈ events, HandledBy K now event)
    (hreports : ∀ event ∈ events, ReportsBy K now event)
    (hp : c.phase = .receiving p)
    (it : Table.Iteration UInt32 (MeshNode C.time)) (staleTimeout : Nat) (num : UInt32) :
    num ∈ p.nodeDb.offlineNodes it now staleTimeout ↔
      ∃ node t, p.nodeDb.get num = some node ∧ node.lastHeard = some t ∧ K.nanos t ≤ K.nanos now ∧
        (staleTimeout : ℤ) * 2 ≤ 1000000 * (C.time.asMillisecond now - C.time.asMillisecond t) ∧
        1000000 * (C.time.asMillisecond now - C.time.asMillisecond t) < (staleTimeout : ℤ) * 3 := by
  have hpast := past_of_run hrun hhandled hreports
  rw [hpast.mem_offlineNodes_iff hp]
  constructor
  · rintro ⟨node, t, hget, ht, hrange⟩
    exact ⟨node, t, hget, ht, hpast.heardBy (.inr (.inr ⟨p, num, hp, hget⟩)) t ht, hrange⟩
  · rintro ⟨node, t, hget, ht, -, hrange⟩
    exact ⟨node, t, hget, ht, hrange⟩

/-- Time stamps in whole seconds. -/
def sampleTime : Timestamps where
  Timestamp := { second : ℤ // -400000000000 ≤ second ∧ second ≤ 400000000000 }
  fromSecond second :=
    if h : -400000000000 ≤ second ∧ second ≤ 400000000000 then some ⟨second, h⟩ else none
  asMillisecond t := t.val * 1000

def sampleClock : Clock sampleTime where
  nanos t := t.val * 1000000000
  nanos_fromSecond second t h := by
    obtain ⟨hrange, heq⟩ := Option.dite_none_right_eq_some.mp h
    obtain rfl := Option.some.inj heq
    rfl
  asMillisecond_eq t := by
    show t.val * 1000 = (t.val * 1000000000).tdiv 1000000
    rw [show t.val * 1000000000 = t.val * 1000 * 1000000 by ring, Int.mul_tdiv_cancel _ (by decide)]
  abs_nanos_le t := by
    obtain ⟨hlow, hhigh⟩ := t.property
    rw [abs_le]
    omega

def clockCrates : ProcessorCrates := { sampleCrates with time := sampleTime }

def clockMoment : Moment clockCrates :=
  ⟨0, (⟨940, by decide⟩ : { second : ℤ // _ }), ⟨id, fun _ => .refl _⟩, ⟨id, fun _ => .refl _⟩⟩

/-- Ten seconds later. -/
def clockNow : clockCrates.time.Timestamp := (⟨950, by decide⟩ : { second : ℤ // _ })

/-- A handshake in which the radio 16 reports when it last heard node 7, and that it heard node 8
in second 900. -/
def clockSession (lastHeard : UInt32) : List (CollectorEvent clockCrates) :=
  [.connect 1, .frame clockMoment (some (.myInfo 16)),
    .frame clockMoment (some (.nodeInfo ⟨7, none, none, 0, lastHeard, 1⟩)),
    .frame clockMoment (some (.nodeInfo ⟨8, none, none, 0, 900, 1⟩)),
    .frame clockMoment (some (.configCompleteId 1)), .merge clockMoment, .merge clockMoment,
    .merge clockMoment, .start]

theorem clockSession_handledBy (lastHeard : UInt32) :
    ∀ event ∈ clockSession lastHeard, HandledBy sampleClock clockNow event := by
  have hmoment : sampleClock.nanos clockMoment.timestamp ≤ sampleClock.nanos clockNow := by decide
  simp only [clockSession, List.forall_mem_cons]
  exact ⟨trivial, hmoment, hmoment, hmoment, hmoment, trivial, trivial, trivial, trivial,
    List.forall_mem_nil _⟩

theorem clockSession_reportsBy :
    ∀ event ∈ clockSession 890, ReportsBy sampleClock clockNow event := by
  simp only [clockSession, List.forall_mem_cons]
  refine ⟨trivial, trivial, .inr ?_, .inr ?_, trivial, trivial, trivial, trivial, trivial,
    List.forall_mem_nil _⟩
  all_goals decide

/-- Node 7 was heard a minute ago. -/
theorem run_aged_sample :
    (∀ event ∈ clockSession 890, ReportsBy sampleClock clockNow event) ∧
      ∃ c, Machine.run step new (clockSession 890) = some c ∧ c.Aged sampleClock clockNow := by
  refine ⟨clockSession_reportsBy, ?_⟩
  have hrun : (Machine.run step new (clockSession 890)).isSome := by decide +kernel
  obtain ⟨c, hrun⟩ := Option.isSome_iff_exists.mp hrun
  exact ⟨c, hrun, run_aged hrun (clockSession_handledBy 890) clockSession_reportsBy⟩

/-- With a timeout of twenty seconds, node 8 is announced. -/
theorem run_offline_sample : ∃ c p, Machine.run step new (clockSession 890) = some c ∧
    c.phase = .receiving p ∧ ∀ it, 8 ∈ p.nodeDb.offlineNodes it clockNow (fromMillis 20000) := by
  obtain ⟨c, p, node, hrun, hp, hget, hheard⟩ : ∃ c p node,
      Machine.run step new (clockSession 890) = some c ∧ c.phase = .receiving p ∧
      p.nodeDb.get 8 = some node ∧
      node.lastHeard = some (⟨900, by decide⟩ : { second : ℤ // _ }) :=
        ⟨_, _, _, rfl, rfl, rfl, rfl⟩
  refine ⟨c, p, hrun, hp, fun it => ?_⟩
  rw [run_offline hrun (clockSession_handledBy 890) clockSession_reportsBy hp it _ 8]
  exact ⟨node, _, hget, hheard, by decide, by decide, by decide⟩

/-- When the collector's record of a node was last heard, in seconds, and its state under a
timeout of two hours. -/
def clockView (num : UInt32) (c : Collector clockCrates) : Option (ℤ × NodeState) := do
  let node ← c.nodeDb.get num
  let t ← node.lastHeard
  let elapsed ← node.elapsedSinceHeard clockNow
  some (t.val, classifyNodeState elapsed (fromMillis 7200000))

/-- The radio reports that it heard node 7 in second 1000, in the future: the node heard
last of all counts as removed. -/
theorem future_removed :
    (∀ event ∈ clockSession 1000, HandledBy sampleClock clockNow event) ∧
      ∃ c, Machine.run step new (clockSession 1000) = some c ∧
        c.clockView 7 = some (1000, .removed) ∧ c.clockView 8 = some (900, .active) ∧
        ¬c.Aged sampleClock clockNow := by
  have hview :
      (Machine.run step new (clockSession 1000)).map (fun c => (c.clockView 7, c.clockView 8)) =
      some (some (1000, .removed), some (900, .active)) := by decide +kernel
  obtain ⟨c, hrun, hview⟩ := Option.map_eq_some_iff.mp hview
  obtain ⟨h7, h8⟩ := Prod.mk.inj hview
  refine ⟨clockSession_handledBy 1000, c, hrun, h7, h8, fun haged => ?_⟩
  simp only [clockView, Option.bind_eq_bind, Option.bind_eq_some_iff] at h7
  obtain ⟨node, hget, t, ht, _, -, hstate⟩ := h7
  have hsecond : t.val = 1000 := (Prod.mk.inj (Option.some.inj hstate)).1
  have hpast : t.val * 1000000000 ≤ 950 * 1000000000 := haged.past node t (.inl ⟨7, hget⟩) ht
  omega

end Collector

end Akroasis.Mesh
