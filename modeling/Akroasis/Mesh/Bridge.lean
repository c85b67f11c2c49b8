import Akroasis.Machine
import Mathlib.Data.List.MinMax
import Mathlib.Data.List.Nodup
import Mathlib.Data.Prod.Lex

/-!
# Akroasis.Mesh.Bridge

The gateway bridge (`bridge.rs` with `BridgeConfig` of `config.rs`): registered gateways,
their health, the active gateway and failover.

A bridge is looked at through `find`, the record of a node.  Every operation is described
by what it does to `find`, to the active gateway and to the events, so that the invariants
over runs do not look at the list of gateways; that no node is registered twice is part of
`Registered`.
-/

namespace Akroasis.Mesh

/-! ## Records -/

/-- The floating-point operations the bridge uses on packet loss (`f32`) and response times
(`f64`), with the two ways in which it prints them. -/
structure Floats where
  F32 : Type
  F64 : Type
  zero : F32
  halve : F32 → F32
  worsen : F32 → F32
  clamp : F32 → F32
  exceeds32 : F32 → F32 → Bool
  exceeds64 : F64 → F64 → Bool
  ofMillis : Nat → F64
  showRounded : F64 → String
  showPercent : F32 → String

/-- `std::mem::discriminant` of a health. -/
inductive HealthKind where
  | healthy | degraded | offline
  deriving DecidableEq, Repr

/-- Health state of a gateway node. -/
inductive GatewayHealth where
  | healthy
  | degraded (reason : String)
  | offline (since : Option Nat)
  deriving DecidableEq

namespace GatewayHealth

def kind : GatewayHealth → HealthKind
  | healthy => .healthy
  | degraded _ => .degraded
  | offline _ => .offline

/-- `health_rank`. -/
def rank : GatewayHealth → Nat
  | healthy => 0
  | degraded _ => 1
  | offline _ => 2

/-- Not `Offline`. -/
def isAvailable (h : GatewayHealth) : Bool := decide (h.kind ≠ .offline)

end GatewayHealth

/-- The state of a single gateway node; instants are nanoseconds. -/
structure GatewayState (F : Floats) where
  node : UInt32
  priority : UInt8
  lastSeen : Nat
  health : GatewayHealth
  consecutiveFailures : UInt32
  avgResponseMs : Option F.F64
  packetLoss : F.F32

/-- `GatewayState::new`. -/
def GatewayState.new {F : Floats} (node : UInt32) (priority : UInt8) (now : Nat) : GatewayState F :=
  ⟨node, priority, now, .healthy, 0, none, F.zero⟩

/-- `is_available`. -/
def GatewayState.isAvailable {F : Floats} (g : GatewayState F) : Bool := g.health.isAvailable

/-- Events of health and failover transitions. -/
inductive GatewayEvent where
  | failover (previous : Option UInt32) (next : UInt32)
  | statusChange (node : UInt32) (health : GatewayHealth)
  deriving DecidableEq

/-- The configuration; the tick interval of the monitor task is left out. -/
structure BridgeConfig (F : Floats) where
  degradedResponseThresholdMs : Nat
  degradedLossThreshold : F.F32
  offlineCheckThreshold : UInt32
  failoverCooldownSecs : Nat

/-- `failover_cooldown`, in nanoseconds. -/
def BridgeConfig.failoverCooldown {F : Floats} (c : BridgeConfig F) : Nat :=
  c.failoverCooldownSecs * 1000000000

/-- The bridge.  Nothing reads `emitted`: it is every event with its time, drained or not. -/
structure GatewayBridge (F : Floats) where
  gateways : List (GatewayState F) := []
  activeGateway : Option UInt32 := none
  lastFailover : Option Nat := none
  events : List GatewayEvent := []
  config : BridgeConfig F
  emitted : List (Nat × GatewayEvent) := []

/-- The gateways with `f` applied to the first record of `node`. -/
def updateFirst {F : Floats} (node : UInt32) (f : GatewayState F → GatewayState F) :
    List (GatewayState F) → List (GatewayState F)
  | [] => []
  | g :: gs => if g.node = node then f g :: gs else g :: updateFirst node f gs

namespace GatewayBridge

variable {F : Floats}

/-! ## Operations -/

/-- The record of a node. -/
def find (b : GatewayBridge F) (node : UInt32) : Option (GatewayState F) :=
  b.gateways.find? fun g => g.node = node

/-- `events.push`. -/
def push (b : GatewayBridge F) (now : Nat) (event : GatewayEvent) : GatewayBridge F :=
  { b with events := b.events ++ [event], emitted := b.emitted ++ [(now, event)] }

/-- `update_config`. -/
def updateConfig (b : GatewayBridge F) (config : BridgeConfig F) : GatewayBridge F :=
  { b with config := config }

/-- `add_gateway`. -/
def addGateway (b : GatewayBridge F) (node : UInt32) (priority : UInt8) (now : Nat) :
    GatewayBridge F :=
  if b.gateways.any fun g => g.node = node then b
  else { b with gateways := b.gateways ++ [.new node priority now] }

/-- `remove_gateway`. -/
def removeGateway (b : GatewayBridge F) (node : UInt32) : GatewayBridge F :=
  { b with
    gateways := b.gateways.filter fun g => g.node ≠ node
    activeGateway := if b.activeGateway = some node then none else b.activeGateway }

/-- `drain_events`. -/
def drainEvents (b : GatewayBridge F) : List GatewayEvent × GatewayBridge F :=
  (b.events, { b with events := [] })

/-- `select_gateway`: the first of the available gateways with the least rank and priority. -/
def selectGateway (b : GatewayBridge F) : Option UInt32 :=
  ((b.gateways.filter GatewayState.isAvailable).argmin fun g =>
    toLex (g.health.rank, g.priority.toNat)).map GatewayState.node

/-- `failover`. -/
def failover (b : GatewayBridge F) (now : Nat) : GatewayBridge F :=
  let previous := b.activeGateway
  let next := b.selectGateway
  if next = previous then b
  else
    let b := { b with activeGateway := next, lastFailover := some now }
    match next with
    | some selected => b.push now (.failover previous selected)
    | none => b

/-- Is no available gateway active? -/
def needsSelection (b : GatewayBridge F) : Bool :=
  match b.activeGateway with
  | none => true
  | some active => !b.gateways.any fun g => g.node = active && g.isAvailable

/-- Has the cooldown not passed yet? -/
def coolingDown (b : GatewayBridge F) (now : Nat) : Bool :=
  match b.lastFailover with
  | none => false
  | some last => decide (now - last < b.config.failoverCooldown)

/-- `ensure_active`. -/
def ensureActive (b : GatewayBridge F) (now : Nat) : GatewayBridge F :=
  if b.needsSelection then
    if b.coolingDown now then b else b.failover now
  else b

/-- The end of both health records: a `StatusChange` if the kind of health changes, and the
new record in the old one's place. -/
def recordHealth (b : GatewayBridge F) (gw gw' : GatewayState F) (now : Nat) : GatewayBridge F :=
  let b := if gw.health.kind ≠ gw'.health.kind then b.push now (.statusChange gw.node gw'.health)
    else b
  { b with gateways := updateFirst gw.node (fun _ => gw') b.gateways }

/-- `record_health_success`. -/
def recordHealthSuccess (b : GatewayBridge F) (node : UInt32) (responseMs : F.F64) (now : Nat) :
    GatewayBridge F :=
  match b.find node with
  | none => b
  | some gw =>
      let packetLoss := F.halve gw.packetLoss
      let health : GatewayHealth :=
        if F.exceeds64 responseMs (F.ofMillis b.config.degradedResponseThresholdMs) ||
            F.exceeds32 packetLoss b.config.degradedLossThreshold then
          .degraded ("response " ++ F.showRounded responseMs ++ "ms, loss " ++
            F.showPercent packetLoss ++ "%")
        else .healthy
      b.recordHealth gw { gw with
        lastSeen := now, consecutiveFailures := 0, avgResponseMs := some responseMs,
        packetLoss := packetLoss, health := health } now

/-- The health a failed check leaves.  A gateway that is degraded keeps its reason. -/
def healthAfterFailure (threshold failures : UInt32) (health : GatewayHealth) (now : Nat) :
    GatewayHealth :=
  if threshold ≤ failures then .offline (some now)
  else if health.kind = .degraded then health
  else .degraded (toString failures.toNat ++ " consecutive check failures")

/-- The record a failed check leaves. -/
def failedCheck (b : GatewayBridge F) (gw : GatewayState F) (now : Nat) : GatewayState F :=
  let failures := gw.consecutiveFailures + 1
  { gw with
    consecutiveFailures := failures
    packetLoss := F.worsen gw.packetLoss
    health := healthAfterFailure b.config.offlineCheckThreshold failures gw.health now }

/-- `record_health_failure`: a failover if the active gateway just went offline. -/
def recordHealthFailure (b : GatewayBridge F) (node : UInt32) (now : Nat) : GatewayBridge F :=
  match b.find node with
  | none => b
  | some gw =>
      let gw' := b.failedCheck gw now
      let b := b.recordHealth gw gw' now
      if gw.isAvailable && !gw'.isAvailable && b.activeGateway = some node then b.failover now
        else b

/-- `update_packet_loss`. -/
def updatePacketLoss (b : GatewayBridge F) (node : UInt32) (lossRatio : F.F32) : GatewayBridge F :=
  { b with
    gateways := updateFirst node (fun g => { g with packetLoss := F.clamp lossRatio }) b.gateways }

end GatewayBridge

/-- The calls on a bridge. -/
inductive BridgeOp (F : Floats) where
  | updateConfig (config : BridgeConfig F)
  | addGateway (node : UInt32) (priority : UInt8)
  | removeGateway (node : UInt32)
  | ensureActive
  | failover
  | recordHealthSuccess (node : UInt32) (responseMs : F.F64)
  | recordHealthFailure (node : UInt32)
  | updatePacketLoss (node : UInt32) (lossRatio : F.F32)
  | drainEvents

/-- A bridge, the latest instant at which it was used, and for every node how many events
had been emitted when it was last registered. -/
structure BridgeRun (F : Floats) where
  bridge : GatewayBridge F
  clock : Nat := 0
  since : UInt32 → Nat := fun _ => 0

variable {F : Floats}

/-- One call at an instant. -/
def GatewayBridge.apply (b : GatewayBridge F) (now : Nat) : BridgeOp F → GatewayBridge F
  | .updateConfig config => b.updateConfig config
  | .addGateway node priority => b.addGateway node priority now
  | .removeGateway node => b.removeGateway node
  | .ensureActive => b.ensureActive now
  | .failover => b.failover now
  | .recordHealthSuccess node responseMs => b.recordHealthSuccess node responseMs now
  | .recordHealthFailure node => b.recordHealthFailure node now
  | .updatePacketLoss node lossRatio => b.updatePacketLoss node lossRatio
  | .drainEvents => b.drainEvents.2

/-- The registrations after a call. -/
def BridgeRun.register (r : BridgeRun F) : BridgeOp F → UInt32 → Nat
  | .addGateway node _ =>
      if (r.bridge.find node).isSome then r.since
      else Function.update r.since node r.bridge.emitted.length
  | _ => r.since

/-- One call; the clock does not run backwards. -/
def BridgeRun.step (r : BridgeRun F) (call : Nat × BridgeOp F) : Option (BridgeRun F) :=
  if call.1 < r.clock then none
  else some ⟨r.bridge.apply call.1 call.2, call.1, r.register call.2⟩

/-- `with_config`. -/
def BridgeRun.start (config : BridgeConfig F) : BridgeRun F := { bridge := { config := config } }

theorem BridgeRun.step_eq_some {r r' : BridgeRun F} {call : Nat × BridgeOp F}
    (h : r.step call = some r') :
    r.clock ≤ call.1 ∧ r' = ⟨r.bridge.apply call.1 call.2, call.1, r.register call.2⟩ := by
  unfold BridgeRun.step at h
  split at h
  · contradiction
  · next hclock => exact ⟨Nat.le_of_not_lt hclock, (Option.some.inj h).symm⟩

/-! ## Gateways by node -/

section Find

variable {node m : UInt32} {f : GatewayState F → GatewayState F} {gs : List (GatewayState F)}

theorem map_node_updateFirst (hf : ∀ g, g.node = node → (f g).node = node) :
    (updateFirst node f gs).map GatewayState.node = gs.map GatewayState.node := by
  induction gs with
  | nil => rfl
  | cons g gs ih =>
      rw [updateFirst]
      split
      · next hg => rw [List.map_cons, hf g hg, List.map_cons, hg]
      · rw [List.map_cons, ih, List.map_cons]

theorem find?_updateFirst (hf : ∀ g, g.node = node → (f g).node = node) :
    (updateFirst node f gs).find? (fun g => g.node = m) =
      if m = node then (gs.find? fun g => g.node = node).map f
        else gs.find? fun g => g.node = m := by
  induction gs with
  | nil => simp [updateFirst]
  | cons g gs ih =>
      rw [updateFirst]
      by_cases hg : g.node = node
      · have hfg := hf g hg
        by_cases hm : m = node
        · simp [hg, hm, hfg]
        · simp [hg, hm, hfg, Ne.symm hm]
      · by_cases hm : g.node = m
        · have hne : m ≠ node := hm ▸ hg
          simp [hm, hne]
        · simp [hg, hm, ih]

end Find

namespace GatewayBridge

variable {b b' : GatewayBridge F} {node m : UInt32} {now : Nat} {g gw gw' : GatewayState F}

theorem find_node (h : b.find node = some g) : g.node = node := by
  simpa using List.find?_some h

/-- No node is registered twice. -/
def Registered (b : GatewayBridge F) : Prop := (b.gateways.map GatewayState.node).Nodup

/-- A registered gateway is the record of its node. -/
theorem Registered.find_of_mem (h : b.Registered) (hg : g ∈ b.gateways) :
    b.find g.node = some g := by
  unfold find
  cases hfind : b.gateways.find? fun x => x.node = g.node with
  | none =>
      have := List.find?_eq_none.mp hfind g hg
      simp at this
  | some x =>
      have hnode : x.node = g.node := by simpa using List.find?_some hfind
      rw [List.inj_on_of_nodup_map h (List.mem_of_find?_eq_some hfind) hg hnode]

theorem mem_of_find (h : b.find node = some g) : g ∈ b.gateways :=
  List.mem_of_find?_eq_some h

/-- A gateway that is selected is registered and available. -/
theorem Registered.find_of_selectGateway (h : b.Registered) (hsel : b.selectGateway = some node) :
    ∃ g, b.find node = some g ∧ g.isAvailable = true := by
  obtain ⟨g, hg, rfl⟩ := Option.map_eq_some_iff.mp hsel
  obtain ⟨hmem, havail⟩ := List.mem_filter.mp (List.argmin_mem hg)
  exact ⟨g, h.find_of_mem hmem, havail⟩

/-- None is selected only if none is available. -/
theorem selectGateway_isSome (hfind : b.find node = some g)
    (havail : g.isAvailable = true) : b.selectGateway.isSome = true := by
  have hne : b.gateways.filter GatewayState.isAvailable ≠ [] :=
    List.ne_nil_of_mem (List.mem_filter.mpr ⟨mem_of_find hfind, havail⟩)
  rw [selectGateway, Option.isSome_map, Option.isSome_iff_ne_none]
  exact mt List.argmin_eq_none.mp hne

/-! ## What each call does -/

/-- The cases of `failover`: nothing, no gateway left, or another one. -/
theorem failover_cases (b : GatewayBridge F) (now : Nat) :
    b.failover now = b ∧ b.selectGateway = b.activeGateway ∨
    b.selectGateway = none ∧ b.activeGateway ≠ none ∧
      b.failover now = { b with activeGateway := none, lastFailover := some now } ∨
    ∃ node, b.selectGateway = some node ∧ b.activeGateway ≠ some node ∧
      b.failover now = ({ b with activeGateway := some node, lastFailover := some now } :
        GatewayBridge F).push now (.failover b.activeGateway node) := by
  unfold failover
  by_cases hsame : b.selectGateway = b.activeGateway
  · exact .inl ⟨if_pos hsame, hsame⟩
  · right
    cases hsel : b.selectGateway with
    | none =>
        rw [hsel] at hsame
        exact .inl ⟨rfl, Ne.symm hsame, if_neg hsame⟩
    | some node =>
        rw [hsel] at hsame
        exact .inr ⟨node, rfl, Ne.symm hsame, if_neg hsame⟩

theorem gateways_failover (b : GatewayBridge F) (now : Nat) :
    (b.failover now).gateways = b.gateways := by
  rcases failover_cases b now with ⟨h, -⟩ | ⟨-, -, h⟩ | ⟨node, -, -, h⟩ <;> rw [h]
  rfl

theorem find_failover (b : GatewayBridge F) (now : Nat) (node : UInt32) :
    (b.failover now).find node = b.find node := by
  rw [find, gateways_failover]; rfl

theorem gateways_recordHealth (b : GatewayBridge F) (gw gw' : GatewayState F) (now : Nat) :
    (b.recordHealth gw gw' now).gateways = updateFirst gw.node (fun _ => gw') b.gateways := by
  unfold recordHealth
  split <;> rfl

theorem find_recordHealth (hfind : b.find gw.node = some gw)
    (hnode : gw'.node = gw.node) (now : Nat) (m : UInt32) :
    (b.recordHealth gw gw' now).find m = if m = gw.node then some gw' else b.find m := by
  rw [find, gateways_recordHealth, find?_updateFirst fun _ _ => hnode]
  split
  · change (b.find gw.node).map _ = _
    rw [hfind, Option.map_some]
  · rfl

theorem activeGateway_recordHealth (b : GatewayBridge F) (gw gw' : GatewayState F) (now : Nat) :
    (b.recordHealth gw gw' now).activeGateway = b.activeGateway := by
  unfold recordHealth
  split <;> rfl

/-- A node is added if it is not registered. -/
theorem addGateway_eq (b : GatewayBridge F) (node : UInt32) (priority : UInt8) (now : Nat) :
    b.addGateway node priority now =
      if (b.find node).isSome then b
      else { b with gateways := b.gateways ++ [.new node priority now] } := by
  have hany : (b.gateways.any fun g => g.node = node) = (b.find node).isSome := by
    rw [Bool.eq_iff_iff, List.any_eq_true, find, List.find?_isSome]
  rw [addGateway, hany]

theorem find_addGateway (b : GatewayBridge F) (node : UInt32) (priority : UInt8) (now : Nat)
    (m : UInt32) : (b.addGateway node priority now).find m =
      if m = node ∧ b.find node = none then some (.new node priority now) else b.find m := by
  rw [addGateway_eq]
  cases hfind : b.find node with
  | some g => simp
  | none =>
      have hfirst : b.gateways.find? (fun g => g.node = node) = none := hfind
      by_cases hm : m = node
      · simp [find, hm, hfirst, GatewayState.new]
      · simp [find, hm, GatewayState.new, Ne.symm hm]

theorem find_removeGateway (b : GatewayBridge F) (node m : UInt32) :
    (b.removeGateway node).find m = if m = node then none else b.find m := by
  rw [find, removeGateway, List.find?_filter]
  by_cases hm : m = node
  · rw [if_pos hm, List.find?_eq_none]
    intro g _
    simp [hm]
  · rw [if_neg hm, find]
    congr 1
    funext g
    by_cases hg : g.node = m
    · simp [hg, hm]
    · simp [hg]

theorem find_updatePacketLoss (b : GatewayBridge F) (node : UInt32) (lossRatio : F.F32)
    (m : UInt32) :
    ((b.updatePacketLoss node lossRatio).find m).map GatewayState.health =
      (b.find m).map GatewayState.health := by
  rw [find, updatePacketLoss,
    find?_updateFirst (f := fun g => { g with packetLoss := F.clamp lossRatio })
    fun _ hg => hg]
  split
  · next hm => subst hm; simp [find, Function.comp_def]
  · rfl

@[simp] theorem node_failedCheck (b : GatewayBridge F) (gw : GatewayState F) (now : Nat) :
    (b.failedCheck gw now).node = gw.node := rfl

/-- A failed check leaves a gateway available exactly if its failures do not reach the
threshold. -/
theorem isAvailable_failedCheck (b : GatewayBridge F) (gw : GatewayState F) (now : Nat) :
    (b.failedCheck gw now).isAvailable = true ↔
      ¬ b.config.offlineCheckThreshold ≤ gw.consecutiveFailures + 1 := by
  rw [GatewayState.isAvailable, failedCheck, healthAfterFailure]
  by_cases hreach : b.config.offlineCheckThreshold ≤ gw.consecutiveFailures + 1
  · simp [hreach, GatewayHealth.isAvailable, GatewayHealth.kind]
  · by_cases hkind : gw.health.kind = .degraded
    · simp only [hreach, hkind, if_true, if_false, GatewayHealth.isAvailable]
      decide
    · simp only [hreach, hkind, if_false]
      exact ⟨fun _ => id, fun _ => rfl⟩

/-! ## No node twice -/

theorem Registered.addGateway (h : b.Registered) (node : UInt32) (priority : UInt8) (now : Nat) :
    (b.addGateway node priority now).Registered := by
  rw [addGateway_eq]
  cases hfind : b.find node with
  | some g => simpa using h
  | none =>
      have hnew : ∀ n ∈ b.gateways.map GatewayState.node, n ≠ node := by
        intro n hn heq
        obtain ⟨g, hg, rfl⟩ := List.mem_map.mp hn
        rw [← heq, h.find_of_mem hg] at hfind
        cases hfind
      simp only [Option.isSome_none, Bool.false_eq_true, if_false, Registered, List.map_append,
        List.nodup_append]
      refine ⟨h, by simp, fun n hn m hm => ?_⟩
      obtain rfl : m = node := by simpa [GatewayState.new] using hm
      exact hnew n hn

theorem Registered.removeGateway (h : b.Registered) (node : UInt32) :
    (b.removeGateway node).Registered :=
  List.Nodup.sublist (List.filter_sublist.map GatewayState.node) h

theorem Registered.failover (h : b.Registered) (now : Nat) : (b.failover now).Registered := by
  rwa [Registered, gateways_failover]

theorem Registered.recordHealth (h : b.Registered)
    (hnode : gw'.node = gw.node) (now : Nat) : (b.recordHealth gw gw' now).Registered := by
  rwa [Registered, gateways_recordHealth, map_node_updateFirst fun _ _ => hnode]

theorem Registered.updatePacketLoss (h : b.Registered) (node : UInt32) (lossRatio : F.F32) :
    (b.updatePacketLoss node lossRatio).Registered := by
  rw [Registered, GatewayBridge.updatePacketLoss]
  rwa [map_node_updateFirst (f := fun g => { g with packetLoss := F.clamp lossRatio })
    fun _ hg => hg]

theorem Registered.apply (h : b.Registered) (now : Nat) (op : BridgeOp F) :
    (b.apply now op).Registered := by
  cases op with
  | updateConfig config => exact h
  | addGateway node priority => exact h.addGateway node priority now
  | removeGateway node => exact h.removeGateway node
  | ensureActive =>
      simp only [GatewayBridge.apply, ensureActive]
      split
      · split
        · exact h
        · exact h.failover now
      · exact h
  | failover => exact h.failover now
  | recordHealthSuccess node responseMs =>
      simp only [GatewayBridge.apply, recordHealthSuccess]
      cases b.find node with
      | none => exact h
      | some gw =>
          refine h.recordHealth ?_ now
          rfl
  | recordHealthFailure node =>
      simp only [GatewayBridge.apply, recordHealthFailure]
      cases b.find node with
      | none => exact h
      | some gw =>
          have hrecord := h.recordHealth (node_failedCheck b gw now) now
          simp only
          split
          · exact hrecord.failover now
          · exact hrecord
  | updatePacketLoss node lossRatio => exact h.updatePacketLoss node lossRatio
  | drainEvents => exact h

/-! ## The active gateway -/

/-- The active gateway, if there is one, is registered and not offline. -/
def ActiveAvailable (b : GatewayBridge F) : Prop :=
  ∀ node, b.activeGateway = some node → ∃ g, b.find node = some g ∧ g.isAvailable = true

/-- A failover makes sure of it. -/
theorem Registered.activeAvailable_failover (h : b.Registered) (now : Nat) :
    (b.failover now).ActiveAvailable := by
  intro node hnode
  rw [find_failover]
  apply h.find_of_selectGateway
  rcases failover_cases b now with ⟨heq, hsel⟩ | ⟨-, -, heq⟩ | ⟨next, hsel, -, heq⟩
  · rwa [hsel, ← heq]
  · rw [heq] at hnode
    cases hnode
  · rw [heq] at hnode
    rwa [← hnode]

/-- A record of health keeps it if the record of the active gateway is available. -/
theorem ActiveAvailable.recordHealth (h : b.ActiveAvailable)
    (hfind : b.find gw.node = some gw) (hnode : gw'.node = gw.node)
    (havail : b.activeGateway = some gw.node → gw'.isAvailable = true) (now : Nat) :
    (b.recordHealth gw gw' now).ActiveAvailable := by
  intro node hactive
  rw [activeGateway_recordHealth] at hactive
  rw [find_recordHealth hfind hnode]
  split
  · next heq =>
    rw [heq] at hactive
    exact ⟨gw', rfl, havail hactive⟩
  · exact h node hactive

/-- **Active**: no call leaves an active gateway that is missing or offline. -/
theorem ActiveAvailable.apply (h : b.ActiveAvailable) (hreg : b.Registered) (now : Nat)
    (op : BridgeOp F) : (b.apply now op).ActiveAvailable := by
  cases op with
  | updateConfig config => exact h
  | addGateway node priority =>
      intro n hn
      have hactive : b.activeGateway = some n := by
        simp only [GatewayBridge.apply, addGateway_eq] at hn
        split at hn <;> exact hn
      obtain ⟨g, hg, havail⟩ := h n hactive
      refine ⟨g, ?_, havail⟩
      simp only [GatewayBridge.apply, find_addGateway]
      rw [if_neg, hg]
      rintro ⟨rfl, hnone⟩
      rw [hg] at hnone
      cases hnone
  | removeGateway node =>
      intro n hn
      simp only [GatewayBridge.apply, removeGateway] at hn
      split at hn
      · cases hn
      · next hne =>
        simp only [GatewayBridge.apply, find_removeGateway]
        rw [if_neg fun (heq : n = node) => hne (heq ▸ hn)]
        exact h n hn
  | ensureActive =>
      simp only [GatewayBridge.apply, ensureActive]
      split
      · split
        · exact h
        · exact hreg.activeAvailable_failover now
      · exact h
  | failover => exact hreg.activeAvailable_failover now
  | recordHealthSuccess node responseMs =>
      simp only [GatewayBridge.apply, recordHealthSuccess]
      cases hfind : b.find node with
      | none => exact h
      | some gw =>
          obtain rfl := find_node hfind
          refine h.recordHealth hfind ?_ (fun _ => ?_) now
          · rfl
          · simp only [GatewayState.isAvailable]
            split <;> rfl
  | recordHealthFailure node =>
      simp only [GatewayBridge.apply, recordHealthFailure]
      cases hfind : b.find node with
      | none => exact h
      | some gw =>
          obtain rfl := find_node hfind
          have hrecord := hreg.recordHealth (node_failedCheck b gw now) now
          simp only
          split
          · exact hrecord.activeAvailable_failover now
          · next hstays =>
            refine h.recordHealth hfind (node_failedCheck b gw now) (fun hactive => ?_) now
            obtain ⟨g, hg, havail⟩ := h gw.node hactive
            obtain rfl := Option.some.inj (hg.symm.trans hfind)
            simpa [havail, hactive, activeGateway_recordHealth] using hstays
  | updatePacketLoss node lossRatio =>
      intro n hn
      obtain ⟨g, hg, havail⟩ := h n hn
      have hhealth := find_updatePacketLoss b node lossRatio n
      rw [hg, Option.map_some, Option.map_eq_some_iff] at hhealth
      obtain ⟨g', hg', heq⟩ := hhealth
      exact ⟨g', hg', by rwa [GatewayState.isAvailable, heq]⟩
  | drainEvents => exact h

/-- A failed check fails over exactly when it takes the active gateway offline. -/
theorem ActiveAvailable.recordHealthFailure_eq (h : b.ActiveAvailable)
    (hfind : b.find gw.node = some gw) (now : Nat) :
    b.recordHealthFailure gw.node now =
      if b.activeGateway = some gw.node ∧
        b.config.offlineCheckThreshold ≤ gw.consecutiveFailures + 1 then
        (b.recordHealth gw (b.failedCheck gw now) now).failover now
      else b.recordHealth gw (b.failedCheck gw now) now := by
  have hiff : (gw.isAvailable && !(b.failedCheck gw now).isAvailable &&
      decide (b.activeGateway = some gw.node)) = true ↔
      b.activeGateway = some gw.node ∧
      b.config.offlineCheckThreshold ≤ gw.consecutiveFailures + 1 := by
    rw [Bool.and_eq_true, Bool.and_eq_true, decide_eq_true_eq, Bool.not_eq_true',
      ← Bool.not_eq_true, isAvailable_failedCheck, not_not]
    constructor
    · exact fun hand => ⟨hand.2, hand.1.2⟩
    · intro hand
      obtain ⟨g, hg, havail⟩ := h gw.node hand.1
      exact ⟨⟨Option.some.inj (hg.symm.trans hfind) ▸ havail, hand.2⟩, hand.1⟩
  simp only [recordHealthFailure, hfind, activeGateway_recordHealth, hiff]

end GatewayBridge

/-- Fixed-point numbers in thousandths for the floats of the sample runs. -/
def sampleFloats : Floats where
  F32 := Nat
  F64 := Nat
  zero := 0
  halve x := x / 2
  worsen x := (x * 7 + 3000) / 10
  clamp x := min x 1000
  exceeds32 x y := decide (y < x)
  exceeds64 x y := decide (y < x)
  ofMillis n := n * 1000
  showRounded x := toString ((x + 500) / 1000)
  showPercent x := toString ((x + 5) / 10)

/-- The default configuration but for the threshold. -/
def sampleConfig (threshold : UInt32) : BridgeConfig sampleFloats :=
  ⟨5000, (200 : Nat), threshold, 30⟩

end Akroasis.Mesh
