import Akroasis.Mesh.Bridge

/-!
# Akroasis.Mesh.GatewayHealth

The health of the gateways over whole runs of a bridge, configuration updates included.

The active gateway is always registered and not offline (`ActiveAvailable.apply`), and what
the events since its registration say of a gateway is its health (`Told.apply`).  Two things
can go wrong.  A failed check turns an offline gateway into a degraded one, and so makes it
available, when its failures do not reach the threshold any more: the threshold was raised,
or the counter wrapped.  And a node that is removed and added again starts out healthy
without an event that says so.
-/

namespace Akroasis.Mesh

variable {F : Floats}

/-! ## What the events say -/

/-- The kind of health an event reports of a node. -/
def statusOf (node : UInt32) : Nat × GatewayEvent → Option HealthKind
  | (_, .statusChange n health) => if n = node then some health.kind else none
  | (_, .failover _ _) => none

/-- The kind of health after some events, if it was `kind` before. -/
def toldFrom (kind : HealthKind) (events : List (Nat × GatewayEvent)) (node : UInt32) :
    HealthKind :=
  ((events.filterMap (statusOf node)).getLast?).getD kind

/-- The kind of health the last `StatusChange` for a node reports, healthy if there is none. -/
def lastStatus (events : List (Nat × GatewayEvent)) (node : UInt32) : HealthKind :=
  toldFrom .healthy events node

theorem toldFrom_append (kind : HealthKind) (xs ys : List (Nat × GatewayEvent)) (node : UInt32) :
    toldFrom kind (xs ++ ys) node = toldFrom (toldFrom kind xs node) ys node := by
  simp only [toldFrom, List.filterMap_append, List.getLast?_append]
  cases (ys.filterMap (statusOf node)).getLast? <;> simp

namespace GatewayBridge

variable {b b' b'' : GatewayBridge F} {now : Nat}

/-- `b'` came from `b` with events that tell every change of health. -/
def Reports (b b' : GatewayBridge F) : Prop :=
  ∃ new, b'.emitted = b.emitted ++ new ∧ ∀ node g', b'.find node = some g' →
    ∃ g, b.find node = some g ∧ g'.health.kind = toldFrom g.health.kind new node

theorem Reports.of_same (hemitted : b'.emitted = b.emitted)
    (hfind : ∀ node g', b'.find node = some g' → ∃ g, b.find node = some g ∧ g'.health = g.health) :
    Reports b b' := by
  refine ⟨[], by simpa using hemitted, fun node g' hg' => ?_⟩
  obtain ⟨g, hg, heq⟩ := hfind node g' hg'
  exact ⟨g, hg, by rw [heq]; rfl⟩

theorem Reports.refl (b : GatewayBridge F) : Reports b b :=
  .of_same rfl fun _ g' hg' => ⟨g', hg', rfl⟩

theorem Reports.trans (h : Reports b b') (h' : Reports b' b'') : Reports b b'' := by
  obtain ⟨new, hnew, hfind⟩ := h
  obtain ⟨new', hnew', hfind'⟩ := h'
  refine ⟨new ++ new', by rw [hnew', hnew, List.append_assoc], fun node g'' hg'' => ?_⟩
  obtain ⟨g', hg', heq'⟩ := hfind' node g'' hg''
  obtain ⟨g, hg, heq⟩ := hfind node g' hg'
  exact ⟨g, hg, by rw [heq', heq, toldFrom_append]⟩

theorem reports_failover (b : GatewayBridge F) (now : Nat) : Reports b (b.failover now) := by
  rcases failover_cases b now with ⟨heq, -⟩ | ⟨-, -, heq⟩ | ⟨next, -, -, heq⟩
  · rw [heq]; exact .refl b
  · rw [heq]; exact .of_same rfl fun _ g' hg' => ⟨g', hg', rfl⟩
  · -- a `Failover` says nothing about health
    refine ⟨[(now, .failover b.activeGateway next)], by rw [heq]; rfl, fun node g' hg' => ?_⟩
    rw [find_failover] at hg'
    exact ⟨g', hg', rfl⟩

theorem reports_recordHealth {gw gw' : GatewayState F} (hfind : b.find gw.node = some gw)
    (hnode : gw'.node = gw.node) (now : Nat) : Reports b (b.recordHealth gw gw' now) := by
  have hfinds := find_recordHealth hfind hnode now
  by_cases hkind : gw.health.kind = gw'.health.kind
  · refine ⟨[], by simp [recordHealth, hkind], fun node g' hg' => ?_⟩
    rw [hfinds] at hg'
    split at hg'
    · next heq =>
      obtain rfl := Option.some.inj hg'
      exact ⟨gw, heq ▸ hfind, hkind.symm⟩
    · exact ⟨g', hg', rfl⟩
  · refine ⟨[(now, .statusChange gw.node gw'.health)], by simp [recordHealth, hkind, push],
      fun node g' hg' => ?_⟩
    rw [hfinds] at hg'
    split at hg'
    · next heq =>
      obtain rfl := Option.some.inj hg'
      exact ⟨gw, heq ▸ hfind, by simp [toldFrom, statusOf, heq]⟩
    · next hne => exact ⟨g', hg', by simp [toldFrom, statusOf, Ne.symm hne]⟩

/-- **Reports**: every call but the registration of a node tells every change of health. -/
theorem reports_apply (b : GatewayBridge F) (now : Nat) (op : BridgeOp F)
    (hadd : ∀ node priority, op = .addGateway node priority → (b.find node).isSome) :
    Reports b (b.apply now op) := by
  cases op with
  | updateConfig config => exact .of_same rfl fun _ g' hg' => ⟨g', hg', rfl⟩
  | addGateway node priority =>
      have hsome := hadd node priority rfl
      rw [GatewayBridge.apply, addGateway_eq, if_pos hsome]
      exact .refl b
  | removeGateway node =>
      refine .of_same rfl fun n g' hg' => ?_
      simp only [GatewayBridge.apply, find_removeGateway] at hg'
      split at hg'
      · cases hg'
      · exact ⟨g', hg', rfl⟩
  | ensureActive =>
      simp only [GatewayBridge.apply, ensureActive]
      split
      · split
        · exact .refl b
        · exact reports_failover b now
      · exact .refl b
  | failover => exact reports_failover b now
  | recordHealthSuccess node responseMs =>
      simp only [GatewayBridge.apply, recordHealthSuccess]
      cases hfind : b.find node with
      | none => exact .refl b
      | some gw =>
          obtain rfl := find_node hfind
          refine reports_recordHealth hfind ?_ now
          rfl
  | recordHealthFailure node =>
      simp only [GatewayBridge.apply, recordHealthFailure]
      cases hfind : b.find node with
      | none => exact .refl b
      | some gw =>
          obtain rfl := find_node hfind
          have hrecord := reports_recordHealth hfind (node_failedCheck b gw now) now
          simp only
          split
          · exact hrecord.trans (reports_failover _ now)
          · exact hrecord
  | updatePacketLoss node lossRatio =>
      refine .of_same rfl fun n g' hg' => ?_
      have hhealth := find_updatePacketLoss b node lossRatio n
      rw [show (b.updatePacketLoss node lossRatio).find n = some g' from hg',
        Option.map_some] at hhealth
      obtain ⟨g, hg, heq⟩ := Option.map_eq_some_iff.mp hhealth.symm
      exact ⟨g, hg, heq.symm⟩
  | drainEvents => exact .of_same rfl fun _ g' hg' => ⟨g', hg', rfl⟩

/-- The events from `start node` on tell the health of every node. -/
def Told (b : GatewayBridge F) (start : UInt32 → Nat) : Prop :=
  ∀ node g, b.find node = some g → g.health.kind = lastStatus (b.emitted.drop (start node)) node

theorem Told.of_reports {start : UInt32 → Nat} (h : b.Told start)
    (hstart : ∀ node, start node ≤ b.emitted.length) (hreports : Reports b b') : b'.Told start := by
  obtain ⟨new, hnew, hfind⟩ := hreports
  intro node g' hg'
  obtain ⟨g, hg, heq⟩ := hfind node g' hg'
  rw [heq, h node g hg, hnew, List.drop_append_of_le_length (hstart node), lastStatus, lastStatus,
    toldFrom_append]

/-- The registration of a node starts with what its new record says: healthy. -/
theorem Told.addGateway {start start' : UInt32 → Nat} (h : b.Told start) {node : UInt32}
    (hnew : b.find node = none) (hsame : ∀ n, n ≠ node → start' n = start n)
    (hhealthy : lastStatus (b.emitted.drop (start' node)) node = .healthy) (priority : UInt8)
    (now : Nat) :
    (b.addGateway node priority now).Told start' := by
  have hemitted : (b.addGateway node priority now).emitted = b.emitted := by
    rw [addGateway_eq]
    split <;> rfl
  intro n g hg
  rw [find_addGateway] at hg
  rw [hemitted]
  by_cases hn : n = node
  · subst hn
    rw [if_pos ⟨rfl, hnew⟩] at hg
    obtain rfl := Option.some.inj hg
    exact hhealthy.symm
  · rw [if_neg fun hand => hn hand.1] at hg
    rw [hsame n hn]
    exact h n g hg

/-- A failed check leaves an offline gateway offline exactly if its failures still reach the
threshold. -/
theorem find_recordHealthFailure_of_offline {node : UInt32} {g : GatewayState F}
    (hfind : b.find node = some g) (hoffline : g.isAvailable = false) (now : Nat) :
    ∃ g', (b.recordHealthFailure node now).find node = some g' ∧
      (g'.isAvailable = false ↔ b.config.offlineCheckThreshold ≤ g.consecutiveFailures + 1) := by
  obtain rfl := find_node hfind
  refine ⟨b.failedCheck g now, ?_, ?_⟩
  · simp only [recordHealthFailure, hfind, hoffline, Bool.false_and, Bool.false_eq_true, if_false]
    rw [find_recordHealth hfind (node_failedCheck b g now), if_pos rfl]
  · rw [← Bool.not_eq_true, isAvailable_failedCheck, not_not]

end GatewayBridge

/-! ## Runs -/

namespace BridgeRun

variable {r r' : BridgeRun F} {call : Nat × BridgeOp F}

/-- The last status a node was reported with, since the beginning. -/
def statusEver (r : BridgeRun F) (node : UInt32) : HealthKind := lastStatus r.bridge.emitted node

/-- The last status a node was reported with, since it was registered. -/
def statusSince (r : BridgeRun F) (node : UInt32) : HealthKind :=
  lastStatus (r.bridge.emitted.drop (r.since node)) node

/-- What a call is to leave behind: an active gateway that is registered and not offline, if
any; every gateway with the health that was last reported; and, if it records a failed check
of an offline gateway, that gateway still offline. -/
structure Leaves (status : BridgeRun F → UInt32 → HealthKind) (r r' : BridgeRun F)
    (call : Nat × BridgeOp F) : Prop where
  active : r'.bridge.ActiveAvailable
  told : ∀ node g, r'.bridge.find node = some g → g.health.kind = status r' node
  offline : ∀ node g g', call.2 = .recordHealthFailure node → r.bridge.find node = some g →
    g.isAvailable = false → r'.bridge.find node = some g' → g'.isAvailable = false

/-- A failed check of an offline gateway finds its failures still reaching the threshold. -/
def StaysOffline (r : BridgeRun F) (call : Nat × BridgeOp F) : Prop :=
  r.clock ≤ call.1 → ∀ node g, call.2 = .recordHealthFailure node → r.bridge.find node = some g →
    g.isAvailable = false → r.bridge.config.offlineCheckThreshold ≤ g.consecutiveFailures + 1

/-- A node that is registered was never reported as anything but healthy, or was so last. -/
def AddsHealthy (r : BridgeRun F) (call : Nat × BridgeOp F) : Prop :=
  r.clock ≤ call.1 → ∀ node priority, call.2 = .addGateway node priority →
    r.bridge.find node = none → r.statusEver node = .healthy

/-- The invariant of every run. -/
structure Sound (r : BridgeRun F) : Prop where
  registered : r.bridge.Registered
  active : r.bridge.ActiveAvailable
  since_le : ∀ node, r.since node ≤ r.bridge.emitted.length
  told : r.bridge.Told r.since

theorem sound_start (config : BridgeConfig F) : (start config).Sound where
  registered := List.nodup_nil
  active _ h := by cases h
  since_le _ := Nat.le_refl 0
  told _ _ h := by cases h

/-- A call either registers a node or tells every change of health. -/
theorem adds_or_reports (b : GatewayBridge F) (now : Nat) (op : BridgeOp F) :
    (∃ node priority, op = .addGateway node priority ∧ b.find node = none) ∨
      b.Reports (b.apply now op) ∧ ∀ node priority, op = .addGateway node priority →
        (b.find node).isSome = true := by
  by_cases hadd : ∃ node priority, op = .addGateway node priority ∧ b.find node = none
  · exact .inl hadd
  · have hsome : ∀ node priority, op = .addGateway node priority → (b.find node).isSome = true := by
      intro node priority hop
      rw [Option.isSome_iff_ne_none]
      exact fun hnone => hadd ⟨node, priority, hop, hnone⟩
    exact .inr ⟨b.reports_apply now op hsome, hsome⟩

/-- **Step**: every call keeps the invariant. -/
theorem Sound.step (h : r.Sound) (hstep : r.step call = some r') : r'.Sound := by
  obtain ⟨-, rfl⟩ := step_eq_some hstep
  obtain ⟨now, op⟩ := call
  rcases adds_or_reports r.bridge now op with ⟨node, priority, rfl, hnone⟩ | ⟨hreports, hsome⟩
  · have hemitted : (r.bridge.addGateway node priority now).emitted = r.bridge.emitted := by
      rw [GatewayBridge.addGateway_eq]
      split <;> rfl
    have hsince : r.register (.addGateway node priority) =
        Function.update r.since node r.bridge.emitted.length := by
      simp [register, hnone]
    refine ⟨h.registered.addGateway node priority now, h.active.apply h.registered now _, ?_, ?_⟩
    · intro n
      change r.register (.addGateway node priority) n ≤
          (r.bridge.addGateway node priority now).emitted.length
      rw [hsince, hemitted, Function.update_apply]
      split
      · exact Nat.le_refl _
      · exact h.since_le n
    · change (r.bridge.addGateway node priority now).Told (r.register (.addGateway node priority))
      rw [hsince]
      refine h.told.addGateway hnone (fun n hn => Function.update_of_ne hn _ _) ?_ priority now
      simp [lastStatus, toldFrom]
  · have hsince : r.register op = r.since := by
      cases op with
      | addGateway node priority => simp [register, hsome node priority rfl]
      | _ => rfl
    refine ⟨h.registered.apply now op, h.active.apply h.registered now op, fun n => ?_, ?_⟩
    · obtain ⟨new, hnew, -⟩ := hreports
      change r.register op n ≤ (r.bridge.apply now op).emitted.length
      rw [hsince, hnew, List.length_append]
      exact (h.since_le n).trans (Nat.le_add_right _ _)
    · change (r.bridge.apply now op).Told (r.register op)
      rw [hsince]
      exact h.told.of_reports h.since_le hreports

/-- A call leaves offline gateways offline exactly under `StaysOffline`. -/
theorem offline_iff (r : BridgeRun F) (call : Nat × BridgeOp F) :
    (∀ r', r.step call = some r' → ∀ node g g', call.2 = .recordHealthFailure node →
      r.bridge.find node = some g → g.isAvailable = false → r'.bridge.find node = some g' →
      g'.isAvailable = false) ↔ r.StaysOffline call := by
  obtain ⟨now, op⟩ := call
  constructor
  · intro h hclock node g hop hfind hoffline
    have hop' : op = .recordHealthFailure node := hop
    subst hop'
    obtain ⟨g', hg', hiff⟩ := GatewayBridge.find_recordHealthFailure_of_offline hfind hoffline now
    exact hiff.mp (h _ (if_neg (not_lt.mpr hclock)) node g g' rfl hfind hoffline hg')
  · intro h r' hstep node g g' hop hfind hoffline hg'
    obtain ⟨hclock, rfl⟩ := step_eq_some hstep
    have hop' : op = .recordHealthFailure node := hop
    subst hop'
    obtain ⟨g'', hg'', hiff⟩ := GatewayBridge.find_recordHealthFailure_of_offline hfind hoffline now
    obtain rfl : g'' = g' := Option.some.inj (hg''.symm.trans hg')
    exact hiff.mpr (h hclock node g rfl hfind hoffline)

/-- Under the invariant, what a call leaves since registration depends on `StaysOffline` only. -/
theorem leaves_statusSince_iff (h : r.Sound) (call : Nat × BridgeOp F) :
    (∀ r', r.step call = some r' → Leaves statusSince r r' call) ↔ r.StaysOffline call := by
  rw [← offline_iff]
  constructor
  · intro hleaves r' hstep
    exact (hleaves r' hstep).offline
  · intro hoffline r' hstep
    have hsound := h.step hstep
    exact ⟨hsound.active, hsound.told, hoffline r' hstep⟩

/-- As long as the reports since the beginning are right, they stay so exactly under
`AddsHealthy`. -/
theorem leaves_statusEver_iff (h : r.Sound) (htold : r.bridge.Told fun _ => 0)
    (call : Nat × BridgeOp F) :
    (∀ r', r.step call = some r' → Leaves statusEver r r' call) ↔
      r.StaysOffline call ∧ r.AddsHealthy call := by
  rw [← offline_iff]
  obtain ⟨now, op⟩ := call
  constructor
  · intro hleaves
    refine ⟨fun r' hstep => (hleaves r' hstep).offline, fun hclock node priority hop hnone => ?_⟩
    have hop' : op = .addGateway node priority := hop
    subst hop'
    have hfind := r.bridge.find_addGateway node priority now node
    rw [if_pos ⟨rfl, hnone⟩] at hfind
    have hemitted : (r.bridge.addGateway node priority now).emitted = r.bridge.emitted := by
      rw [GatewayBridge.addGateway_eq]
      split <;> rfl
    have hkind := (hleaves _ (if_neg (not_lt.mpr hclock))).told node _ hfind
    change HealthKind.healthy = lastStatus (r.bridge.addGateway node priority now).emitted
        node at hkind
    rw [hemitted] at hkind
    exact hkind.symm
  · rintro ⟨hoffline, hadds⟩ r' hstep
    obtain ⟨hclock, rfl⟩ := step_eq_some hstep
    refine ⟨(h.step hstep).active, ?_, hoffline _ hstep⟩
    have htold' : (r.bridge.apply now op).Told fun _ => 0 := by
      rcases adds_or_reports r.bridge now op with ⟨node, priority, rfl, hnone⟩ | ⟨hreports, -⟩
      · refine htold.addGateway hnone (fun _ _ => rfl) ?_ priority now
        exact hadds hclock node priority rfl hnone
      · exact htold.of_reports (fun _ => Nat.zero_le _) hreports
    exact htold'

/-- **Health over runs**: in a run of any calls each one leaves what it is to leave exactly
if every failed check of an offline gateway finds its failures still reaching the threshold;
with reports counted over removals and registrations of a node, exactly if moreover no node
is registered whose last report was not healthy. -/
theorem gateway_health_iff (config : BridgeConfig F) (calls : List (Nat × BridgeOp F)) :
    (Machine.Meets step (fun r call => ∀ r', r.step call = some r' → Leaves statusSince r r' call)
        (start config) calls ↔
      Machine.Meets step StaysOffline (start config) calls) ∧
    (Machine.Meets step (fun r call => ∀ r', r.step call = some r' → Leaves statusEver r r' call)
        (start config) calls ↔
      Machine.Meets step (fun r call => r.StaysOffline call ∧ r.AddsHealthy call)
        (start config) calls) := by
  constructor
  · exact Machine.meets_congr (fun r call r' h _ hstep => Sound.step h hstep)
      (fun r call h => leaves_statusSince_iff h call) (sound_start config)
  · refine Machine.meets_congr (I := fun r : BridgeRun F => r.Sound ∧ r.bridge.Told fun _ => 0)
      (fun r call r' h hleaves hstep => ⟨h.1.step hstep, fun node g hg => ?_⟩)
      (fun r call h => leaves_statusEver_iff h.1 h.2 call)
      ⟨sound_start config, fun _ _ h => by cases h⟩
    exact (hleaves r' hstep).told node g hg

/-! ## Two runs -/

end BridgeRun

/-- The threshold is raised while a gateway is offline, and the next failed check makes it
available again.  A gateway that went offline, was removed and was added again is healthy,
while the last report of its node is that it is offline. -/
theorem offline_gateway_revived :
    (∃ r r' : BridgeRun sampleFloats,
      Machine.run BridgeRun.step (BridgeRun.start (sampleConfig 1))
        [(0, .addGateway 7 1), (1, .recordHealthFailure 7), (2, .updateConfig (sampleConfig 5))] =
          some r ∧
      r.step (3, .recordHealthFailure 7) = some r' ∧
      (r.bridge.find 7).map GatewayState.isAvailable = some false ∧
      (r'.bridge.find 7).map GatewayState.isAvailable = some true) ∧
    ∃ r : BridgeRun sampleFloats,
      Machine.run BridgeRun.step (BridgeRun.start (sampleConfig 1))
        [(0, .addGateway 7 1), (1, .recordHealthFailure 7), (2, .removeGateway 7),
          (3, .addGateway 7 1)] = some r ∧
      (r.bridge.find 7).map (·.health.kind) = some .healthy ∧ r.statusEver 7 = .offline := by
  constructor
  · have hsome : ((Machine.run BridgeRun.step (BridgeRun.start (sampleConfig 1))
        [(0, .addGateway 7 1), (1, .recordHealthFailure 7),
          (2, .updateConfig (sampleConfig 5))]).bind fun r =>
        (r.step (3, .recordHealthFailure 7)).map fun r' =>
          ((r.bridge.find 7).map GatewayState.isAvailable,
            (r'.bridge.find 7).map GatewayState.isAvailable)) = some (some false, some true) := by
      decide +kernel
    obtain ⟨r, hr, hnext⟩ := Option.bind_eq_some_iff.mp hsome
    obtain ⟨r', hr', hparts⟩ := Option.map_eq_some_iff.mp hnext
    obtain ⟨hbefore, hafter⟩ := Prod.mk.inj hparts
    exact ⟨r, r', hr, hr', hbefore, hafter⟩
  · have hsome : (Machine.run BridgeRun.step (BridgeRun.start (sampleConfig 1))
        [(0, .addGateway 7 1), (1, .recordHealthFailure 7), (2, .removeGateway 7),
          (3, .addGateway 7 1)]).map (fun r =>
        ((r.bridge.find 7).map (·.health.kind), r.statusEver 7)) =
          some (some .healthy, .offline) := by
      decide +kernel
    obtain ⟨r, hr, hparts⟩ := Option.map_eq_some_iff.mp hsome
    obtain ⟨hkind, hstatus⟩ := Prod.mk.inj hparts
    exact ⟨r, hr, hkind, hstatus⟩

end Akroasis.Mesh
