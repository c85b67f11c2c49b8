import Akroasis.Mesh.Bridge
import Mathlib.Data.List.Chain

/-!
# Akroasis.Mesh.Failover

How far apart the failovers of a bridge are, with a fixed configuration.

`ensure_active` waits for the cooldown, but `record_health_failure` does not: when it takes
the active gateway offline while another one is available, a `Failover` is emitted however
recent the last one is.  While a gateway is active, `last_failover` is the time of the last
`Failover` (`Timely`), so the events are a cooldown apart exactly if each such failed check
comes a cooldown after it.
-/

namespace Akroasis.Mesh

variable {F : Floats}

/-- The times of the `Failover` events. -/
def failoverTimes (events : List (Nat × GatewayEvent)) : List Nat :=
  events.filterMap fun
    | (time, .failover _ _) => some time
    | (_, .statusChange _ _) => none

/-- Consecutive `Failover` events are at least `cooldown` apart. -/
def Spaced (cooldown : Nat) (events : List (Nat × GatewayEvent)) : Prop :=
  (failoverTimes events).IsChain fun time time' => time + cooldown ≤ time'

instance (cooldown : Nat) (events : List (Nat × GatewayEvent)) :
    Decidable (Spaced cooldown events) :=
  inferInstanceAs (Decidable (List.IsChain _ _))

/-- The operations of a bridge with a fixed configuration, and no failover by hand. -/
def BridgeOp.Routine : BridgeOp F → Prop
  | .updateConfig _ | .failover => False
  | _ => True

theorem failoverTimes_failover (events : List (Nat × GatewayEvent)) (now : Nat)
    (previous : Option UInt32) (next : UInt32) :
    failoverTimes (events ++ [(now, .failover previous next)]) = failoverTimes events ++ [now] := by
  simp [failoverTimes]

theorem spaced_failover {cooldown now : Nat} {events : List (Nat × GatewayEvent)}
    {previous : Option UInt32} {next : UInt32} :
    Spaced cooldown (events ++ [(now, .failover previous next)]) ↔
      Spaced cooldown events ∧ ∀ time ∈ (failoverTimes events).getLast?, time + cooldown ≤ now := by
  rw [Spaced, failoverTimes_failover, List.isChain_append]
  simp [Spaced]

namespace GatewayBridge

variable {b b' : GatewayBridge F} {clock now : Nat}

/-- `b'` came from `b` without a failover. -/
structure Quiet (b b' : GatewayBridge F) : Prop where
  config_eq : b'.config = b.config
  times_eq : failoverTimes b'.emitted = failoverTimes b.emitted
  last_eq : b'.lastFailover = b.lastFailover
  active : ∀ node, b'.activeGateway = some node → b.activeGateway = some node

theorem quiet_recordHealth (b : GatewayBridge F) (gw gw' : GatewayState F) (now : Nat) :
    Quiet b (b.recordHealth gw gw' now) := by
  unfold recordHealth
  split
  · exact ⟨rfl, by simp [push, failoverTimes], rfl, fun _ h => h⟩
  · exact ⟨rfl, rfl, rfl, fun _ h => h⟩

/-- `last_failover` is not before the last `Failover`, and while a gateway is active it is
its time. -/
structure Timely (b : GatewayBridge F) (clock : Nat) : Prop where
  le_last : ∀ time ∈ (failoverTimes b.emitted).getLast?, ∃ last, b.lastFailover =
    some last ∧ time ≤ last
  active_last : ∀ node, b.activeGateway = some node →
    ∃ last, b.lastFailover = some last ∧ (failoverTimes b.emitted).getLast? = some last
  last_le : ∀ last, b.lastFailover = some last → last ≤ clock

theorem Timely.quiet (h : b.Timely clock) (hquiet : Quiet b b') (hclock : clock ≤ now) :
    b'.Timely now where
  le_last := by rw [hquiet.times_eq, hquiet.last_eq]; exact h.le_last
  active_last node hnode := by
    rw [hquiet.times_eq, hquiet.last_eq]
    exact h.active_last node (hquiet.active node hnode)
  last_le last hlast := (h.last_le last (hquiet.last_eq ▸ hlast)).trans hclock

theorem Timely.failover (h : b.Timely clock) (hclock : clock ≤ now) :
    (b.failover now).Timely now := by
  rcases failover_cases b now with ⟨heq, -⟩ | ⟨-, -, heq⟩ | ⟨next, -, -, heq⟩
  · rw [heq]
    exact h.quiet ⟨rfl, rfl, rfl, fun _ h => h⟩ hclock
  · rw [heq]
    refine ⟨fun time htime => ⟨now, rfl, ?_⟩, ?_, fun last hlast => ?_⟩
    · obtain ⟨last, hlast, hle⟩ := h.le_last time htime
      exact hle.trans ((h.last_le last hlast).trans hclock)
    · intro node hnode
      cases hnode
    · exact (Option.some.inj hlast).ge
  · have htimes : failoverTimes (b.failover now).emitted = failoverTimes b.emitted ++ [now] := by
      rw [heq]; exact failoverTimes_failover _ _ _ _
    have hlast : (b.failover now).lastFailover = some now := by rw [heq]; rfl
    refine ⟨fun time htime => ⟨now, hlast, ?_⟩, fun node _ => ⟨now, hlast, ?_⟩,
      fun last hlast' => ?_⟩
    · rw [htimes] at htime
      simp at htime
      exact htime.ge
    · rw [htimes]; simp
    · exact (Option.some.inj (hlast.symm.trans hlast')).ge

theorem Quiet.refl (b : GatewayBridge F) : Quiet b b := ⟨rfl, rfl, rfl, fun _ h => h⟩

/-- Of the routine calls only two can fail over. -/
theorem quiet_apply (b : GatewayBridge F) (now : Nat) {op : BridgeOp F} (hop : op.Routine)
    (hensure : op ≠ .ensureActive) (hfailure : ∀ node, op ≠ .recordHealthFailure node) :
    Quiet b (b.apply now op) := by
  cases op with
  | updateConfig config => exact absurd hop id
  | failover => exact absurd hop id
  | ensureActive => exact absurd rfl hensure
  | recordHealthFailure node => exact absurd rfl (hfailure node)
  | addGateway node priority =>
      rw [GatewayBridge.apply, addGateway_eq]
      split
      · exact .refl b
      · exact ⟨rfl, rfl, rfl, fun _ h => h⟩
  | removeGateway node =>
      refine ⟨rfl, rfl, rfl, fun n hn => ?_⟩
      simp only [GatewayBridge.apply, removeGateway] at hn
      split at hn
      · cases hn
      · exact hn
  | recordHealthSuccess node responseMs =>
      simp only [GatewayBridge.apply, recordHealthSuccess]
      cases b.find node with
      | none => exact .refl b
      | some gw => exact quiet_recordHealth b gw _ now
  | updatePacketLoss node lossRatio => exact ⟨rfl, rfl, rfl, fun _ h => h⟩
  | drainEvents => exact ⟨rfl, rfl, rfl, fun _ h => h⟩

/-- A routine call changes nothing about failovers, or ends with one. -/
theorem quiet_or_failover (b : GatewayBridge F) (now : Nat) {op : BridgeOp F} (hop : op.Routine) :
    Quiet b (b.apply now op) ∨ ∃ b₁, Quiet b b₁ ∧ b.apply now op = b₁.failover now := by
  cases op with
  | ensureActive =>
      simp only [GatewayBridge.apply, ensureActive]
      split
      · split
        · exact .inl (.refl b)
        · exact .inr ⟨b, .refl b, rfl⟩
      · exact .inl (.refl b)
  | recordHealthFailure node =>
      simp only [GatewayBridge.apply, recordHealthFailure]
      cases b.find node with
      | none => exact .inl (.refl b)
      | some gw =>
          have hquiet := quiet_recordHealth b gw (b.failedCheck gw now) now
          simp only
          split
          · exact .inr ⟨_, hquiet, rfl⟩
          · exact .inl hquiet
  | _ => exact .inl (quiet_apply b now hop (by simp) (by simp))

theorem config_failover (b : GatewayBridge F) (now : Nat) : (b.failover now).config = b.config := by
  rcases failover_cases b now with ⟨heq, -⟩ | ⟨-, -, heq⟩ | ⟨next, -, -, heq⟩ <;> rw [heq]
  rfl

/-- A failover that the cooldown allows keeps the events apart. -/
theorem spaced_failover_of_cooled {cooldown : Nat} (h : Spaced cooldown b.emitted)
    (hcooled : ∀ time ∈ (failoverTimes b.emitted).getLast?, time + cooldown ≤ now) :
    Spaced cooldown (b.failover now).emitted := by
  rcases failover_cases b now with ⟨heq, -⟩ | ⟨-, -, heq⟩ | ⟨next, -, -, heq⟩
  · rwa [heq]
  · rwa [heq]
  · rw [heq]
    exact spaced_failover.mpr ⟨h, hcooled⟩

/-- `ensure_active` fails over only when the cooldown has passed. -/
theorem spaced_ensureActive (h : b.Timely clock) (hclock : clock ≤ now) :
    Spaced b.config.failoverCooldown (b.ensureActive now).emitted ↔
      Spaced b.config.failoverCooldown b.emitted := by
  unfold ensureActive
  by_cases hneeds : b.needsSelection = true
  · by_cases hcooling : b.coolingDown now = true
    · simp [hneeds, hcooling]
    · simp only [hneeds, hcooling, if_true, if_false, Bool.false_eq_true]
      constructor
      · intro hspaced
        rcases failover_cases b now with ⟨heq, -⟩ | ⟨-, -, heq⟩ | ⟨next, -, -, heq⟩
        · rwa [heq] at hspaced
        · rwa [heq] at hspaced
        · rw [heq] at hspaced
          exact (spaced_failover.mp hspaced).1
      · intro hspaced
        refine spaced_failover_of_cooled hspaced fun time htime => ?_
        obtain ⟨last, hlast, hle⟩ := h.le_last time htime
        have hle' := (h.last_le last hlast).trans hclock
        simp only [coolingDown, hlast, decide_eq_true_eq, not_lt] at hcooling
        omega
  · simp [hneeds]

/-- A failed check that takes the active gateway offline while another one is available. -/
def TakesActiveOffline (b : GatewayBridge F) (node : UInt32) : Prop :=
  b.activeGateway = some node ∧
    (∃ g, b.find node = some g ∧ b.config.offlineCheckThreshold ≤ g.consecutiveFailures + 1) ∧
    ∃ other g, other ≠ node ∧ b.find other = some g ∧ g.isAvailable = true

/-- With the active gateway gone, another one is selected exactly if one is available. -/
theorem selectGateway_of_taken {gw gw' : GatewayState F} (hreg : b.Registered)
    (hfind : b.find gw.node = some gw) (hnode : gw'.node = gw.node)
    (hgone : gw'.isAvailable = false) (now : Nat) :
    (b.recordHealth gw gw' now).selectGateway ≠ some gw.node ∧
      ((b.recordHealth gw gw' now).selectGateway ≠ none ↔
        ∃ other g, other ≠ gw.node ∧ b.find other = some g ∧ g.isAvailable = true) := by
  have hfinds := find_recordHealth hfind hnode now
  have hselected : ∀ next, (b.recordHealth gw gw' now).selectGateway = some next →
      next ≠ gw.node ∧ ∃ g, b.find next = some g ∧ g.isAvailable = true := by
    intro next hsel
    obtain ⟨g, hg, havail⟩ := (hreg.recordHealth hnode now).find_of_selectGateway hsel
    rw [hfinds] at hg
    split at hg
    · rw [← Option.some.inj hg, hgone] at havail
      cases havail
    · next hne => exact ⟨hne, g, hg, havail⟩
  refine ⟨fun hsel => (hselected _ hsel).1 rfl, fun hsome => ?_, ?_⟩
  · obtain ⟨next, hnext⟩ := Option.ne_none_iff_exists'.mp hsome
    obtain ⟨hne, g, hg, havail⟩ := hselected next hnext
    exact ⟨next, g, hne, hg, havail⟩
  · rintro ⟨other, g, hne, hg, havail⟩
    rw [← Option.isSome_iff_ne_none]
    have hsome : (b.recordHealth gw gw' now).find other = some g := by rw [hfinds, if_neg hne, hg]
    exact selectGateway_isSome hsome havail

/-- A failed check emits a `Failover` exactly when it takes the active gateway offline while
another one is available. -/
theorem spaced_recordHealthFailure {cooldown : Nat} (hreg : b.Registered)
    (hactive : b.ActiveAvailable) (node : UInt32) (now : Nat) :
    Spaced cooldown (b.recordHealthFailure node now).emitted ↔
      Spaced cooldown b.emitted ∧ (b.TakesActiveOffline node →
        ∀ time ∈ (failoverTimes b.emitted).getLast?, time + cooldown ≤ now) := by
  cases hfind : b.find node with
  | none =>
      have hnot : ¬ b.TakesActiveOffline node := by
        intro htakes
        obtain ⟨g, hg, -⟩ := htakes.2.1
        rw [hfind] at hg
        cases hg
      simp [recordHealthFailure, hfind, hnot]
  | some gw =>
      obtain rfl := find_node hfind
      have htimes := (quiet_recordHealth b gw (b.failedCheck gw now) now).times_eq
      have hactive₁ := activeGateway_recordHealth b gw (b.failedCheck gw now) now
      rw [hactive.recordHealthFailure_eq hfind]
      split
      · next hoff =>
        have hgone : (b.failedCheck gw now).isAvailable = false := by
          rw [← Bool.not_eq_true, isAvailable_failedCheck, not_not]
          exact hoff.2
        obtain ⟨hother, hselect⟩ :=
          selectGateway_of_taken hreg hfind (node_failedCheck b gw now) hgone now
        have htakes : b.TakesActiveOffline gw.node ↔
            (b.recordHealth gw (b.failedCheck gw now) now).selectGateway ≠ none := by
          rw [hselect]
          exact ⟨fun h => h.2.2, fun h => ⟨hoff.1, ⟨gw, hfind, hoff.2⟩, h⟩⟩
        rcases failover_cases (b.recordHealth gw (b.failedCheck gw now) now) now with
          ⟨-, hsel⟩ | ⟨hsel, -, heq⟩ | ⟨next, hsel, -, heq⟩
        · exact absurd (hsel.trans (hactive₁.trans hoff.1)) hother
        · rw [heq, htakes, hsel]
          simp [Spaced, htimes]
        · rw [heq, htakes, hsel]
          refine spaced_failover.trans ?_
          rw [Spaced, htimes]
          simp [Spaced]
      · next hstays =>
        have hnot : ¬ b.TakesActiveOffline gw.node := by
          intro htakes
          obtain ⟨g, hg, hreach⟩ := htakes.2.1
          obtain rfl := Option.some.inj (hg.symm.trans hfind)
          exact hstays ⟨htakes.1, hreach⟩
        simp [hnot, Spaced, htimes]

end GatewayBridge

/-! ## Runs -/

namespace BridgeRun

variable {r r' : BridgeRun F} {call : Nat × BridgeOp F}

/-- A failed check that takes the active gateway offline while another one is available
comes no earlier than a cooldown after the last failover. -/
def CooledDown (r : BridgeRun F) (call : Nat × BridgeOp F) : Prop :=
  r.clock ≤ call.1 → ∀ node, call.2 = .recordHealthFailure node → r.bridge.TakesActiveOffline node →
    ∀ last, r.bridge.lastFailover = some last → last + r.bridge.config.failoverCooldown ≤ call.1

/-- The invariant of a run with a fixed configuration. -/
structure Steady (config : BridgeConfig F) (r : BridgeRun F) : Prop where
  config_eq : r.bridge.config = config
  registered : r.bridge.Registered
  active : r.bridge.ActiveAvailable
  timely : r.bridge.Timely r.clock

theorem steady_start (config : BridgeConfig F) : Steady config (start config) where
  config_eq := rfl
  registered := List.nodup_nil
  active _ h := by cases h
  timely := ⟨fun _ h => (by cases h), fun _ h => (by cases h), fun _ h => (by cases h)⟩

/-- **Step**: routine calls keep the invariant. -/
theorem Steady.step {config : BridgeConfig F} (h : Steady config r) (hop : call.2.Routine)
    (hstep : r.step call = some r') : Steady config r' := by
  obtain ⟨hclock, rfl⟩ := step_eq_some hstep
  obtain ⟨now, op⟩ := call
  have hreg := h.registered.apply now op
  have hactive := h.active.apply h.registered now op
  rcases GatewayBridge.quiet_or_failover r.bridge now hop with hquiet | ⟨b₁, hquiet, heq⟩
  · exact ⟨hquiet.config_eq.trans h.config_eq, hreg, hactive, h.timely.quiet hquiet hclock⟩
  · refine ⟨?_, hreg, hactive, ?_⟩
    · change (r.bridge.apply now op).config = config
      rw [heq, GatewayBridge.config_failover, hquiet.config_eq, h.config_eq]
    · change (r.bridge.apply now op).Timely now
      rw [heq]
      exact (h.timely.quiet hquiet (Nat.le_refl _)).failover hclock

/-- One call keeps the `Failover` events apart exactly under `CooledDown`. -/
theorem spaced_step_iff {config : BridgeConfig F} (h : Steady config r) (hop : call.2.Routine)
    (hstep : r.step call = some r') :
    Spaced config.failoverCooldown r'.bridge.emitted ↔
      Spaced config.failoverCooldown r.bridge.emitted ∧ r.CooledDown call := by
  obtain ⟨hclock, rfl⟩ := step_eq_some hstep
  obtain ⟨now, op⟩ := call
  obtain rfl := h.config_eq
  by_cases hfailure : ∃ node, op = .recordHealthFailure node
  · obtain ⟨node, rfl⟩ := hfailure
    refine (GatewayBridge.spaced_recordHealthFailure h.registered h.active node now).trans ?_
    refine and_congr_right fun _ => ?_
    -- the active gateway's `last_failover` is the time of the last event
    have hlast : r.bridge.TakesActiveOffline node → (failoverTimes r.bridge.emitted).getLast? =
        r.bridge.lastFailover := by
      intro htakes
      obtain ⟨last, hlast, htimes⟩ := h.timely.active_last node htakes.1
      rw [hlast, htimes]
    constructor
    · intro hall _ n hn htakes last hlast'
      obtain rfl : node = n := by injection hn
      exact hall htakes last (by rw [hlast htakes]; exact hlast')
    · intro hcooled htakes time htime
      rw [hlast htakes] at htime
      exact hcooled hclock node rfl htakes time htime
  · have htrivial : r.CooledDown (now, op) := fun _ node hop' => absurd ⟨node, hop'⟩ hfailure
    rw [iff_of_true htrivial trivial, and_true]
    by_cases hensure : op = .ensureActive
    · subst hensure
      exact GatewayBridge.spaced_ensureActive h.timely hclock
    · have hquiet := GatewayBridge.quiet_apply r.bridge now hop hensure fun node hop' =>
        hfailure ⟨node, hop'⟩
      rw [Spaced, hquiet.times_eq, Spaced]

/-- **Cooldown**: in a run of routine calls consecutive `Failover` events are at least the
cooldown apart exactly if every failed check that takes the active gateway offline while
another one is available comes at least the cooldown after the last failover. -/
theorem failover_cooldown_iff (config : BridgeConfig F) {calls : List (Nat × BridgeOp F)}
    (hroutine : ∀ call ∈ calls, call.2.Routine) {r : BridgeRun F}
    (hrun : Machine.run step (start config) calls = some r) :
    Spaced config.failoverCooldown r.bridge.emitted ↔
      Machine.Meets step CooledDown (start config) calls := by
  have hall : ∀ (s : BridgeRun F), Steady config s → Machine.run step s calls = some r →
      (Spaced config.failoverCooldown r.bridge.emitted ↔
        Spaced config.failoverCooldown s.bridge.emitted ∧
        Machine.Meets step CooledDown s calls) := by
    clear hrun
    induction calls with
    | nil =>
        intro s _ hrun
        obtain rfl := Option.some.inj hrun
        simp [Machine.Meets]
    | cons call calls ih =>
        intro s hs hrun
        obtain ⟨t, ht, hrest⟩ := Option.bind_eq_some_iff.mp (Machine.run_cons ▸ hrun)
        have hcall := hroutine call List.mem_cons_self
        rw [ih (fun c hc => hroutine c (List.mem_cons_of_mem _ hc)) t (hs.step hcall ht) hrest,
          spaced_step_iff hs hcall ht, and_assoc]
        simp [Machine.Meets, ht]
  rw [hall _ (steady_start config) hrun]
  exact and_iff_right .nil

/-- Two gateways; the first one goes offline a minute after it was selected. -/
theorem failover_cooldown_after_a_minute :
    ∃ r, Machine.run step (start (sampleConfig 1))
        [(0, .addGateway 7 1), (0, .addGateway 8 2), (0, .ensureActive),
          (60000000000, .recordHealthFailure 7)] = some r ∧
      Machine.Meets step CooledDown (start (sampleConfig 1))
        [(0, .addGateway 7 1), (0, .addGateway 8 2), (0, .ensureActive),
          (60000000000, .recordHealthFailure 7)] := by
  have hsome : (Machine.run step (start (sampleConfig 1))
      [(0, .addGateway 7 1), (0, .addGateway 8 2), (0, .ensureActive),
        (60000000000, .recordHealthFailure 7)]).map (fun r =>
          decide (Spaced (sampleConfig 1).failoverCooldown r.bridge.emitted)) = some true := by
    decide +kernel
  obtain ⟨r, hr, hspaced⟩ := Option.map_eq_some_iff.mp hsome
  refine ⟨r, hr, (failover_cooldown_iff (sampleConfig 1) ?_ hr).mp (of_decide_eq_true hspaced)⟩
  simp [BridgeOp.Routine]

/-- The first one goes offline a nanosecond after it was selected: the second failover does
not wait for the cooldown of thirty seconds. -/
theorem failovers_a_nanosecond_apart :
    (Machine.run step (start (sampleConfig 1))
      [(0, .addGateway 7 1), (0, .addGateway 8 2), (0, .ensureActive),
        (1, .recordHealthFailure 7)]).map (fun r =>
          (failoverTimes r.bridge.emitted, r.bridge.config.failoverCooldown)) =
      some ([0, 1], 30000000000) ∧
    (Machine.run step (start (sampleConfig 1))
      [(0, .addGateway 7 1), (0, .addGateway 8 2), (0, .ensureActive),
        (1, .recordHealthFailure 7)]).map (fun r =>
          decide (Spaced (sampleConfig 1).failoverCooldown r.bridge.emitted)) = some false := by
  constructor
  · decide +kernel
  · decide +kernel

end BridgeRun

end Akroasis.Mesh
