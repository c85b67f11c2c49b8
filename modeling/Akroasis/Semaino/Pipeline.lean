import Akroasis.Machine
import Akroasis.Semaino.Alert
import Akroasis.Semaino.Convergence

/-!
# Akroasis.Semaino.Pipeline

The signal pipeline (`semaino::pipeline`, `semaino::aggregator`): three tasks and their
channels.  The drain task moves signals of a broadcast channel to a bounded queue, the main
loop ingests them into the grid and passes them on through a second bounded queue, and the
aggregator scores them and returns the notable ones through an unbounded queue to the main
loop, which raises alerts.

A state of the machine is what the tasks and the queues hold, and an action is one task
getting from one of its awaits to the next, so that the runs of the machine are the
interleavings of the tasks.  The fields of `History` record what happened and are read by no
task.  `Lossless` says where every signal is, and `Replayed` that the grid and the alerts are those
of the recorded calls; `measure` decreases with every action.
-/

namespace Akroasis.Semaino

/-! ## The aggregator -/

/-- The baselines of `stoicheion`, and the feature of a signal that they are about. -/
structure Baselines where
  Detail : Type
  Feature : Type
  Baseline : Type
  default : Baseline
  dayHour : Timestamp → UInt8 × UInt8
  score : Baseline → UInt8 × UInt8 → Feature → AnomalyScore
  bucketStats : Baseline → UInt8 × UInt8 → Option UInt64 × Option UInt64
  observe : Baseline → UInt8 × UInt8 → Feature → Baseline
  extractFeature : GeoSignal → Detail → Option Feature
  -- `Timestamp::from_unix_millis`
  fromUnixMillis : ℤ → Option Timestamp

/-- A signal of the stream: with an id, and with what its domain says of it. -/
structure Signal (B : Baselines) where
  geo : GeoSignal
  signalId : Nat
  detail : B.Detail

/-- `SignalAggregator`, with a baseline for each domain. -/
structure SignalAggregator (B : Baselines) where
  baselines : Table SignalKind B.Baseline

variable {B : Baselines}

namespace SignalAggregator

/-- `new`. -/
def new : SignalAggregator B := ⟨∅⟩

/-- `is_notable`. -/
def isNotable : AnomalyScore → Bool
  | .elevated _ | .anomalous _ => true
  | _ => false

/-- One round of `run`: the score, and the statistics it was computed from, precede the
update of the baseline. -/
def observe (agg : SignalAggregator B) (s : Signal B) :
    SignalAggregator B × Option AggregatedSignal :=
  match B.extractFeature s.geo s.detail with
  | none => (agg, none)
  | some feature =>
      let bucket := B.dayHour s.geo.timestamp
      let baseline := (agg.baselines.lookup s.geo.kind).getD B.default
      let score := B.score baseline bucket feature
      let (mean, stddev) := B.bucketStats baseline bucket
      (⟨agg.baselines.insert s.geo.kind (B.observe baseline bucket feature)⟩,
        if isNotable score then some ⟨s.geo, s.signalId, score, mean, stddev⟩ else none)

/-- The aggregates of signals one after another, and the aggregator after them. -/
def observeAll (agg : SignalAggregator B) (signals : List (Signal B)) :
    SignalAggregator B × List AggregatedSignal :=
  signals.foldl (fun (agg, out) s => ((agg.observe s).1, out ++ (agg.observe s).2.toList)) (agg, [])

/-- The notable signals, scored in order. -/
def notable (signals : List (Signal B)) : List AggregatedSignal :=
  ((new : SignalAggregator B).observeAll signals).2

theorem observeAll_concat (agg : SignalAggregator B) (signals : List (Signal B)) (s : Signal B) :
    agg.observeAll (signals ++ [s]) = ((((agg.observeAll signals).1.observe s).1,
      (agg.observeAll signals).2 ++ ((agg.observeAll signals).1.observe s).2.toList)) := by
  simp [observeAll]

/-- The aggregates of a list are those of its front, and then those of its rest. -/
theorem observeAll_append (agg : SignalAggregator B) (xs ys : List (Signal B)) :
    agg.observeAll (xs ++ ys) = (((agg.observeAll xs).1.observeAll ys).1,
      (agg.observeAll xs).2 ++ ((agg.observeAll xs).1.observeAll ys).2) := by
  induction ys using List.reverseRecOn with
  | nil => simp [observeAll]
  | append_singleton ys y ih =>
      rw [← List.append_assoc, observeAll_concat, ih, observeAll_concat]
      simp

theorem notable_prefix {xs ys : List (Signal B)} (h : xs <+: ys) : notable xs <+: notable ys := by
  obtain ⟨zs, rfl⟩ := h
  simp only [notable, observeAll_append]
  exact List.prefix_append _ _

end SignalAggregator

/-! ## The main task's own state -/

/-- `SemainoPipeline`. -/
structure SemainoPipeline where
  grid : ConvergenceGrid
  alerts : AlertPipeline
  timeWindowMs : Nat
  minConvergenceDomains : Nat

/-- `SemainoConfig`. -/
structure SemainoConfig where
  gridResolution : Nat
  timeWindowSecs : Nat
  suppressionWindowSecs : Nat
  minConvergenceDomains : Nat

/-- What the handling of an aggregate reads of the clock, and the id of an alert. -/
structure HandlingInput where
  now : Timestamp
  alertNow : ClockReading
  alertId : Nat
  alertTimestamp : ClockReading

namespace SemainoPipeline

/-- `new`. -/
def new (config : SemainoConfig) : SemainoPipeline :=
  ⟨.new config.gridResolution, .new config.suppressionWindowSecs config.gridResolution,
    config.timeWindowSecs * 1000, config.minConvergenceDomains⟩

/-- The ingestion of a signal with the eviction after it. -/
def ingest (B : Baselines) (p : SemainoPipeline) (s : GeoSignal) (now : Timestamp) :
    SemainoPipeline :=
  let grid := p.grid.ingest s
  match B.fromUnixMillis (cutoffMs now p.timeWindowMs) with
  | some olderThan => { p with grid := grid.evict olderThan }
  | none => { p with grid := grid }

/-- Only the grid changes. -/
theorem ingest_eq (B : Baselines) (p : SemainoPipeline) (s : GeoSignal) (now : Timestamp) :
    p.ingest B s now = { p with grid := (p.ingest B s now).grid } := by
  unfold ingest
  split <;> rfl

/-- `handle_aggregated`, with the alert it produced. -/
def handleAggregated (p : SemainoPipeline) (aggregated : AggregatedSignal) (input : HandlingInput) :
    SemainoPipeline × Option Alert :=
  let grid := p.grid.ingest aggregated.signal
  let convergence := aggregated.signal.location.bind fun coords =>
    grid.detectAt coords p.minConvergenceDomains p.timeWindowMs input.now
  let (alert, alerts) := p.alerts.process
    ⟨aggregated, convergence, input.alertNow, input.alertId, input.alertTimestamp⟩
  ({ p with grid := grid, alerts := alerts }, alert)

end SemainoPipeline

/-! ## The calls of the main task -/

/-- A signal is ingested, or an aggregate handled. -/
inductive MainCall (B : Baselines) where
  | ingest (s : Signal B) (now : Timestamp)
  | handle (a : AggregatedSignal) (input : HandlingInput)

namespace MainCall

@[simp] def ingested? : MainCall B → Option (Signal B)
  | .ingest s _ => some s
  | .handle _ _ => none

@[simp] def handled? : MainCall B → Option AggregatedSignal
  | .ingest _ _ => none
  | .handle a _ => some a

/-- What a call does to the grid. -/
def gridCalls (config : SemainoConfig) : MainCall B → List GridCall
  | .ingest s now =>
      let cutoff := B.fromUnixMillis (cutoffMs now (config.timeWindowSecs * 1000))
      .ingest s.geo :: (cutoff.map GridCall.evict).toList
  | .handle a _ => [.ingest a.signal]

end MainCall

/-- The grid after some calls. -/
def gridAfter (config : SemainoConfig) (calls : List (MainCall B)) : ConvergenceGrid :=
  replay config.gridResolution (calls.flatMap (MainCall.gridCalls config))

/-- What a handling asks of the alert pipeline: convergence is looked for in the grid that holds
the signal of the aggregate and what the calls before have left. -/
def alertCall (config : SemainoConfig) (before : List (MainCall B)) (a : AggregatedSignal)
    (input : HandlingInput) : AlertCall where
  aggregated := a
  convergence := a.signal.location.bind fun coords =>
    (gridAfter config (before ++ [.handle a input])).detectAt coords config.minConvergenceDomains
      (config.timeWindowSecs * 1000) input.now
  now := input.alertNow
  id := input.alertId
  timestamp := input.alertTimestamp

/-- The calls so far, the alert pipeline after them, and its alerts. -/
abbrev Alerting (B : Baselines) := List (MainCall B) × AlertPipeline × List Alert

def Alerting.next (config : SemainoConfig) (r : Alerting B) (call : MainCall B) : Alerting B :=
  match call with
  | .ingest _ _ => (r.1 ++ [call], r.2)
  | .handle a input =>
      let (alert, alerts) := r.2.1.process (alertCall config r.1 a input)
      (r.1 ++ [call], alerts, r.2.2 ++ alert.toList)

/-- The alert pipeline after some calls, and its alerts. -/
def alertsAfter (config : SemainoConfig) (calls : List (MainCall B)) : Alerting B :=
  calls.foldl (Alerting.next config)
    ([], .new config.suppressionWindowSecs config.gridResolution, [])

theorem gridAfter_concat (config : SemainoConfig) (calls : List (MainCall B)) (call : MainCall B) :
    gridAfter config (calls ++ [call]) =
      (call.gridCalls config).foldl GridCall.apply (gridAfter config calls) := by
  simp [gridAfter, replay]

theorem alertsAfter_concat (config : SemainoConfig) (calls : List (MainCall B))
    (call : MainCall B) :
    alertsAfter config (calls ++ [call]) = (alertsAfter config calls).next config call := by
  simp [alertsAfter]

theorem alertsAfter_fst (config : SemainoConfig) (calls : List (MainCall B)) :
    (alertsAfter config calls).1 = calls := by
  induction calls using List.reverseRecOn with
  | nil => rfl
  | append_singleton calls call ih =>
      rw [alertsAfter_concat]
      cases call <;> simp [Alerting.next, ih]

/-! ## Tasks and channels -/

/-- The capacity of the two bounded channels. -/
def channelCapacity : Nat := 256

/-- What the broadcast receiver returns before it is closed. -/
inductive StreamItem (B : Baselines) where
  | signal (s : Signal B)
  | lagged (dropped : Nat)

/-- The drain task: awaiting the broadcast, awaiting room for a signal, or gone. -/
inductive FanTask (B : Baselines) where
  | receiving
  | sending (s : Signal B)
  | done

/-- The main task: in its `select!`, awaiting room for an ingested signal, draining the
aggregates, awaiting the end of the two other tasks, or returned. -/
inductive MainTask (B : Baselines) where
  | selecting
  | forwarding (s : Signal B)
  | draining
  | joiningFan
  | joiningAgg
  | returned

/-- The aggregator task: awaiting a signal, scoring one, or gone. -/
inductive AggTask (B : Baselines) where
  | receiving
  | scoring (s : Signal B)
  | done

/-- What happened so far. -/
structure History (B : Baselines) where
  received : List (Signal B)
  calls : List (MainCall B)
  forwarded : List (Signal B)
  scored : List (Signal B)
  alerts : List Alert

/-- The signals that were ingested. -/
@[simp] def History.ingested (h : History B) : List (Signal B) :=
  h.calls.filterMap MainCall.ingested?

/-- The aggregates that were handled. -/
@[simp] def History.handled (h : History B) : List AggregatedSignal :=
  h.calls.filterMap MainCall.handled?

structure PipelineState (B : Baselines) where
  stream : List (StreamItem B)
  fan : FanTask B
  signalQueue : List (Signal B)
  main : MainTask B
  pipeline : SemainoPipeline
  innerQueue : List (Signal B)
  agg : AggTask B
  aggregator : SignalAggregator B
  aggQueue : List AggregatedSignal
  history : History B

/-- A task gets to its next await. -/
inductive Action where
  | fanRecv
  | fanSend
  | mainSignal (now : Timestamp)
  | mainForward
  | mainAggregated (input : HandlingInput)
  | mainJoin
  | aggRecv
  | aggScore

/-- The signal a task holds. -/
def FanTask.held : FanTask B → List (Signal B)
  | .sending s => [s]
  | _ => []

def MainTask.held : MainTask B → List (Signal B)
  | .forwarding s => [s]
  | _ => []

def AggTask.held : AggTask B → List (Signal B)
  | .scoring s => [s]
  | _ => []

/-- The main task has left its loop and dropped the sender of the aggregator. -/
def MainTask.hasLeft : MainTask B → Bool
  | .selecting | .forwarding _ => false
  | _ => true

/-- The main task has seen the end of the aggregates. -/
def MainTask.hasDrained : MainTask B → Bool
  | .selecting | .forwarding _ | .draining => false
  | _ => true

def MainTask.hasReturned : MainTask B → Bool
  | .returned => true
  | _ => false

def FanTask.isDone : FanTask B → Bool
  | .done => true
  | _ => false

def AggTask.isDone : AggTask B → Bool
  | .done => true
  | _ => false

theorem MainTask.hasDrained_of_hasReturned {t : MainTask B} (h : t.hasReturned = true) :
    t.hasDrained = true := by
  cases t <;> simp_all [hasReturned, hasDrained]

theorem MainTask.hasLeft_of_hasDrained {t : MainTask B} (h : t.hasDrained = true) :
    t.hasLeft = true := by
  cases t <;> simp_all [hasLeft, hasDrained]

namespace PipelineState

/-- The state in which `run` is called. -/
def start (config : SemainoConfig) (stream : List (StreamItem B)) : PipelineState B where
  stream := stream
  fan := .receiving
  signalQueue := []
  main := .selecting
  pipeline := .new config
  innerQueue := []
  agg := .receiving
  aggregator := .new
  aggQueue := []
  history := ⟨[], [], [], [], []⟩

/-- The drain task takes an item, or sees that the broadcast is closed. -/
def fanRecv (s : PipelineState B) : Option (PipelineState B) :=
  match s.fan, s.stream with
  | .receiving, .signal x :: rest => some { s with
      stream := rest, fan := .sending x, history.received := s.history.received ++ [x] }
  | .receiving, .lagged _ :: rest => some { s with stream := rest }
  | .receiving, [] => some { s with fan := .done }
  | _, _ => none

/-- The drain task's signal is sent once there is room, or refused by a receiver that is gone. -/
def fanSend (s : PipelineState B) : Option (PipelineState B) :=
  match s.fan with
  | .sending x =>
      if s.main.hasReturned then some { s with fan := .done }
      else if s.signalQueue.length < channelCapacity then
        some { s with fan := .receiving, signalQueue := s.signalQueue ++ [x] }
      else none
  | _ => none

/-- The main task takes a signal and ingests it, or sees that there are no more. -/
def mainSignal (s : PipelineState B) (now : Timestamp) : Option (PipelineState B) :=
  match s.main, s.signalQueue with
  | .selecting, x :: rest => some { s with
      signalQueue := rest, main := .forwarding x, pipeline := s.pipeline.ingest B x.geo now,
      history.calls := s.history.calls ++ [.ingest x now] }
  | .selecting, [] => if s.fan.isDone then some { s with main := .draining } else none
  | _, _ => none

/-- The ingested signal is passed on once there is room, or dropped if the aggregator is gone. -/
def mainForward (s : PipelineState B) : Option (PipelineState B) :=
  match s.main with
  | .forwarding x =>
      if s.agg.isDone then some { s with main := .selecting }
      else if s.innerQueue.length < channelCapacity then
        some { s with
          main := .selecting, innerQueue := s.innerQueue ++ [x],
          history.forwarded := s.history.forwarded ++ [x] }
      else none
  | _ => none

/-- The state after an aggregate was handled. -/
def handle (s : PipelineState B) (a : AggregatedSignal) (rest : List AggregatedSignal)
    (input : HandlingInput) : PipelineState B :=
  let (pipeline, alert) := s.pipeline.handleAggregated a input
  { s with
    aggQueue := rest, pipeline := pipeline,
    history.calls := s.history.calls ++ [.handle a input],
    history.alerts := s.history.alerts ++ alert.toList }

/-- The main task handles an aggregate, in its loop or after it, or sees that there are no
more.  In the loop a closed channel only disables the branch. -/
def mainAggregated (s : PipelineState B) (input : HandlingInput) : Option (PipelineState B) :=
  match s.main, s.aggQueue with
  | .selecting, a :: rest => some (s.handle a rest input)
  | .draining, a :: rest => some (s.handle a rest input)
  | .draining, [] => if s.agg.isDone then some { s with main := .joiningFan } else none
  | _, _ => none

/-- The main task sees the end of another task. -/
def mainJoin (s : PipelineState B) : Option (PipelineState B) :=
  match s.main with
  | .joiningFan => if s.fan.isDone then some { s with main := .joiningAgg } else none
  | .joiningAgg => if s.agg.isDone then some { s with main := .returned } else none
  | _ => none

/-- The aggregator takes a signal, or sees that there are no more. -/
def aggRecv (s : PipelineState B) : Option (PipelineState B) :=
  match s.agg, s.innerQueue with
  | .receiving, x :: rest => some { s with innerQueue := rest, agg := .scoring x }
  | .receiving, [] => if s.main.hasLeft then some { s with agg := .done } else none
  | _, _ => none

/-- The aggregator scores its signal and returns it if it is notable; it stops if nobody
receives. -/
def aggScore (s : PipelineState B) : Option (PipelineState B) :=
  match s.agg with
  | .scoring x =>
      let (aggregator, out) := s.aggregator.observe x
      let s := { s with aggregator := aggregator, history.scored := s.history.scored ++ [x] }
      if out.isSome && s.main.hasReturned then some { s with agg := .done }
      else some { s with agg := .receiving, aggQueue := s.aggQueue ++ out.toList }
  | _ => none

/-- One action; `none` if it is not possible. -/
def step (s : PipelineState B) : Action → Option (PipelineState B)
  | .fanRecv => s.fanRecv
  | .fanSend => s.fanSend
  | .mainSignal now => s.mainSignal now
  | .mainForward => s.mainForward
  | .mainAggregated input => s.mainAggregated input
  | .mainJoin => s.mainJoin
  | .aggRecv => s.aggRecv
  | .aggScore => s.aggScore

/-! ## Where every signal is -/

/-- The signals among the items of a stream. -/
def signalsOf (stream : List (StreamItem B)) : List (Signal B) :=
  stream.filterMap fun
    | .signal x => some x
    | .lagged _ => none

/-- Every signal received is ingested, queued or held by the drain task, in this order, and so
on down the pipeline; a task ends when the one before it has ended and its queue is empty. -/
structure Lossless (stream : List (StreamItem B)) (s : PipelineState B) : Prop where
  received : s.history.received ++ signalsOf s.stream = signalsOf stream
  ingested : s.history.received = s.history.ingested ++ s.signalQueue ++ s.fan.held
  forwarded : s.history.ingested = s.history.forwarded ++ s.main.held
  scored : s.history.forwarded = s.history.scored ++ s.agg.held ++ s.innerQueue
  observed : (SignalAggregator.new : SignalAggregator B).observeAll s.history.scored =
    (s.aggregator, s.history.handled ++ s.aggQueue)
  fanDone : s.fan.isDone = true → s.stream = []
  hasLeft : s.main.hasLeft = true → s.fan.isDone = true ∧ s.signalQueue = []
  aggDone : s.agg.isDone = true → s.main.hasLeft = true ∧ s.innerQueue = []
  hasDrained : s.main.hasDrained = true → s.agg.isDone = true ∧ s.aggQueue = []

variable {s s' : PipelineState B} {stream : List (StreamItem B)} {action : Action}

theorem lossless_start (config : SemainoConfig) (stream : List (StreamItem B)) :
    Lossless stream (start config stream) where
  received := rfl
  ingested := rfl
  forwarded := rfl
  scored := rfl
  observed := rfl
  fanDone h := by cases h
  hasLeft h := by cases h
  aggDone h := by cases h
  hasDrained h := by cases h

/-- While the drain task is not done, the main task is in its loop. -/
theorem Lossless.not_hasLeft (h : Lossless stream s) (hfan : s.fan.isDone = false) :
    s.main.hasLeft = false :=
  Bool.eq_false_iff.mpr fun hleft => by simp [(h.hasLeft hleft).1] at hfan

/-- While the aggregator is not done, the main task has not seen the end of the aggregates. -/
theorem Lossless.not_hasDrained (h : Lossless stream s) (hagg : s.agg.isDone = false) :
    s.main.hasDrained = false :=
  Bool.eq_false_iff.mpr fun hdrained => by simp [(h.hasDrained hdrained).1] at hagg

/-- While the main task is in its loop, the aggregator is not done. -/
theorem Lossless.not_aggDone (h : Lossless stream s) (hmain : s.main.hasLeft = false) :
    s.agg.isDone = false :=
  Bool.eq_false_iff.mpr fun hdone => by simp [(h.aggDone hdone).1] at hmain

theorem Lossless.fanRecv (h : Lossless stream s) (hstep : s.fanRecv = some s') :
    Lossless stream s' := by
  have hreceived := h.received
  have hingested := h.ingested
  unfold PipelineState.fanRecv at hstep
  split at hstep
  · next x rest hfan hstream =>
    obtain rfl := Option.some.inj hstep
    have hloop := h.not_hasLeft (by rw [hfan]; rfl)
    simp only [hfan, FanTask.held, List.append_nil] at hingested
    exact { h with
      received := by simpa [hstream, signalsOf] using hreceived
      ingested := by simp [hingested, FanTask.held]
      fanDone := by simp [FanTask.isDone]
      hasLeft := by simp [hloop] }
  · next n rest hfan hstream =>
    obtain rfl := Option.some.inj hstep
    exact { h with
      received := by simpa [hstream, signalsOf] using hreceived
      fanDone := by simp [hfan, FanTask.isDone] }
  · next hfan hstream =>
    obtain rfl := Option.some.inj hstep
    exact { h with
      ingested := by simpa [hfan, FanTask.held] using hingested
      fanDone := fun _ => hstream
      hasLeft := fun hleft => ⟨rfl, (h.hasLeft hleft).2⟩ }
  · cases hstep

theorem Lossless.fanSend (h : Lossless stream s) (hstep : s.fanSend = some s') :
    Lossless stream s' := by
  unfold PipelineState.fanSend at hstep
  split at hstep
  · next x hfan =>
    have hloop := h.not_hasLeft (by rw [hfan]; rfl)
    split at hstep
    · next hreturned =>
      have hleft := MainTask.hasLeft_of_hasDrained (MainTask.hasDrained_of_hasReturned hreturned)
      rw [hloop] at hleft
      cases hleft
    · split at hstep
      · obtain rfl := Option.some.inj hstep
        exact { h with
          ingested := by simpa [hfan, FanTask.held] using h.ingested
          fanDone := by simp [FanTask.isDone]
          hasLeft := by simp [hloop] }
      · cases hstep
  · cases hstep

theorem Lossless.mainSignal {now : Timestamp} (h : Lossless stream s)
    (hstep : s.mainSignal now = some s') :
    Lossless stream s' := by
  unfold PipelineState.mainSignal at hstep
  split at hstep
  · next x rest hmain hqueue =>
    obtain rfl := Option.some.inj hstep
    have hagg := h.not_aggDone (by rw [hmain]; rfl)
    exact { h with
      ingested := by simpa [hqueue] using h.ingested
      forwarded := by simpa [hmain, MainTask.held] using h.forwarded
      observed := by simpa [List.filterMap_cons] using h.observed
      hasLeft := by simp [MainTask.hasLeft]
      aggDone := by simp [hagg]
      hasDrained := by simp [MainTask.hasDrained] }
  · next hmain hqueue =>
    split at hstep
    · next hfan =>
      obtain rfl := Option.some.inj hstep
      have hagg := h.not_aggDone (by rw [hmain]; rfl)
      exact { h with
        forwarded := by simpa [hmain, MainTask.held] using h.forwarded
        hasLeft := fun _ => ⟨hfan, hqueue⟩
        aggDone := by simp [hagg]
        hasDrained := by simp [MainTask.hasDrained] }
    · cases hstep
  · cases hstep

theorem Lossless.mainForward (h : Lossless stream s) (hstep : s.mainForward = some s') :
    Lossless stream s' := by
  unfold PipelineState.mainForward at hstep
  split at hstep
  · next x hmain =>
    have hagg := h.not_aggDone (by rw [hmain]; rfl)
    rw [hagg] at hstep
    split at hstep
    · next hfalse => cases hfalse
    · split at hstep
      · obtain rfl := Option.some.inj hstep
        exact { h with
          forwarded := by simpa [hmain, MainTask.held] using h.forwarded
          scored := by simp [h.scored]
          hasLeft := by simp [MainTask.hasLeft]
          aggDone := by simp [hagg]
          hasDrained := by simp [MainTask.hasDrained] }
      · cases hstep
  · cases hstep

theorem Lossless.handle (h : Lossless stream s) {a : AggregatedSignal}
    {rest : List AggregatedSignal} (hqueue : s.aggQueue = a :: rest) (input : HandlingInput) :
    Lossless stream (s.handle a rest input) :=
  { h with
    ingested := by simpa [PipelineState.handle, List.filterMap_cons] using h.ingested
    forwarded := by simpa [PipelineState.handle, List.filterMap_cons] using h.forwarded
    observed := by simpa [PipelineState.handle, hqueue] using h.observed
    hasDrained := fun hdrained => by simpa [hqueue] using (h.hasDrained hdrained).2 }

theorem Lossless.mainAggregated {input : HandlingInput} (h : Lossless stream s)
    (hstep : s.mainAggregated input = some s') : Lossless stream s' := by
  unfold PipelineState.mainAggregated at hstep
  split at hstep
  · next a rest hmain hqueue =>
    obtain rfl := Option.some.inj hstep
    exact h.handle hqueue input
  · next a rest hmain hqueue =>
    obtain rfl := Option.some.inj hstep
    exact h.handle hqueue input
  · next hmain hqueue =>
    split at hstep
    · next hagg =>
      obtain rfl := Option.some.inj hstep
      exact { h with
        forwarded := by simpa [hmain, MainTask.held] using h.forwarded
        hasLeft := fun _ => h.hasLeft (by rw [hmain]; rfl)
        aggDone := fun hdone => ⟨rfl, (h.aggDone hdone).2⟩
        hasDrained := fun _ => ⟨hagg, hqueue⟩ }
    · cases hstep
  · cases hstep

/-- The main task moves on among the states in which it has seen everything. -/
theorem Lossless.join (h : Lossless stream s) (hdrained : s.main.hasDrained = true)
    (hheld : s.main.held = []) {main : MainTask B} (hdrained' : main.hasDrained = true)
    (hheld' : main.held = []) :
    Lossless stream { s with main := main } :=
  { h with
    forwarded := by rw [hheld', ← hheld]; exact h.forwarded
    hasLeft := fun _ => h.hasLeft (MainTask.hasLeft_of_hasDrained hdrained)
    aggDone := fun hdone => ⟨MainTask.hasLeft_of_hasDrained hdrained', (h.aggDone hdone).2⟩
    hasDrained := fun _ => h.hasDrained hdrained }

theorem Lossless.mainJoin (h : Lossless stream s) (hstep : s.mainJoin = some s') :
    Lossless stream s' := by
  unfold PipelineState.mainJoin at hstep
  split at hstep
  · next hmain =>
    split at hstep
    · obtain rfl := Option.some.inj hstep
      exact h.join (by rw [hmain]; rfl) (by rw [hmain]; rfl) rfl rfl
    · cases hstep
  · next hmain =>
    split at hstep
    · obtain rfl := Option.some.inj hstep
      exact h.join (by rw [hmain]; rfl) (by rw [hmain]; rfl) rfl rfl
    · cases hstep
  · cases hstep

theorem Lossless.aggRecv (h : Lossless stream s) (hstep : s.aggRecv = some s') :
    Lossless stream s' := by
  unfold PipelineState.aggRecv at hstep
  split at hstep
  · next x rest hagg hqueue =>
    obtain rfl := Option.some.inj hstep
    have hopen := h.not_hasDrained (by rw [hagg]; rfl)
    exact { h with
      scored := by simpa [hagg, hqueue, AggTask.held] using h.scored
      aggDone := by simp [AggTask.isDone]
      hasDrained := by simp [hopen] }
  · next hagg hqueue =>
    split at hstep
    · next hleft =>
      obtain rfl := Option.some.inj hstep
      have hopen := h.not_hasDrained (by rw [hagg]; rfl)
      exact { h with
        scored := by simpa [hagg, AggTask.held] using h.scored
        aggDone := fun _ => ⟨hleft, hqueue⟩
        hasDrained := by simp [hopen] }
    · cases hstep
  · cases hstep

theorem Lossless.aggScore (h : Lossless stream s) (hstep : s.aggScore = some s') :
    Lossless stream s' := by
  unfold PipelineState.aggScore at hstep
  split at hstep
  · next x hagg =>
    have hopen := h.not_hasDrained (by rw [hagg]; rfl)
    have hrunning : s.main.hasReturned = false := Bool.eq_false_iff.mpr fun hreturned => by
      simp [MainTask.hasDrained_of_hasReturned hreturned] at hopen
    simp only [hrunning, Bool.and_false, Bool.false_eq_true, if_false, Option.some.injEq] at hstep
    obtain rfl := hstep
    exact { h with
      scored := by simpa [hagg, AggTask.held] using h.scored
      observed := by simp [SignalAggregator.observeAll_concat, h.observed]
      aggDone := by simp [AggTask.isDone]
      hasDrained := by simp [hopen] }
  · cases hstep

/-- **Step**: no action loses, repeats or reorders a signal. -/
theorem Lossless.step (h : Lossless stream s) (hstep : s.step action = some s') :
    Lossless stream s' := by
  cases action with
  | fanRecv => exact h.fanRecv hstep
  | fanSend => exact h.fanSend hstep
  | mainSignal now => exact h.mainSignal hstep
  | mainForward => exact h.mainForward hstep
  | mainAggregated input => exact h.mainAggregated hstep
  | mainJoin => exact h.mainJoin hstep
  | aggRecv => exact h.aggRecv hstep
  | aggScore => exact h.aggScore hstep

/-! ## No deadlock -/

/-- An aggregator that is not done has something to do if its queue is not empty or closed. -/
theorem agg_ready (hagg : s.agg.isDone = false)
    (hready : s.innerQueue ≠ [] ∨ s.main.hasLeft = true) :
    ∃ action, (s.step action).isSome = true := by
  cases htask : s.agg with
  | done => simp [htask, AggTask.isDone] at hagg
  | scoring x =>
      refine ⟨.aggScore, ?_⟩
      simp only [step, aggScore, htask]
      split <;> rfl
  | receiving =>
      refine ⟨.aggRecv, ?_⟩
      cases hqueue : s.innerQueue with
      | cons x rest => simp [step, aggRecv, htask, hqueue]
      | nil =>
          have hleft : s.main.hasLeft = true := hready.resolve_left fun hne => hne hqueue
          simp [step, aggRecv, htask, hqueue, hleft]

/-- A drain task that is not done has something to do if its queue is not full. -/
theorem fan_ready (hfan : s.fan.isDone = false) (hroom : s.signalQueue.length < channelCapacity) :
    ∃ action, (s.step action).isSome = true := by
  cases htask : s.fan with
  | done => simp [htask, FanTask.isDone] at hfan
  | sending x =>
      refine ⟨.fanSend, ?_⟩
      simp only [step, fanSend, htask, hroom, if_true]
      split <;> rfl
  | receiving =>
      refine ⟨.fanRecv, ?_⟩
      cases hstream : s.stream with
      | nil => simp [step, fanRecv, htask, hstream]
      | cons item rest => cases item <;> simp [step, fanRecv, htask, hstream]

/-- **No deadlock**: until the main task returns, some task can go on. -/
theorem Lossless.progress (h : Lossless stream s) (hmain : s.main.hasReturned = false)
    (now : Timestamp) (input : HandlingInput) : ∃ action, (s.step action).isSome = true := by
  cases htask : s.main with
  | selecting =>
      cases hqueue : s.signalQueue with
      | cons x rest =>
          refine ⟨.mainSignal now, ?_⟩
          simp [PipelineState.step, PipelineState.mainSignal, htask, hqueue]
      | nil =>
          by_cases hfan : s.fan.isDone = true
          · refine ⟨.mainSignal now, ?_⟩
            simp [PipelineState.step, PipelineState.mainSignal, htask, hqueue, hfan]
          · exact fan_ready (by simpa using hfan) (by simp [hqueue, channelCapacity])
  | forwarding x =>
      have hagg := h.not_aggDone (by rw [htask]; rfl)
      by_cases hroom : s.innerQueue.length < channelCapacity
      · exact ⟨.mainForward,
          by simp [PipelineState.step, PipelineState.mainForward, htask, hagg, hroom]⟩
      -- The queue of the aggregator is full, and nothing keeps the aggregator from emptying it.
      · refine agg_ready hagg (.inl fun hempty => hroom ?_)
        simp [hempty, channelCapacity]
  | draining =>
      cases hqueue : s.aggQueue with
      | cons a rest =>
          refine ⟨.mainAggregated input, ?_⟩
          simp [PipelineState.step, PipelineState.mainAggregated, htask, hqueue]
      | nil =>
          by_cases hagg : s.agg.isDone = true
          · refine ⟨.mainAggregated input, ?_⟩
            simp [PipelineState.step, PipelineState.mainAggregated, htask, hqueue, hagg]
          · exact agg_ready (by simpa using hagg) (.inr (by rw [htask]; rfl))
  | joiningFan =>
      have hfan := (h.hasLeft (by rw [htask]; rfl)).1
      exact ⟨.mainJoin, by simp [PipelineState.step, PipelineState.mainJoin, htask, hfan]⟩
  | joiningAgg =>
      have hagg := (h.hasDrained (by rw [htask]; rfl)).1
      exact ⟨.mainJoin, by simp [PipelineState.step, PipelineState.mainJoin, htask, hagg]⟩
  | returned => simp [htask, MainTask.hasReturned] at hmain

/-! ## Termination -/

/-- The awaits a task has still to pass, without those of signals in its queue. -/
def fanWork : FanTask B → Nat
  | .receiving => 1
  | .sending _ => 8
  | .done => 0

def mainWork : MainTask B → Nat
  | .selecting => 4
  | .forwarding _ => 9
  | .draining => 3
  | .joiningFan => 2
  | .joiningAgg => 1
  | .returned => 0

def aggWork : AggTask B → Nat
  | .receiving => 1
  | .scoring _ => 4
  | .done => 0

/-- What is still to be done; a signal counts for the awaits that are before it. -/
def measure (s : PipelineState B) : Nat :=
  8 * s.stream.length + fanWork s.fan + 6 * s.signalQueue.length + mainWork s.main +
    4 * s.innerQueue.length + aggWork s.agg + s.aggQueue.length

theorem measure_fanRecv_lt (hstep : s.fanRecv = some s') : s'.measure < s.measure := by
  unfold fanRecv at hstep
  split at hstep
  · cases hstep
    simp [measure, fanWork, *]
    omega
  · cases hstep
    simp [measure, fanWork, *]
  · cases hstep
    simp [measure, fanWork, *]
  · cases hstep

theorem measure_fanSend_lt (hstep : s.fanSend = some s') : s'.measure < s.measure := by
  unfold fanSend at hstep
  split at hstep
  · split at hstep
    · cases hstep
      simp [measure, fanWork, *]
    · split at hstep <;> cases hstep
      simp [measure, fanWork, *]
      omega
  · cases hstep

theorem measure_mainSignal_lt {now : Timestamp} (hstep : s.mainSignal now = some s') :
    s'.measure < s.measure := by
  unfold mainSignal at hstep
  split at hstep
  · cases hstep
    simp [measure, mainWork, *]
    omega
  · split at hstep <;> cases hstep
    simp [measure, mainWork, *]
  · cases hstep

theorem measure_mainForward_lt (hstep : s.mainForward = some s') : s'.measure < s.measure := by
  unfold mainForward at hstep
  split at hstep
  · split at hstep
    · cases hstep
      simp [measure, mainWork, *]
    · split at hstep <;> cases hstep
      simp [measure, mainWork, *]
      omega
  · cases hstep

theorem measure_mainAggregated_lt {input : HandlingInput}
    (hstep : s.mainAggregated input = some s') :
    s'.measure < s.measure := by
  unfold mainAggregated at hstep
  split at hstep
  · cases hstep
    simp [measure, handle, *]
  · cases hstep
    simp [measure, handle, *]
  · split at hstep <;> cases hstep
    simp [measure, mainWork, *]
  · cases hstep

theorem measure_mainJoin_lt (hstep : s.mainJoin = some s') : s'.measure < s.measure := by
  unfold mainJoin at hstep
  split at hstep
  · split at hstep <;> cases hstep
    simp [measure, mainWork, *]
  · split at hstep <;> cases hstep
    simp [measure, mainWork, *]
  · cases hstep

theorem measure_aggRecv_lt (hstep : s.aggRecv = some s') : s'.measure < s.measure := by
  unfold aggRecv at hstep
  split at hstep
  · cases hstep
    simp [measure, aggWork, *]
    omega
  · split at hstep <;> cases hstep
    simp [measure, aggWork, *]
  · cases hstep

theorem measure_aggScore_lt (hstep : s.aggScore = some s') : s'.measure < s.measure := by
  simp only [aggScore] at hstep
  split at hstep
  · next x hagg =>
    have hout : (s.aggregator.observe x).2.toList.length ≤ 1 := by
      cases (s.aggregator.observe x).2 <;> simp
    split at hstep <;> cases hstep
    · simp [measure, aggWork, hagg]
    · simp [measure, aggWork, hagg]
      omega
  · cases hstep

/-- **Termination**: every action takes some of what is still to be done. -/
theorem measure_lt (hstep : s.step action = some s') : s'.measure < s.measure := by
  cases action with
  | fanRecv => exact measure_fanRecv_lt hstep
  | fanSend => exact measure_fanSend_lt hstep
  | mainSignal now => exact measure_mainSignal_lt hstep
  | mainForward => exact measure_mainForward_lt hstep
  | mainAggregated input => exact measure_mainAggregated_lt hstep
  | mainJoin => exact measure_mainJoin_lt hstep
  | aggRecv => exact measure_aggRecv_lt hstep
  | aggScore => exact measure_aggScore_lt hstep

/-! ## Runs -/

/-- What was handled are the first notable ones among the ingested signals. -/
theorem Lossless.handled_isPrefix (h : Lossless stream s) :
    s.history.handled <+: SignalAggregator.notable s.history.ingested := by
  have hscored : s.history.scored <+: s.history.ingested := by
    rw [h.forwarded, h.scored, List.append_assoc, List.append_assoc]
    exact List.prefix_append _ _
  have hhandled : s.history.handled <+: SignalAggregator.notable s.history.scored := by
    rw [SignalAggregator.notable, h.observed]
    exact List.prefix_append _ _
  exact hhandled.trans (SignalAggregator.notable_prefix hscored)

/-- Every aggregate is handled as the next notable one among the signals ingested before. -/
def InOrder (calls : List (MainCall B)) : Prop :=
  ∀ before a input after, calls = before ++ .handle a input :: after →
    before.filterMap MainCall.handled? ++ [a] <+:
      SignalAggregator.notable (before.filterMap MainCall.ingested?)

theorem InOrder.concat {calls : List (MainCall B)} {call : MainCall B} (h : InOrder calls)
    (hnew : ∀ a input, call = .handle a input →
      calls.filterMap MainCall.handled? ++ [a] <+:
        SignalAggregator.notable (calls.filterMap MainCall.ingested?)) :
    InOrder (calls ++ [call]) := by
  intro before a input after heq
  rcases List.eq_nil_or_concat after with rfl | ⟨rest, last, rfl⟩
  · obtain ⟨rfl, hlast⟩ := List.append_inj' heq rfl
    exact hnew a input (List.singleton_inj.mp hlast)
  · rw [List.concat_eq_append, ← List.cons_append, ← List.append_assoc] at heq
    exact h before a input rest (List.append_inj' heq rfl).1

/-- The grid and the alerts are those of the recorded calls, which are in order. -/
structure Replayed (config : SemainoConfig) (s : PipelineState B) : Prop where
  grid : s.pipeline.grid = gridAfter config s.history.calls
  alerts : (s.pipeline.alerts, s.history.alerts) = (alertsAfter config s.history.calls).2
  window : s.pipeline.timeWindowMs = config.timeWindowSecs * 1000
  domains : s.pipeline.minConvergenceDomains = config.minConvergenceDomains
  order : InOrder s.history.calls

variable {config : SemainoConfig}

theorem replayed_start (config : SemainoConfig) (stream : List (StreamItem B)) :
    Replayed config (start config stream) :=
  ⟨rfl, rfl, rfl, rfl, fun before a input after h => by simp [start] at h⟩

/-- What an action does to the main task's own state. -/
theorem step_main (hstep : s.step action = some s') :
    (s'.pipeline = s.pipeline ∧ s'.history.calls = s.history.calls ∧
        s'.history.alerts = s.history.alerts) ∨
      (∃ x now, s'.pipeline = s.pipeline.ingest B x.geo now ∧
        s'.history.calls = s.history.calls ++ [.ingest x now] ∧
        s'.history.alerts = s.history.alerts) ∨
      ∃ a rest input, s.aggQueue = a :: rest ∧ s' = s.handle a rest input := by
  cases action with
  | mainSignal now =>
      simp only [step, mainSignal] at hstep
      split at hstep
      · cases hstep
        exact .inr (.inl ⟨_, now, rfl, rfl, rfl⟩)
      · split at hstep <;> cases hstep
        exact .inl ⟨rfl, rfl, rfl⟩
      · cases hstep
  | mainAggregated input =>
      simp only [step, mainAggregated] at hstep
      split at hstep
      · next hqueue =>
        cases hstep
        exact .inr (.inr ⟨_, _, input, hqueue, rfl⟩)
      · next hqueue =>
        cases hstep
        exact .inr (.inr ⟨_, _, input, hqueue, rfl⟩)
      · split at hstep <;> cases hstep
        exact .inl ⟨rfl, rfl, rfl⟩
      · cases hstep
  | aggScore =>
      simp only [step, aggScore] at hstep
      split at hstep
      · split at hstep <;> cases hstep <;> exact .inl ⟨rfl, rfl, rfl⟩
      · cases hstep
  | fanRecv | fanSend | mainForward | mainJoin | aggRecv =>
      simp only [step, fanRecv, fanSend, mainForward, mainJoin, aggRecv] at hstep
      repeat' split at hstep
      all_goals cases hstep
      all_goals exact .inl ⟨rfl, rfl, rfl⟩

/-- **Step**: the grid and the alerts stay those of the recorded calls. -/
theorem Replayed.step (h : Replayed config s) (hl : Lossless stream s)
    (hstep : s.step action = some s') : Replayed config s' := by
  rcases step_main hstep with ⟨hpipeline, hcalls, halerts⟩ | ⟨x, now, hpipeline, hcalls, halerts⟩ |
    ⟨a, rest, input, hqueue, rfl⟩
  · exact ⟨by rw [hpipeline, hcalls, h.grid], by rw [hpipeline, halerts, hcalls, h.alerts],
      by rw [hpipeline, h.window], by rw [hpipeline, h.domains], hcalls ▸ h.order⟩
  · have hingest := s.pipeline.ingest_eq B x.geo now
    refine ⟨?_, ?_, ?_, ?_, ?_⟩
    · rw [hpipeline, hcalls, gridAfter_concat, ← h.grid]
      simp only [SemainoPipeline.ingest, MainCall.gridCalls, ← h.window]
      cases B.fromUnixMillis (cutoffMs now s.pipeline.timeWindowMs) <;> rfl
    · rw [hpipeline, hingest, halerts, hcalls, alertsAfter_concat]
      exact h.alerts
    · rw [hpipeline, hingest, h.window]
    · rw [hpipeline, hingest, h.domains]
    · rw [hcalls]
      exact h.order.concat (by simp)
  · have hgrid : s.pipeline.grid.ingest a.signal =
        gridAfter config (s.history.calls ++ [.handle a input]) := by
      rw [gridAfter_concat, ← h.grid]
      rfl
    refine ⟨hgrid, ?_, h.window, h.domains, ?_⟩
    · obtain ⟨hfst, hsnd⟩ := Prod.mk.inj h.alerts
      simp only [PipelineState.handle, SemainoPipeline.handleAggregated, alertsAfter_concat,
        Alerting.next, alertsAfter_fst, alertCall, ← hgrid, ← h.window, ← h.domains, ← hfst, ← hsnd]
    · refine h.order.concat fun a' input' heq => ?_
      obtain ⟨rfl, rfl⟩ := MainCall.handle.inj heq
      have hprefix := (hl.handle hqueue input).handled_isPrefix
      simpa [PipelineState.handle, List.filterMap_cons] using hprefix

/-- When the main task returns, nothing is left anywhere. -/
theorem Lossless.complete (h : Lossless stream s) (hreturned : s.main.hasReturned = true) :
    s.history.received = signalsOf stream ∧ s.history.ingested = signalsOf stream ∧
    s.history.forwarded = signalsOf stream ∧ s.history.scored = signalsOf stream ∧
    s.history.handled = SignalAggregator.notable (signalsOf stream) := by
  have hdrained := MainTask.hasDrained_of_hasReturned hreturned
  obtain ⟨hfan, hsignalQueue⟩ := h.hasLeft (MainTask.hasLeft_of_hasDrained hdrained)
  obtain ⟨hagg, haggQueue⟩ := h.hasDrained hdrained
  obtain ⟨-, hinnerQueue⟩ := h.aggDone hagg
  have hfanHeld : s.fan.held = [] := by
    cases hf : s.fan <;> simp_all [FanTask.held, FanTask.isDone]
  have hmainHeld : s.main.held = [] := by
    cases hm : s.main <;> simp_all [MainTask.held, MainTask.hasReturned]
  have haggHeld : s.agg.held = [] := by
    cases ha : s.agg <;> simp_all [AggTask.held, AggTask.isDone]
  have hreceived : s.history.received = signalsOf stream := by
    simpa [h.fanDone hfan, signalsOf] using h.received
  have hingested : s.history.ingested = signalsOf stream := by
    simpa [hsignalQueue, hfanHeld, hreceived] using h.ingested.symm
  have hforwarded : s.history.forwarded = signalsOf stream := by
    rw [← hingested, h.forwarded, hmainHeld, List.append_nil]
  have hscored : s.history.scored = signalsOf stream := by
    simpa [haggHeld, hinnerQueue, hforwarded] using h.scored.symm
  have hhandled : SignalAggregator.notable (signalsOf stream) = s.history.handled := by
    rw [SignalAggregator.notable, ← hscored, h.observed, haggQueue, List.append_nil]
  exact ⟨hreceived, hingested, hforwarded, hscored, hhandled.symm⟩

/-- **The pipeline**: in every interleaving, signals are ingested and passed on once and in
order, and the grid and the alerts are those of the recorded calls, in which an aggregate is handled
once and in order, after its signal and all before it were ingested; no state before the return is a
deadlock, no run is longer than the measure of the stream, the return can always be reached, and it
leaves nothing unhandled. -/
theorem run_lossless (config : SemainoConfig) (stream : List (StreamItem B)) (actions : List Action)
    (s : PipelineState B) (hrun : Machine.run step (start config stream) actions = some s)
    (now : Timestamp) (input : HandlingInput) :
    (s.history.received <+: signalsOf stream ∧ s.history.ingested <+: s.history.received ∧
      s.history.forwarded <+: s.history.ingested ∧
      s.history.handled <+: SignalAggregator.notable s.history.ingested) ∧
    (s.pipeline.grid = gridAfter config s.history.calls ∧
      (s.pipeline.alerts, s.history.alerts) = (alertsAfter config s.history.calls).2 ∧
      InOrder s.history.calls) ∧
    (s.main.hasReturned = false → ∃ action, (s.step action).isSome = true) ∧
    actions.length ≤ (start config stream).measure ∧
    (∃ rest s', Machine.run step s rest = some s' ∧ s'.main.hasReturned = true) ∧
    (s.main.hasReturned = true → s.history.received = signalsOf stream ∧
      s.history.ingested = signalsOf stream ∧ s.history.forwarded = signalsOf stream ∧
      s.history.scored = signalsOf stream ∧
      s.history.handled = SignalAggregator.notable (signalsOf stream)) := by
  have hstep : ∀ (s : PipelineState B) action s', Lossless stream s → s.step action = some s' →
      Lossless stream s' := fun _ _ _ h hs => h.step hs
  obtain ⟨h, hreplayed⟩ : Lossless stream s ∧ Replayed config s :=
    Machine.run_preserves (I := fun s => Lossless stream s ∧ Replayed config s)
      (fun _ _ _ h hs => ⟨h.1.step hs, h.2.step h.1 hs⟩)
      ⟨lossless_start config stream, replayed_start config stream⟩ hrun
  have hlength := Machine.length_add_le_of_run (fun s action s' hs => measure_lt hs) hrun
  have hprogress : ∀ s : PipelineState B, Lossless stream s → ¬s.main.hasReturned = true →
      ∃ action s', s.step action = some s' := by
    intro s h hreturned
    obtain ⟨action, hsome⟩ := h.progress (by simpa using hreturned) now input
    exact ⟨action, Option.isSome_iff_exists.mp hsome⟩
  refine ⟨⟨⟨_, h.received⟩, ?_, ⟨_, h.forwarded.symm⟩, h.handled_isPrefix⟩,
    ⟨hreplayed.grid, hreplayed.alerts, hreplayed.order⟩, fun hreturned =>
      h.progress hreturned now input, by omega,
    Machine.exists_run_to (fun s action s' hs => measure_lt hs) hstep hprogress h, h.complete⟩
  rw [h.ingested, List.append_assoc]
  exact List.prefix_append _ _

/-! ## A sample run -/

/-- Baselines for which every signal is anomalous. -/
def alarmingBaselines : Baselines where
  Detail := Unit
  Feature := Unit
  Baseline := Unit
  default := ()
  dayHour _ := (0, 0)
  score _ _ _ := .anomalous 0
  bucketStats _ _ := (none, none)
  observe _ _ _ := ()
  extractFeature _ _ := some ()
  fromUnixMillis _ := none

theorem epoch_fits : (-2 ^ 63 ≤ (0 : ℤ) ∧ (0 : ℤ) < 2 ^ 63) := by decide

/-- The time stamp 0. -/
def epoch : Timestamp := ⟨0, epoch_fits⟩

def epochInput : HandlingInput := ⟨epoch, earlyReading 0, 0, earlyReading 0⟩

def sampleConfig : SemainoConfig := ⟨10000, 30, 60, 2⟩

def sampleSignal : Signal alarmingBaselines := ⟨⟨.rf, epoch, none⟩, 1, ()⟩

/-- One signal on its way through the pipeline, and the end of the three tasks. -/
def sampleActions : List Action :=
  [.fanRecv, .fanSend, .mainSignal epoch, .fanRecv, .mainForward, .aggRecv, .mainSignal epoch,
    .aggScore, .mainAggregated epochInput, .aggRecv, .mainAggregated epochInput,
    .mainJoin, .mainJoin]

/-- The signal is still being scored when the main task leaves its loop, and it is handled when it
is in the grid. -/
theorem run_lossless_one_signal :
    ∃ s, Machine.run step (start sampleConfig [.signal sampleSignal]) sampleActions = some s ∧
      s.main.hasReturned = true ∧ s.history.handled = SignalAggregator.notable [sampleSignal] ∧
      s.pipeline.grid = gridAfter sampleConfig s.history.calls := by
  have hreturns : (Machine.run step (start sampleConfig [.signal sampleSignal]) sampleActions).map
      (fun s => s.main.hasReturned) = some true := by decide +kernel
  obtain ⟨s, hrun, hreturned⟩ := Option.map_eq_some_iff.mp hreturns
  obtain ⟨-, ⟨hgrid, -⟩, -, -, -, hcomplete⟩ :=
    run_lossless sampleConfig [.signal sampleSignal] sampleActions s hrun epoch epochInput
  exact ⟨s, hrun, hreturned, (hcomplete hreturned).2.2.2.2, hgrid⟩

end PipelineState

end Akroasis.Semaino
