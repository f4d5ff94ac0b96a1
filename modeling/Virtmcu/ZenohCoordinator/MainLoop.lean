import Virtmcu.ZenohCoordinator.Ingest
import Virtmcu.ZenohCoordinator.DoneSamples

/-! # The main loop of the Zenoh coordinator

`main` after its subscriptions are up: a `select!` over ten of them. Seven bring frames. Their arms
call a handler and then treat its messages alike: in PDES mode they wait in a batch for the next DONE
report, otherwise they are delivered at once. The DONE arm is that of `DoneSamples`; the control arm
configures links and the telemetry arm moves nodes.

A turn of the loop is a step of a deterministic machine (`mainStep`). Its state is `none` once a
handler has panicked, which ends the process. -/

namespace Virtmcu.ZenohCoordinator

/-- The command line, as far as the loop reads it, with the obstacles already loaded. -/
structure Args where
  radio : RadioArgs
  seed : UInt64
  nodes : Option Nat
  pdes : Bool

/-- The subscriptions that bring frames. -/
inductive TxSub
  | eth
  | uart
  | sysc
  | rf802154
  | rfHci
  | lin
  /-- `tx_sub`, for the batches of `sim/coord`. -/
  | coord
  deriving DecidableEq, Repr

/-- A sample of a TX subscription, with the iteration order of the sets its handler loops over. -/
structure Frame where
  sub : TxSub
  topic : String
  payload : List UInt8
  order : IterationOrder String

/-- What a turn of the loop receives. -/
inductive Arrival
  | frame (f : Frame)
  | done (topic : String) (payload : List UInt8)
  /-- A sample of `ctrl_sub`. -/
  | control (topic : String) (payload : List UInt8)
  /-- A sample of `pos_sub`. -/
  | position (topic : String) (payload : List UInt8)

/-- The variables of the loop. -/
structure MainState (σ : Type) where
  kEth : Known
  kUart : Known
  kSysc : Known
  kRf : Known
  kLin : Known
  links : Links
  nodePositions : NodePositions
  rng : σ
  tg : TopologyGraph
  /-- Barrier, quantum and batches; only read in PDES mode. -/
  loop : LoopState

section

variable {σ : Type} (env : Externals) (args : Args) (rng : Rng σ)

/-- The state before the first sample. Three nodes have a position from the beginning. -/
def MainState.start (tg : TopologyGraph) : MainState σ where
  kEth := HashMap.empty
  kUart := HashMap.empty
  kSysc := HashMap.empty
  kRf := HashMap.empty
  kLin := HashMap.empty
  links := HashMap.empty
  nodePositions := ((HashMap.empty.insert ("", "0") ⟨0.0, 0.0, 0.0⟩).insert
    ("", "1") ⟨10.0, 0.0, 0.0⟩).insert ("", "2") ⟨100.0, 0.0, 0.0⟩
  -- the seed of the topology goes before that of the command line
  rng := rng.seedFromU64 (tg.globalSeed.getD args.seed)
  tg := tg
  loop := LoopState.start (args.nodes.getD 0) tg.maxMessagesPerNodePerQuantum

/-- What the handler call of a TX arm yields. -/
structure Ingested (σ : Type) where
  state : MainState σ
  fates : List (String × Fate)
  msgs : List CoordMessage

/-- The handler call of a TX arm, `none` if it panics. -/
def ingest (s : MainState σ) (f : Frame) : Option (Ingested σ) :=
  let delay := args.radio.delayNs
  match f.sub with
  | .eth =>
      (handleEthMsg rng s.tg s.links delay f.order s.kEth s.rng f.topic f.payload).map fun r =>
        ⟨{ s with kEth := r.known, rng := r.rng }, r.fates, r.msgs⟩
  | .uart =>
      (handleUartMsg rng s.tg s.links delay f.order s.kUart s.rng f.topic f.payload).map fun r =>
        ⟨{ s with kUart := r.known, rng := r.rng }, r.fates, r.msgs⟩
  | .sysc =>
      let (known, msgs) := handleSyscMsg s.tg s.links delay f.order s.kSysc f.topic f.payload
      some ⟨{ s with kSysc := known }, [], msgs⟩
  | .rf802154 =>
      let (known, msgs) := handleRfMsg env args.radio s.tg s.nodePositions f.order s.kRf true
        f.topic f.payload
      some ⟨{ s with kRf := known }, [], msgs⟩
  | .rfHci =>
      -- the same table of known nodes as for IEEE 802.15.4
      let (known, msgs) := handleRfMsg env args.radio s.tg s.nodePositions f.order s.kRf false
        f.topic f.payload
      some ⟨{ s with kRf := known }, [], msgs⟩
  | .lin =>
      let (known, msgs) := handleLinMsg env s.tg s.links delay f.order s.kLin f.topic f.payload
      some ⟨{ s with kLin := known }, [], msgs⟩
  | .coord =>
      -- the batch is decoded and passed on: no handler, no link test
      match parseDoneTopic f.topic with
      | some _ => some ⟨s, [], decodeBatch f.payload⟩
      | none => some ⟨s, [], []⟩

/-- Where the messages of a frame wait in PDES mode: each under its source, a batch of `sim/coord`
under the name in its topic. -/
def batchSamples (f : Frame) (msgs : List CoordMessage) : List Sample :=
  match f.sub with
  | .coord => ((parseDoneTopic f.topic).map fun nid => .batched nid msgs).toList
  | _ => msgs.map fun m => .batched m.srcNodeId [m]

/-- What a TX arm does with the messages of its handler. -/
def handOver (s : MainState σ) (f : Frame) (msgs : List CoordMessage) :
    MainState σ × List Effect :=
  if args.pdes then
    ({ s with loop := finalState (loopStep (args.nodes.getD 0)) s.loop (batchSamples f msgs) }, [])
  else (s, msgs.map .deliver)

/-- The `ctrl_sub` arm: a link is configured field by field, from the defaults on. -/
def handleControl (s : MainState σ) (topic : String) (payload : List UInt8) : MainState σ :=
  match parseTopicWithPrefix topic, env.topologyUpdate payload with
  | some (px, _, _), some up =>
      let st := s.links.state args.radio.delayNs px up.fromNode up.toNode
      let st' : LinkState := ⟨up.delayNs.getD st.delayNs,
        up.dropProbability.getD st.dropProbability, up.jitterNs.getD st.jitterNs⟩
      { s with links := s.links.insert (px, up.fromNode, up.toNode) st' }
  | _, _ => s

/-- The `pos_sub` arm: the graph and the tracked positions both learn where a node is. -/
def handlePosition (s : MainState σ) (topic : String) (payload : List UInt8) : MainState σ :=
  match parseTopicWithPrefix topic, env.positionUpdate payload with
  | some (px, _, _), some (id, pos) =>
      { s with
        tg := s.tg.updatePositions [(id, pos)]
        nodePositions := s.nodePositions.insert (px, id) pos }
  | _, _ => s

/-- A turn of the loop that finds the coordinator running. -/
def runningStep (s : MainState σ) : Arrival → Option (MainState σ) × List Effect
  | .frame f =>
      match ingest env args rng s f with
      | none => (none, [])
      | some r =>
          let (s, effects) := handOver args r.state f r.msgs
          (some s, effects)
  | .done topic payload =>
      if args.pdes then
        let (loop, effects) := handleDone (args.nodes.getD 0) s.loop topic payload
        (some { s with loop := loop }, effects)
      else (some s, [])
  | .control topic payload => (some (handleControl env args s topic payload), [])
  | .position topic payload => (some (handlePosition env s topic payload), [])

/-- A turn of the loop. -/
def mainStep (st : Option (MainState σ)) (a : Arrival) : Option (MainState σ) × List Effect :=
  match st with
  | none => (none, [])
  | some s => runningStep env args rng s a

/-- The record of one turn. -/
abbrev MainEntry (σ : Type) := Entry (Option (MainState σ)) Arrival (List Effect)

/-! ## What a turn leaves alone -/

variable {env args rng}

/-- A handler call changes the known nodes and the generator, and nothing else. -/
theorem ingest_frame {s : MainState σ} {f : Frame} {r : Ingested σ} (h : ingest env args rng s f = some r) :
    r.state.tg = s.tg ∧ r.state.links = s.links ∧ r.state.nodePositions = s.nodePositions ∧
      r.state.loop = s.loop := by
  obtain ⟨sub, topic, payload, order⟩ := f
  cases sub with
  | eth | uart =>
    obtain ⟨r', -, rfl⟩ := Option.map_eq_some_iff.mp h
    exact ⟨rfl, rfl, rfl, rfl⟩
  | sysc | rf802154 | rfHci | lin =>
    obtain rfl := Option.some.inj h
    exact ⟨rfl, rfl, rfl, rfl⟩
  | coord =>
    simp only [ingest] at h
    split at h
    · obtain rfl := Option.some.inj h
      exact ⟨rfl, rfl, rfl, rfl⟩
    · obtain rfl := Option.some.inj h
      exact ⟨rfl, rfl, rfl, rfl⟩

/-- Handing over changes the batches, and nothing else. -/
theorem handOver_frame (s : MainState σ) (f : Frame) (msgs : List CoordMessage) :
    (handOver args s f msgs).1 = { s with loop := (handOver args s f msgs).1.loop } := by
  unfold handOver
  split
  · rfl
  · rfl

end

end Virtmcu.ZenohCoordinator
