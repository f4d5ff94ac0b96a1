import Virtmcu.DeterministicCoordinator.BarrierHistory
import Virtmcu.DeterministicCoordinator.Delivery

/-! # The event loop

`run_deterministic_coordinator` after its subscriptions are up: a loop that takes one sample at a time
(a frame of a device, a control message, a DONE report), updates its variables and puts messages. One
turn of the loop is one step of a deterministic machine whose answer is the list of effects, so runs of
the loop are runs in the sense of `Foundations.Run`.

Frames of a node are buffered until its next DONE report. The report takes the frames up to its
`vtime_limit` out of the buffer and hands them to the barrier together with the messages it carries
itself; the report that completes a quantum triggers the delivery of the batch and the START
messages. -/

namespace Virtmcu.DeterministicCoordinator

open List Option

/-! ## Inputs of the loop -/

/-- The command line, as far as the loop reads it; `pcapLog` says whether a log was opened. -/
structure Args where
  nodes : Nat
  noPdes : Bool
  delayNs : UInt64
  pcapLog : Bool
  deriving DecidableEq, Repr

/-- A message of a `CoordDoneReq` flatbuffer. -/
structure FbMessage where
  srcNodeId : UInt32
  dstNodeId : UInt32
  deliveryVtimeNs : UInt64
  sequenceNumber : UInt64
  protocol : UInt8
  payload : Option (List UInt8)

/-- A `CoordDoneReq` flatbuffer. -/
structure CoordDoneReq where
  quantum : UInt64
  vtimeLimit : UInt64
  messages : Option (List FbMessage)

/-- What the loop gets from elsewhere: the readers and the builder of the flatbuffers crate, the JSON
parser, and the iteration order of the hash set of seen nodes. -/
structure Externals where
  jsonFromStr : String → Option JsonValue
  /-- Delivery time and sequence number of a verified `Rf802154Header`. -/
  rf802154Header : List UInt8 → Option (UInt64 × UInt64)
  /-- Delivery time of a verified LIN frame. -/
  linFrame : List UInt8 → Option UInt64
  /-- A verified `CoordDoneReq`. -/
  coordDoneReq : List UInt8 → Option CoordDoneReq
  rf802154Builder : Rf802154HeaderBuilder
  seenOrder : IterationOrder UInt32

/-- One sample: a frame on a TX topic, a control message, or a report on a DONE topic. -/
inductive Sample
  | tx (topic : String) (payload : List UInt8)
  | ctrl (payload : List UInt8)
  | done (topic : String) (payload : List UInt8)
  deriving DecidableEq, Repr

/-! ## Frames -/

/-- LIN, CAN FD and FlexRay frames are taken as they come. -/
def isRaw : Protocol → Bool
  | .lin | .canFd | .flexRay => true
  | _ => false

/-- Delivery time, sequence number and data of a frame: by its `Rf802154Header` when it is a radio
frame that has one, else raw or by its `ZenohFrameHeader`, according to the protocol. A frame shorter
than its header says is skipped. -/
def decodeTx (env : Externals) (proto : Protocol) (payload : List UInt8) :
    Option (UInt64 × UInt64 × List UInt8) :=
  let sz := leNat (payload.take 4)
  let rf := if proto = .rf802154 ∧ 4 ≤ payload.length ∧ 0 < sz ∧ sz ≤ 1024 ∧ 4 + sz ≤ payload.length then
      env.rf802154Header ((payload.drop 4).take sz)
    else none
  match rf with
  | some (vtime, seq) => some (vtime, seq, payload.drop (4 + sz))
  | none =>
      -- a radio frame whose header does not verify falls through to the frame header
      if isRaw proto then
        let vtime := if proto = .lin then (env.linFrame payload).getD 0 else 0
        some (vtime, 0, payload)
      else match ZenohFrameHeader.unpackSlice payload with
        | none => none
        | some header =>
            if zenohFrameHeaderSize + header.size.toNat ≤ payload.length then
              some (header.deliveryVtimeNs, header.sequenceNumber,
                (payload.drop zenohFrameHeaderSize).take header.size.toNat)
            else none

/-- `saturating_add` on `u64`. -/
def saturatingAdd (a b : UInt64) : UInt64 :=
  if a.toNat + b.toNat < 2 ^ 64 then a + b else 0xFFFFFFFFFFFFFFFF

/-- The node of a frame and the message the loop makes of it: always a broadcast, delayed by the
configured link delay. The message is absent when the frame cannot be read. -/
def txMessage (args : Args) (env : Externals) (topic : String) (payload : List UInt8) :
    Option (UInt32 × Option CoordMessage) :=
  (parseLegacyTopic topic).map fun (proto, nodeId, base) =>
    (nodeId, (decodeTx env proto payload).map fun (vtime, seq, data) =>
      ⟨nodeId, broadcast, saturatingAdd vtime args.delayNs, seq, proto, data, some base⟩)

/-! ## DONE reports -/

/-- A message of the flatbuffer as a coordinator message. -/
def FbMessage.toCoordMessage (m : FbMessage) : CoordMessage :=
  ⟨m.srcNodeId, m.dstNodeId, m.deliveryVtimeNs, m.sequenceNumber, parseProtocol m.protocol,
    m.payload.getD [], none⟩

/-- What a DONE payload says: `quantum`, `vtime_limit` and `batched_msgs`. -/
structure DoneRequest where
  quantum : UInt64
  vtimeLimit : UInt64
  batchedMsgs : List CoordMessage
  deriving DecidableEq, Repr

/-- The reading of a DONE payload. Payloads of 8 and 16 bytes are
legacy by definition; anything else that is not a flatbuffer is read as legacy too, with `u64::MAX` for
what is missing. -/
def doneRequest (env : Externals) (payload : List UInt8) : DoneRequest :=
  let isLegacy := payload.length = 8 ∨ payload.length = 16
  match if isLegacy then none else env.coordDoneReq payload with
  | some req => ⟨req.quantum, req.vtimeLimit, (req.messages.getD []).map FbMessage.toCoordMessage⟩
  | none =>
      if 8 ≤ payload.length then
        let q := (leNat (payload.take 8)).toUInt64
        if 16 ≤ payload.length then
          ⟨q, (leNat ((payload.drop 8).take 8)).toUInt64,
            if 16 < payload.length then decodeBatch (payload.drop 16) else []⟩
        else
          ⟨q, 0xFFFFFFFFFFFFFFFF, if 8 < payload.length then decodeBatch (payload.drop 8) else []⟩
      else ⟨0xFFFFFFFFFFFFFFFF, 0xFFFFFFFFFFFFFFFF, []⟩

/-! ## The loop -/

/-- The variables of the loop. A node without buffered frames has the empty list. -/
structure LoopState (n : Nat) where
  topo : TopologyGraph
  barrier : QuantumBarrier n
  nodeBatches : UInt32 → List CoordMessage
  seenNodes : HashSet UInt32
  currentQuantum : UInt64

/-- The seen nodes before the first sample. -/
def initialSeen (nodes : Nat) : HashSet UInt32 :=
  HashSet.ofList ((List.range nodes).map fun i => i.toUInt32)

/-- The variables when the loop is entered. -/
def loopStart (args : Args) (topo : TopologyGraph) : LoopState args.nodes where
  topo := topo
  barrier := QuantumBarrier.start args.nodes topo.maxMessagesPerNodePerQuantum 1
  nodeBatches := fun _ => []
  seenNodes := initialSeen args.nodes
  currentQuantum := 1

variable (args : Args) (env : Externals)

/-- The TX arm. Without coordination the message is delivered at once. -/
def handleTx (s : LoopState args.nodes) (topic : String) (payload : List UInt8) :
    LoopState args.nodes × List Effect :=
  match txMessage args env topic payload with
  | none => (s, [])
  | some (nodeId, msg) =>
      -- the sender counts as seen even when its frame cannot be read
      let s := { s with seenNodes := s.seenNodes.insert nodeId }
      match msg with
      | none => (s, [])
      | some msg =>
          if args.noPdes then
            (s, deliverMessage env.rf802154Builder args.pcapLog s.topo
              (env.seenOrder.visit s.seenNodes.toList) msg)
          else
            ({ s with nodeBatches :=
                Function.update s.nodeBatches nodeId (s.nodeBatches nodeId ++ [msg]) }, [])

/-- The control arm. -/
def handleCtrl (s : LoopState args.nodes) (payload : List UInt8) : LoopState args.nodes :=
  match String.fromUTF8? ⟨payload.toArray⟩ with
  | none => s
  | some jsonStr =>
      match s.topo.updateFromJson env.jsonFromStr jsonStr with
      | .ok topo => { s with topo := topo }
      | .error _ => s

/-- The START messages for a quantum. -/
def startEffects (nodes : Nat) (quantum : UInt64) : List Effect :=
  (List.range nodes).map fun i =>
    .put (Templates.clockStart (toString i)) (leBytes 8 quantum.toNat)

/-- The `submit_done` call a DONE report of `nodeId` leads to: the buffered frames up to the limit,
then the messages the report carries. -/
def doneCall (s : LoopState args.nodes) (nodeId : UInt32) (payload : List UInt8) : DoneCall :=
  let req := doneRequest env payload
  ⟨nodeId, req.quantum, s.currentQuantum,
    ((s.nodeBatches nodeId).filter fun m => m.deliveryVtimeNs ≤ req.vtimeLimit) ++ req.batchedMsgs⟩

/-- The DONE arm. The buffer is split before the barrier is asked. -/
def handleDone (s : LoopState args.nodes) (topic : String) (payload : List UInt8) :
    LoopState args.nodes × List Effect :=
  match parseDoneTopic topic with
  | none => (s, [])
  | some nodeId =>
      let futureMsgs := (s.nodeBatches nodeId).filter fun m =>
        ¬ m.deliveryVtimeNs ≤ (doneRequest env payload).vtimeLimit
      let seenNodes := s.seenNodes.insert nodeId
      -- this happens whatever the answer of the barrier: the other frames are not put back
      let nodeBatches := Function.update s.nodeBatches nodeId futureMsgs
      match s.barrier.submitDone (doneCall args env s nodeId payload) with
      | (barrier, .ok (some sortedMsgs)) =>
          let currentQuantum := s.currentQuantum + 1
          ({ s with barrier, nodeBatches, seenNodes, currentQuantum },
            deliverBatch env.rf802154Builder args.pcapLog s.topo
              (env.seenOrder.visit seenNodes.toList) (sort sortedMsgs) ++
            (if args.pcapLog then [.flush] else []) ++ startEffects args.nodes currentQuantum)
      | (barrier, .ok none) => ({ s with barrier, nodeBatches, seenNodes }, [])
      | (barrier, .error _) => ({ s with barrier, nodeBatches, seenNodes }, [])

/-- One turn of the loop. -/
def loopStep (s : LoopState args.nodes) : Sample → LoopState args.nodes × List Effect
  | .tx topic payload => handleTx args env s topic payload
  | .ctrl payload => (handleCtrl args env s payload, [])
  | .done topic payload => handleDone args env s topic payload

/-! ## What one turn does -/

/-- The `submit_done` call a sample leads to, if any. -/
def callOf (s : LoopState args.nodes) : Sample → Option DoneCall
  | .done topic payload => (parseDoneTopic topic).map fun nodeId => doneCall args env s nodeId payload
  | _ => none

/-- The batch a sample releases, if any. -/
def releaseOf (s : LoopState args.nodes) (x : Sample) : Option (List CoordMessage) :=
  (callOf args env s x).bind fun c => releasedBatch (s.barrier.submitDone c).2

section

variable {args env} {s : LoopState args.nodes} {x : Sample}

/-- The barrier sees the calls and nothing else. -/
theorem loopStep_barrier : (loopStep args env s x).1.barrier =
    ((callOf args env s x).map fun c => (s.barrier.submitDone c).1).getD s.barrier := by
  cases x with
  | tx topic payload =>
    show (handleTx args env s topic payload).1.barrier = s.barrier
    unfold handleTx
    split
    · rfl
    · split
      · rfl
      · split <;> rfl
  | ctrl payload =>
    show (handleCtrl args env s payload).barrier = s.barrier
    unfold handleCtrl
    split
    · rfl
    · split <;> rfl
  | done topic payload =>
    show (handleDone args env s topic payload).1.barrier = _
    simp only [handleDone, callOf]
    cases parseDoneTopic topic with
    | none => rfl
    | some nodeId =>
      simp only [map_some, getD_some]
      split <;> simp_all

/-- A turn that releases a batch: the quantum advances, the batch is delivered, the log is flushed and
every node is told to start. -/
theorem loopStep_of_release {batch : List CoordMessage} (h : releaseOf args env s x = some batch) :
    (loopStep args env s x).1.currentQuantum = s.currentQuantum + 1 ∧ (loopStep args env s x).2 =
      deliverBatch env.rf802154Builder args.pcapLog s.topo
          (env.seenOrder.visit (loopStep args env s x).1.seenNodes.toList) (sort batch) ++
        (if args.pcapLog then [.flush] else []) ++ startEffects args.nodes (s.currentQuantum + 1) := by
  cases x with
  | tx topic payload | ctrl payload => simp [releaseOf, callOf] at h
  | done topic payload =>
    rw [loopStep]
    unfold releaseOf callOf at h
    unfold handleDone
    cases hid : parseDoneTopic topic with
    | none => simp [hid] at h
    | some nodeId =>
      simp only [hid, map_some, bind_some] at h
      simp only
      split
      · rename_i b sortedMsgs hsubmit
        rw [hsubmit] at h
        cases h
        exact ⟨rfl, rfl⟩
      · rename_i b hsubmit
        rw [hsubmit] at h
        cases h
      · rename_i b e hsubmit
        rw [hsubmit] at h
        cases h

/-- A turn that releases nothing puts data at most, and the quantum stays. -/
theorem loopStep_of_no_release (h : releaseOf args env s x = none) :
    (loopStep args env s x).1.currentQuantum = s.currentQuantum ∧
    ∀ topic payload, Effect.put topic payload ∈ (loopStep args env s x).2 → IsRxTopic topic := by
  cases x with
  | tx topic payload =>
    show (handleTx args env s topic payload).1.currentQuantum = _ ∧
      ∀ t p, Effect.put t p ∈ (handleTx args env s topic payload).2 → IsRxTopic t
    unfold handleTx
    split
    · exact ⟨rfl, by simp⟩
    · split
      · exact ⟨rfl, by simp⟩
      · split
        · refine ⟨rfl, fun t p hput => ?_⟩
          simp only [deliverMessage_eq, mem_flatMap] at hput
          obtain ⟨target, -, hput⟩ := hput
          exact isRxTopic_of_mem_deliverTo hput
        · exact ⟨rfl, by simp⟩
  | ctrl payload =>
    refine ⟨?_, by simp [loopStep]⟩
    show (handleCtrl args env s payload).currentQuantum = s.currentQuantum
    unfold handleCtrl
    split
    · rfl
    · split <;> rfl
  | done topic payload =>
    show (handleDone args env s topic payload).1.currentQuantum = _ ∧
      ∀ t p, Effect.put t p ∈ (handleDone args env s topic payload).2 → IsRxTopic t
    unfold releaseOf callOf at h
    unfold handleDone
    cases hid : parseDoneTopic topic with
    | none => exact ⟨rfl, by simp⟩
    | some nodeId =>
      simp only [hid, map_some, bind_some] at h
      simp only
      split
      · rename_i b sortedMsgs hsubmit
        rw [hsubmit] at h
        cases h
      · exact ⟨rfl, by simp⟩
      · exact ⟨rfl, by simp⟩

end

/-! ## Runs -/

/-- The record of one turn. -/
abbrev LoopEntry := Entry (LoopState args.nodes) Sample (List Effect)

variable (topo : TopologyGraph)

/-- The record of the loop over a sequence of samples. -/
def loopRun (samples : List Sample) : List (LoopEntry args) :=
  entries (loopStep args env) (loopStart args topo) samples

/-- The variables of the loop after a sequence of samples. -/
def loopAfter (samples : List Sample) : LoopState args.nodes :=
  finalState (loopStep args env) (loopStart args topo) samples

/-- The `submit_done` calls a sequence of samples leads to. -/
def loopCalls (samples : List Sample) : List DoneCall :=
  (loopRun args env topo samples).filterMap fun e => callOf args env e.before e.input

/-- The record of the barrier along the loop. -/
def loopBarrierRun (samples : List Sample) : List (BarrierEntry args.nodes) :=
  barrierRun args.nodes topo.maxMessagesPerNodePerQuantum 1 (loopCalls args env topo samples)

/-- The effects of a run, in order. -/
def loopEffects (samples : List Sample) : List Effect :=
  (loopRun args env topo samples).flatMap Entry.output

section

variable {args env topo} (samples : List Sample) (x : Sample)

theorem loopAfter_concat : loopAfter args env topo (samples ++ [x]) =
    (loopStep args env (loopAfter args env topo samples) x).1 :=
  finalState_concat _ _ _ _

theorem loopCalls_concat : loopCalls args env topo (samples ++ [x]) =
    loopCalls args env topo samples ++ (callOf args env (loopAfter args env topo samples) x).toList := by
  unfold loopCalls loopRun loopAfter
  rw [entries_concat, filterMap_append]
  simp only [filterMap_cons, filterMap_nil, entryAt_before, entryAt_input]
  cases callOf args env (finalState (loopStep args env) (loopStart args topo) samples) x <;> rfl

theorem loopEffects_concat : loopEffects args env topo (samples ++ [x]) =
    loopEffects args env topo samples ++ (loopStep args env (loopAfter args env topo samples) x).2 := by
  simp [loopEffects, loopRun, loopAfter, entries_concat]

/-- Effects are never taken back. -/
theorem loopEffects_grow (more : List Sample) :
    loopEffects args env topo samples <+: loopEffects args env topo (samples ++ more) := by
  unfold loopEffects loopRun
  rw [entries_append, flatMap_append]
  exact prefix_append _ _

/-- **The loop drives the barrier**: its barrier is the one the calls lead to. -/
theorem loopAfter_barrier : (loopAfter args env topo samples).barrier =
    barrierAfter args.nodes topo.maxMessagesPerNodePerQuantum 1 (loopCalls args env topo samples) := by
  -- the last sample makes one more call or none
  induction samples using reverseRecOn with
  | nil => rfl
  | append_singleton samples x ih =>
    rw [loopAfter_concat, loopStep_barrier, loopCalls_concat, barrierAfter, finalState_append,
      ← barrierAfter, ← ih]
    cases callOf args env (loopAfter args env topo samples) x <;> rfl

/-- So the history of the barrier holds along the loop. -/
theorem loop_history : History args.nodes topo.maxMessagesPerNodePerQuantum 1
    (loopBarrierRun args env topo samples) (loopAfter args env topo samples).barrier := by
  rw [loopAfter_barrier]
  exact history_entries _ _ 1 _

/-- One more turn in the record of the barrier. -/
theorem loopBarrierRun_concat : loopBarrierRun args env topo (samples ++ [x]) =
    loopBarrierRun args env topo samples ++
      ((callOf args env (loopAfter args env topo samples) x).map fun c =>
        entryAt QuantumBarrier.submitDone (loopAfter args env topo samples).barrier c).toList := by
  unfold loopBarrierRun
  rw [loopCalls_concat, loopAfter_barrier, barrierRun, entries_append]
  cases callOf args env (loopAfter args env topo samples) x <;> rfl

end

end Virtmcu.DeterministicCoordinator
