import Virtmcu.DeterministicCoordinator.EventLoop

/-! # The frame buffers of the loop

What becomes of a frame between its arrival and its batch. A DONE report splits the buffer of its node
at its `vtime_limit`: later frames stay, the others are handed to the barrier, and the barrier keeps
them only if it accepts the report. `frame_lifetime` follows a frame through any run up to the batch it
is released in; `rejectedDone_harmless_iff` says when a report that the barrier turns down or ignores
costs nothing. -/

namespace Virtmcu.DeterministicCoordinator

open List

variable {args : Args} {env : Externals} {topo : TopologyGraph}

/-! ## One turn -/

/-- The sample is a DONE report of node `i` whose limit reaches the delivery time of `m`. -/
def Covers (env : Externals) (i : UInt32) (m : CoordMessage) : Sample → Prop
  | .done topic payload =>
      parseDoneTopic topic = some i ∧ m.deliveryVtimeNs ≤ (doneRequest env payload).vtimeLimit
  | _ => False

instance (env : Externals) (i : UInt32) (m : CoordMessage) : DecidablePred (Covers env i m)
  | .tx _ _ => inferInstanceAs (Decidable False)
  | .ctrl _ => inferInstanceAs (Decidable False)
  | .done _ _ => inferInstanceAs (Decidable (_ ∧ _))

/-- The buffers after a sample, from the buffers before it: a readable frame joins the buffer of its
node, and a DONE report leaves the frames beyond its limit. -/
def nextBatches (args : Args) (env : Externals) (batches : UInt32 → List CoordMessage) :
    Sample → UInt32 → List CoordMessage
  | .tx topic payload =>
      match txMessage args env topic payload with
      | some (nodeId, some msg) =>
          if args.noPdes then batches
          else Function.update batches nodeId (batches nodeId ++ [msg])
      | _ => batches
  | .ctrl _ => batches
  | .done topic payload =>
      match parseDoneTopic topic with
      | some nodeId => Function.update batches nodeId
          ((batches nodeId).filter fun m => ¬ m.deliveryVtimeNs ≤ (doneRequest env payload).vtimeLimit)
      | none => batches

section

variable {s : LoopState args.nodes}

theorem loopStep_nodeBatches (x : Sample) :
    (loopStep args env s x).1.nodeBatches = nextBatches args env s.nodeBatches x := by
  cases x with
  | tx topic payload =>
    show (handleTx args env s topic payload).1.nodeBatches = _
    simp only [handleTx, nextBatches]
    cases htx : txMessage args env topic payload with
    | none => rfl
    | some r =>
      obtain ⟨nodeId, msg⟩ := r
      cases msg with
      | none => rfl
      | some msg => by_cases hpdes : args.noPdes <;> simp [hpdes]
  | ctrl payload =>
    show (handleCtrl args env s payload).nodeBatches = s.nodeBatches
    unfold handleCtrl
    split
    · rfl
    · split <;> rfl
  | done topic payload =>
    show (handleDone args env s topic payload).1.nodeBatches = _
    simp only [handleDone, nextBatches]
    cases parseDoneTopic topic with
    | none => rfl
    | some nodeId =>
      simp only
      split <;> rfl

/-- What a sample can do to the buffer of node `i`: nothing, add a frame of the node, or keep what lies
beyond the limit of a report of the node. -/
theorem nextBatches_cases (args : Args) (env : Externals) (batches : UInt32 → List CoordMessage)
    (x : Sample) (i : UInt32) : nextBatches args env batches x i = batches i ∨
    (∃ topic payload m, x = .tx topic payload ∧ txMessage args env topic payload = some (i, some m) ∧
      nextBatches args env batches x i = batches i ++ [m]) ∨
    ∃ topic payload, x = .done topic payload ∧ parseDoneTopic topic = some i ∧
      nextBatches args env batches x i =
        (batches i).filter fun m => ¬ m.deliveryVtimeNs ≤ (doneRequest env payload).vtimeLimit := by
  cases x with
  | tx topic payload =>
    simp only [nextBatches]
    cases htx : txMessage args env topic payload with
    | none => exact .inl rfl
    | some r =>
      obtain ⟨nodeId, msg⟩ := r
      cases msg with
      | none => exact .inl rfl
      | some msg =>
        by_cases hpdes : args.noPdes = true
        · exact .inl (by simp only [hpdes, if_true])
        · simp only [hpdes, Bool.false_eq_true, if_false]
          by_cases hi : i = nodeId
          · subst hi
            exact .inr (.inl ⟨topic, payload, msg, rfl, htx, Function.update_self _ _ _⟩)
          · exact .inl (Function.update_of_ne hi _ _)
  | ctrl payload => exact .inl rfl
  | done topic payload =>
    simp only [nextBatches]
    cases hid : parseDoneTopic topic with
    | none => exact .inl rfl
    | some nodeId =>
      by_cases hi : i = nodeId
      · subst hi
        exact .inr (.inr ⟨topic, payload, rfl, hid, Function.update_self _ _ _⟩)
      · exact .inl (Function.update_of_ne hi _ _)

/-- A buffered frame stays buffered until it is covered. -/
theorem mem_nextBatches {batches : UInt32 → List CoordMessage} {i : UInt32} {m : CoordMessage}
    (hm : m ∈ batches i) {x : Sample} (hx : ¬ Covers env i m x) : m ∈ nextBatches args env batches x i := by
  rcases nextBatches_cases args env batches x i with
    heq | ⟨topic, payload, msg, -, -, heq⟩ | ⟨topic, payload, rfl, hid, heq⟩
  · rw [heq]
    exact hm
  · rw [heq]
    exact mem_append_left _ hm
  · -- a report of the node itself keeps what lies beyond its limit
    have hlate : ¬ m.deliveryVtimeNs ≤ (doneRequest env payload).vtimeLimit :=
      fun hle => hx ⟨hid, hle⟩
    rw [heq]
    exact mem_filter.mpr ⟨hm, decide_eq_true hlate⟩

/-- A covering report hands the frame to the barrier. -/
theorem mem_messages_of_covers {i : UInt32} {m : CoordMessage} (hm : m ∈ s.nodeBatches i) {d : Sample}
    (hd : Covers env i m d) : ∃ c, callOf args env s d = some c ∧ c.nodeId = i ∧ m ∈ c.messages := by
  cases d with
  | tx topic payload | ctrl payload => exact absurd hd id
  | done topic payload =>
    obtain ⟨hid, hle⟩ := hd
    refine ⟨doneCall args env s i payload, by simp [callOf, hid], rfl, ?_⟩
    exact mem_append_left _ (mem_filter.mpr ⟨hm, decide_eq_true hle⟩)

end

/-! ## Whole runs -/

/-- Uncovered, a frame stays buffered along any run. -/
theorem mem_nodeBatches_finalState {s : LoopState args.nodes} {i : UInt32} {m : CoordMessage}
    (hm : m ∈ s.nodeBatches i) {samples : List Sample} (hmid : ∀ x ∈ samples, ¬ Covers env i m x) :
    m ∈ (finalState (loopStep args env) s samples).nodeBatches i := by
  induction samples generalizing s with
  | nil => exact hm
  | cons x samples ih =>
    rw [forall_mem_cons] at hmid
    refine ih ?_ hmid.2
    rw [loopStep_nodeBatches]
    exact mem_nextBatches hm hmid.1

/-- The record of the barrier only grows. -/
theorem loopBarrierRun_append (samples more : List Sample) :
    ∃ es, loopBarrierRun args env topo (samples ++ more) = loopBarrierRun args env topo samples ++ es := by
  induction more using reverseRecOn with
  | nil => exact ⟨[], by simp⟩
  | append_singleton more x ih =>
    obtain ⟨es, hes⟩ := ih
    rw [← append_assoc, loopBarrierRun_concat, hes, append_assoc]
    exact ⟨_, rfl⟩

/-- What an accepted report keeps is in the batch of its quantum, whenever that is released. -/
theorem mem_released_of_accepted {samples : List Sample} {c : DoneCall} {m : CoordMessage}
    (hc : c ∈ accepted (loopBarrierRun args env topo samples))
    (hm : m ∈ sortTruncate topo.maxMessagesPerNodePerQuantum c.messages) {batch : List CoordMessage}
    (hbatch : (c.quantum.toNat, batch) ∈ released (loopBarrierRun args env topo samples)) : m ∈ batch := by
  rw [(loop_history samples).released_eq, mem_map] at hbatch
  obtain ⟨q, -, heq⟩ := hbatch
  obtain ⟨rfl, rfl⟩ := Prod.mk.inj heq
  rw [mem_sort, collected, mem_flatMap]
  exact ⟨c, mem_filter.mpr ⟨hc, by simp⟩, hm⟩

/-- **The life of a frame.** With coordination on, take any run in which a readable frame of node `i`
arrives and after which no DONE report of `i` reaches its delivery time (the embedded time plus the
link delay): the frame is still buffered. The first DONE report of `i` that does reach it hands it to
the barrier; if the barrier accepts that report, for quantum `Q` say, and the frame is within the cap
of the report, then the frame is in the batch released for `Q`, however the run goes on. -/
theorem frame_lifetime (hpdes : args.noPdes = false) (pre mid : List Sample) {topic : String}
    {payload : List UInt8} {i : UInt32} {m : CoordMessage}
    (htx : txMessage args env topic payload = some (i, some m)) (hmid : ∀ x ∈ mid, ¬ Covers env i m x) :
    m ∈ (loopAfter args env topo (pre ++ .tx topic payload :: mid)).nodeBatches i ∧ ∀ d, Covers env i m d →
      ∃ c, callOf args env (loopAfter args env topo (pre ++ .tx topic payload :: mid)) d = some c ∧
        c.nodeId = i ∧ m ∈ c.messages ∧
        (c ∈ accepted (loopBarrierRun args env topo (pre ++ .tx topic payload :: mid ++ [d])) →
          m ∈ sortTruncate topo.maxMessagesPerNodePerQuantum c.messages →
          ∀ post batch, (c.quantum.toNat, batch) ∈
            released (loopBarrierRun args env topo (pre ++ .tx topic payload :: mid ++ d :: post)) →
            m ∈ batch) := by
  have hbuffered : m ∈ (loopAfter args env topo (pre ++ .tx topic payload :: mid)).nodeBatches i := by
    unfold loopAfter
    rw [finalState_append, finalState_cons]
    -- the frame enters the buffer in its own turn and stays there through `mid`
    apply mem_nodeBatches_finalState _ hmid
    rw [loopStep_nodeBatches]
    simp [nextBatches, htx, hpdes]
  refine ⟨hbuffered, fun d hd => ?_⟩
  obtain ⟨c, hc, hnode, hmem⟩ := @mem_messages_of_covers args env _ i m hbuffered d hd
  refine ⟨c, hc, hnode, hmem, fun haccepted hcap post batch hbatch => ?_⟩
  have hlater : c ∈ accepted
      (loopBarrierRun args env topo (pre ++ .tx topic payload :: mid ++ d :: post)) := by
    obtain ⟨es, hes⟩ := @loopBarrierRun_append args env topo
      (pre ++ .tx topic payload :: mid ++ [d]) post
    rw [List.append_assoc, List.singleton_append] at hes
    rw [hes, accepted, List.filter_append, List.map_append]
    exact List.mem_append_left _ haccepted
  exact mem_released_of_accepted hlater hcap hbatch

/-! ## A run of one node -/

/-- Readers that know no flatbuffer and no JSON; frames of a UART and reports of 16 bytes need none. -/
def plainExternals : Externals where
  jsonFromStr _ := none
  rf802154Header _ := none
  linFrame _ := none
  coordDoneReq _ := none
  rf802154Builder _ _ _ _ _ := []
  seenOrder := .insertion _

/-- One node, the default link delay of one millisecond, no log. -/
def soloArgs : Args := ⟨1, false, 1000000, false⟩

/-- A UART frame of node 0 sent at time 0. -/
def soloFrame : Sample := .tx "sim/uart/0/tx" (encodeFrame 0 1 [7])

/-- The message the loop makes of it. -/
def soloMessage : CoordMessage := ⟨0, broadcast, 1000000, 1, .uart, [7], some "sim/uart"⟩

/-- The report of node 0 for a quantum, with a time limit. -/
def soloDone (quantum limit : Nat) : Sample :=
  .done "sim/coord/0/done" (leBytes 8 quantum ++ leBytes 8 limit)

theorem txMessage_soloFrame : txMessage soloArgs plainExternals "sim/uart/0/tx" (encodeFrame 0 1 [7]) =
    some (0, some soloMessage) := by
  decide +kernel

/-- After a report with a limit of half a millisecond the frame is still there. -/
theorem frame_lifetime_solo : soloMessage ∈ (loopAfter soloArgs plainExternals TopologyGraph.default
    [soloFrame, soloDone 1 500000]).nodeBatches 0 :=
  (frame_lifetime rfl [] [soloDone 1 500000] txMessage_soloFrame (by decide +kernel)).1

/-- The frame arrives before the report for quantum 1, which is accepted, and yet it is released with
quantum 2. -/
theorem heldBack_solo : txMessage soloArgs plainExternals "sim/uart/0/tx" (encodeFrame 0 1 [7]) =
      some (0, some soloMessage) ∧ (accepted (loopBarrierRun soloArgs plainExternals TopologyGraph.default
      [soloFrame, soloDone 1 500000])).map (fun c => (c.nodeId, c.quantum)) = [(0, 1)] ∧
    released (loopBarrierRun soloArgs plainExternals TopologyGraph.default
      [soloFrame, soloDone 1 500000, soloDone 2 2000000]) = [(1, []), (2, [soloMessage])] := by
  refine ⟨txMessage_soloFrame, ?_, ?_⟩ <;> decide +kernel

/-! ## Reports that are turned down or ignored -/

/-- The messages released along a run. -/
def releasedMessages (args : Args) (env : Externals) (topo : TopologyGraph) (samples : List Sample) :
    List CoordMessage :=
  (released (loopBarrierRun args env topo samples)).flatMap Prod.snd

/-- Two states that agree in everything the batches depend on: not the topology, not the seen
nodes. -/
structure SameCore (s s' : LoopState args.nodes) : Prop where
  barrier : s.barrier = s'.barrier
  nodeBatches : s.nodeBatches = s'.nodeBatches
  currentQuantum : s.currentQuantum = s'.currentQuantum

theorem SameCore.callOf {s s' : LoopState args.nodes} (h : SameCore s s') (x : Sample) :
    DeterministicCoordinator.callOf args env s x = DeterministicCoordinator.callOf args env s' x := by
  cases x with
  | tx topic payload | ctrl payload => rfl
  | done topic payload =>
    simp only [DeterministicCoordinator.callOf, doneCall, h.nodeBatches, h.currentQuantum]

/-- A turn keeps the agreement. -/
theorem SameCore.loopStep {s s' : LoopState args.nodes} (h : SameCore s s') (x : Sample) :
    SameCore (DeterministicCoordinator.loopStep args env s x).1
      (DeterministicCoordinator.loopStep args env s' x).1 := by
  refine ⟨?_, ?_, ?_⟩
  · rw [loopStep_barrier, loopStep_barrier, h.callOf, h.barrier]
  · rw [loopStep_nodeBatches, loopStep_nodeBatches, h.nodeBatches]
  · have hrelease : releaseOf args env s x = releaseOf args env s' x := by
      unfold releaseOf
      rw [h.callOf, h.barrier]
    cases hs : releaseOf args env s' x with
    | none =>
      rw [(loopStep_of_no_release hs).1, (loopStep_of_no_release (hrelease.trans hs)).1, h.currentQuantum]
    | some batch =>
      rw [(loopStep_of_release hs).1, (loopStep_of_release (hrelease.trans hs)).1, h.currentQuantum]

/-- The calls a sequence of samples leads to, from any state. -/
def callsFrom (args : Args) (env : Externals) (s : LoopState args.nodes) (samples : List Sample) :
    List DoneCall :=
  (entries (loopStep args env) s samples).filterMap fun e => callOf args env e.before e.input

/-- States that agree lead to the same calls. -/
theorem SameCore.callsFrom {s s' : LoopState args.nodes} (h : SameCore s s') (samples : List Sample) :
    DeterministicCoordinator.callsFrom args env s samples =
      DeterministicCoordinator.callsFrom args env s' samples := by
  induction samples generalizing s s' with
  | nil => rfl
  | cons x samples ih =>
    unfold DeterministicCoordinator.callsFrom at ih ⊢
    simp only [entries_cons, filterMap_cons, entryAt_before, entryAt_input, h.callOf, ih (h.loopStep x)]

theorem loopCalls_append (pre post : List Sample) : loopCalls args env topo (pre ++ post) =
    loopCalls args env topo pre ++ callsFrom args env (loopAfter args env topo pre) post := by
  unfold loopCalls loopRun loopAfter callsFrom
  rw [entries_append, filterMap_append]

/-- What the barrier releases in a run that goes on from `pre`. -/
theorem released_loopBarrierRun_append (pre post : List Sample) :
    released (loopBarrierRun args env topo (pre ++ post)) = released (loopBarrierRun args env topo pre) ++
        released (entries QuantumBarrier.submitDone (loopAfter args env topo pre).barrier
          (callsFrom args env (loopAfter args env topo pre) post)) := by
  unfold loopBarrierRun
  rw [loopCalls_append, barrierRun, entries_append, loopAfter_barrier]
  exact filterMap_append

/-- A report that is not accepted leaves the barrier as it was and releases nothing. -/
theorem submitDone_of_not_accepted {n : Nat} {b : QuantumBarrier n} {c : DoneCall}
    (h : IsAccepted (entryAt QuantumBarrier.submitDone b c) = false) :
    (b.submitDone c).1 = b ∧ releasedBatch (b.submitDone c).2 = none := by
  have hcases := b.submitDone_cases c
  unfold entryAt at h
  generalize b.submitDone c = r at hcases h
  cases hcases with
  | stale | rejected => exact ⟨rfl, rfl⟩
  | ahead i hi hq | counted i hi hq | released i hi hq =>
    simp [IsAccepted, Except.isOk, Except.toBool, hq] at h

section

variable {samples : List Sample} {topic : String} {payload : List UInt8} {i : UInt32}

theorem callOf_done (hid : parseDoneTopic topic = some i) (s : LoopState args.nodes) :
    callOf args env s (.done topic payload) = some (doneCall args env s i payload) := by
  rw [callOf, hid]
  rfl

/-- A report leaves the buffer of its node alone exactly when every frame there is beyond its limit. -/
theorem nodeBatches_done_eq_iff (hid : parseDoneTopic topic = some i) :
    (loopAfter args env topo (samples ++ [.done topic payload])).nodeBatches i =
        (loopAfter args env topo samples).nodeBatches i ↔
      ∀ m ∈ (loopAfter args env topo samples).nodeBatches i,
        (doneRequest env payload).vtimeLimit < m.deliveryVtimeNs := by
  have hbuffer : (loopAfter args env topo (samples ++ [.done topic payload])).nodeBatches i =
      ((loopAfter args env topo samples).nodeBatches i).filter fun m =>
        ¬ m.deliveryVtimeNs ≤ (doneRequest env payload).vtimeLimit := by
    rw [loopAfter_concat, loopStep_nodeBatches]
    simp [nextBatches, hid]
  rw [hbuffer, filter_eq_self]
  simp only [decide_eq_true_eq, UInt64.not_le]

variable (hid : parseDoneTopic topic = some i)
  (hrejected : IsAccepted (entryAt QuantumBarrier.submitDone (loopAfter args env topo samples).barrier
    (doneCall args env (loopAfter args env topo samples) i payload)) = false)

include hid hrejected

/-- A report that is not accepted and finds no frame within its limit changes nothing but the set of
seen nodes. -/
theorem sameCore_of_rejected (hlate : ∀ m ∈ (loopAfter args env topo samples).nodeBatches i,
      (doneRequest env payload).vtimeLimit < m.deliveryVtimeNs) :
    SameCore (loopAfter args env topo (samples ++ [.done topic payload]))
      (loopAfter args env topo samples) := by
  obtain ⟨hbarrier, hrelease⟩ := submitDone_of_not_accepted hrejected
  refine ⟨?_, ?_, ?_⟩
  · rw [loopAfter_concat, loopStep_barrier, callOf_done hid]
    exact hbarrier
  · funext j
    by_cases hj : j = i
    · rw [hj]
      exact (nodeBatches_done_eq_iff hid).mpr hlate
    · rw [loopAfter_concat, loopStep_nodeBatches]
      simp [nextBatches, hid, hj]
  · rw [loopAfter_concat]
    refine (loopStep_of_no_release ?_).1
    rw [releaseOf, callOf_done hid]
    exact hrelease

theorem released_of_rejected : released (loopBarrierRun args env topo (samples ++ [.done topic payload])) =
      released (loopBarrierRun args env topo samples) := by
  have hrelease := (submitDone_of_not_accepted hrejected).2
  rw [loopBarrierRun_concat, callOf_done hid, Option.map_some, Option.toList_some, released_concat,
    entryAt_output, hrelease]
  exact append_nil _

end

/-- **Exactly when a report that is not accepted costs nothing.** Take any run, and in it a DONE report
of node `i` that the barrier turns down or ignores. The frames of `i` all stay buffered and the same
messages are released as in the run without the report, if and only if no buffered frame of `i` has a
delivery time within the limit of the report. -/
theorem rejectedDone_harmless_iff (pre post : List Sample) {topic : String} {payload : List UInt8}
    {i : UInt32} (hid : parseDoneTopic topic = some i)
    (hrejected : IsAccepted (entryAt QuantumBarrier.submitDone (loopAfter args env topo pre).barrier
      (doneCall args env (loopAfter args env topo pre) i payload)) = false) :
    ((loopAfter args env topo (pre ++ [.done topic payload])).nodeBatches i =
        (loopAfter args env topo pre).nodeBatches i ∧
      (releasedMessages args env topo (pre ++ .done topic payload :: post)).Perm
        (releasedMessages args env topo (pre ++ post))) ↔ ∀ m ∈ (loopAfter args env topo pre).nodeBatches i,
      (doneRequest env payload).vtimeLimit < m.deliveryVtimeNs := by
  constructor
  · intro h
    exact (nodeBatches_done_eq_iff hid).mp h.1
  · intro hlate
    refine ⟨(nodeBatches_done_eq_iff hid).mpr hlate, ?_⟩
    -- from the report on, the two runs make the same calls to the same barrier
    have hcore := sameCore_of_rejected hid hrejected hlate
    have hsame : released (loopBarrierRun args env topo (pre ++ .done topic payload :: post)) =
        released (loopBarrierRun args env topo (pre ++ post)) := by
      rw [List.append_cons, released_loopBarrierRun_append (pre ++ [_]) post,
        released_loopBarrierRun_append pre post, hcore.callsFrom, hcore.barrier,
        released_of_rejected hid hrejected]
    unfold releasedMessages
    rw [hsame]

/-- A report for quantum 5 at quantum 1, with a limit below the frame's time, is harmless. -/
theorem rejectedDone_harmless_solo : (loopAfter soloArgs plainExternals TopologyGraph.default
        [soloFrame, soloDone 5 500000]).nodeBatches 0 =
      (loopAfter soloArgs plainExternals TopologyGraph.default [soloFrame]).nodeBatches 0 ∧
    (releasedMessages soloArgs plainExternals TopologyGraph.default
        [soloFrame, soloDone 5 500000, soloDone 1 2000000]).Perm
      (releasedMessages soloArgs plainExternals TopologyGraph.default
        [soloFrame, soloDone 1 2000000]) :=
  (rejectedDone_harmless_iff [soloFrame] [soloDone 1 2000000] (i := 0) (by decide +kernel)
    (by decide +kernel)).mpr (by decide +kernel)

/-- A DONE report of node 0 with an unreadable payload. -/
def unreadableDone : Sample := .done "sim/coord/0/done" [1, 2, 3]

/-- The unreadable report is turned down, and takes the frame with it. -/
theorem lost_unreadableDone : (accepted (loopBarrierRun soloArgs plainExternals TopologyGraph.default
      [soloFrame, unreadableDone])) = [] ∧
    (loopAfter soloArgs plainExternals TopologyGraph.default [soloFrame]).nodeBatches 0 = [soloMessage] ∧
    (loopAfter soloArgs plainExternals TopologyGraph.default
      [soloFrame, unreadableDone]).nodeBatches 0 = [] ∧
    releasedMessages soloArgs plainExternals TopologyGraph.default
      [soloFrame, unreadableDone, soloDone 1 2000000] = [] ∧
    releasedMessages soloArgs plainExternals TopologyGraph.default
      [soloFrame, soloDone 1 2000000] = [soloMessage] := by
  refine ⟨?_, ?_, ?_, ?_, ?_⟩ <;> decide +kernel

end Virtmcu.DeterministicCoordinator
