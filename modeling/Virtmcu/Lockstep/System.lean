import Virtmcu.DeterministicCoordinator.StartDiscipline

/-! # Clocks, time authority and coordinator

The closed system of a coordinated simulation: `n` clocks, the time authority that drives them, and
the coordinator's event loop between them, with all messages in flight.

A clock serves one request at a time (`ZenohClockResponder::send_ready`): it executes the quantum,
publishes DONE with the quantum and its virtual time, blocks until it receives one START, whatever its
value, and replies. The time authority numbers the requests to a node 1, 2, 3, … and issues the next
one when it has the reply to the last. The coordinator takes one sample at a time and performs the
effects of a turn one after the other before it takes the next sample; besides the DONE reports of the
clocks it may find arbitrary frames and control messages. Channels are reliable and first-in-first-out
per topic, and steps of different parties interleave freely. -/

namespace Virtmcu.Lockstep

open DeterministicCoordinator

/-- What is fixed when the system is started. Node ids are `u32`. -/
structure Deployment where
  args : Args
  env : Externals
  topo : TopologyGraph
  nodes_pos : 0 < args.nodes
  nodes_le : args.nodes ≤ 2 ^ 32

/-- Where a clock is in its loop. -/
inductive ClockPhase
  /-- Waiting for a request. -/
  | idle
  /-- Executing a quantum. -/
  | executing
  /-- DONE is published; blocked in `start_rx.recv()`. -/
  | waiting
  /-- START is received; the reply is not sent yet. -/
  | resumed
  deriving DecidableEq, Repr

/-- One node: the time authority's view of it, its clock, and the messages in flight to and from
it. -/
structure Node where
  /-- The number of the last request issued, 0 before the first. -/
  issued : Nat
  /-- The number of the last reply received. -/
  answered : Nat
  /-- Requests in flight. -/
  requests : List Nat
  phase : ClockPhase
  /-- The request the clock serves or has served last. -/
  quantum : Nat
  /-- DONE payloads in flight. -/
  dones : List (List UInt8)
  /-- START payloads in flight; the clock does not look at them. -/
  starts : List (List UInt8)
  /-- Replies in flight. -/
  replies : List Nat
  /-- All replies the clock has released so far. -/
  replied : List Nat
  deriving DecidableEq, Repr

/-- A node before the first request. -/
def Node.initial : Node := ⟨0, 0, [], .idle, 0, [], [], [], []⟩

/-- The whole system. The coordinator is given by the samples it has taken, since these determine its
variables, and by the effects of its present turn that are still to be performed. -/
structure State (d : Deployment) where
  node : Fin d.args.nodes → Node
  taken : List Sample
  pending : List Effect
  performed : List Effect

variable {d : Deployment}

namespace State

/-- The variables of the coordinator's loop. -/
def loop (s : State d) : LoopState d.args.nodes := loopAfter d.args d.env d.topo s.taken

/-- The calls of the barrier so far, with their answers. -/
def barrierRun (s : State d) : List (BarrierEntry d.args.nodes) :=
  loopBarrierRun d.args d.env d.topo s.taken

/-- The system at the start. -/
def initial (d : Deployment) : State d := ⟨fun _ => .initial, [], [], []⟩

def setNode (s : State d) (i : Fin d.args.nodes) (v : Node) : State d :=
  { s with node := Function.update s.node i v }

/-- The coordinator takes a sample; its effects are pending. -/
def take (s : State d) (x : Sample) : State d :=
  { s with taken := s.taken ++ [x], pending := (loopStep d.args d.env s.loop x).2 }

end State

/-- The payload of a DONE report: `[quantum (8), current_vtime_ns (8)]`. -/
def donePayload (quantum : Nat) (vtime : UInt64) : List UInt8 :=
  leBytes 8 quantum ++ leBytes 8 vtime.toNat

/-- The sample the coordinator finds when node `i` has published a DONE payload. -/
def doneSample (i : Nat) (payload : List UInt8) : Sample :=
  .done (Templates.coordDone (toString i)) payload

/-- What an effect of the coordinator does to node `i`: a put on its START topic is in flight to it. -/
def Node.receive (i : Nat) (effect : Effect) (v : Node) : Node :=
  match effect with
  | .put topic payload =>
      if topic = Templates.clockStart (toString i) then { v with starts := v.starts ++ [payload] } else v
  | _ => v

/-- The steps of the system. -/
inductive Step : State d → State d → Prop
  /-- The time authority issues the next request. Request numbers are `u64`. -/
  | issue (s : State d) (i : Fin d.args.nodes) (hready : (s.node i).answered = (s.node i).issued)
      (hfit : (s.node i).issued + 1 < 2 ^ 64) :
      Step s (s.setNode i { s.node i with
        issued := (s.node i).issued + 1
        requests := (s.node i).requests ++ [(s.node i).issued + 1] })
  /-- A clock takes up a request. -/
  | accept (s : State d) (i : Fin d.args.nodes) (q : Nat) (rest : List Nat)
      (hphase : (s.node i).phase = .idle) (hreq : (s.node i).requests = q :: rest) :
      Step s (s.setNode i { s.node i with requests := rest, phase := .executing, quantum := q })
  /-- A clock has executed its quantum and publishes DONE. -/
  | publish (s : State d) (i : Fin d.args.nodes) (vtime : UInt64)
      (hphase : (s.node i).phase = .executing) :
      Step s (s.setNode i { s.node i with
        phase := .waiting
        dones := (s.node i).dones ++ [donePayload (s.node i).quantum vtime] })
  /-- A blocked clock receives one START. -/
  | resume (s : State d) (i : Fin d.args.nodes) (token : List UInt8) (rest : List (List UInt8))
      (hphase : (s.node i).phase = .waiting) (hstart : (s.node i).starts = token :: rest) :
      Step s (s.setNode i { s.node i with phase := .resumed, starts := rest })
  /-- A clock releases its reply. -/
  | reply (s : State d) (i : Fin d.args.nodes) (hphase : (s.node i).phase = .resumed) :
      Step s (s.setNode i { s.node i with
        phase := .idle
        replies := (s.node i).replies ++ [(s.node i).quantum]
        replied := (s.node i).replied ++ [(s.node i).quantum] })
  /-- The time authority receives a reply. -/
  | collect (s : State d) (i : Fin d.args.nodes) (q : Nat) (rest : List Nat)
      (hreply : (s.node i).replies = q :: rest) :
      Step s (s.setNode i { s.node i with replies := rest, answered := q })
  /-- The coordinator takes the next DONE report of a node. -/
  | takeDone (s : State d) (i : Fin d.args.nodes) (payload : List UInt8) (rest : List (List UInt8))
      (hturn : s.pending = []) (hdone : (s.node i).dones = payload :: rest) :
      Step s ((s.setNode i { s.node i with dones := rest }).take (doneSample i payload))
  /-- The coordinator takes a frame or a control message. -/
  | takeOther (s : State d) (x : Sample) (hturn : s.pending = [])
      (hx : ∀ topic payload, x ≠ .done topic payload) : Step s (s.take x)
  /-- The coordinator performs the next effect of its turn. -/
  | perform (s : State d) (e : Effect) (es : List Effect) (hpending : s.pending = e :: es) :
      Step s { s with
        node := fun i => (s.node i).receive i e
        pending := es
        performed := s.performed ++ [e] }

/-- The states the system can get into. -/
def Reachable (s : State d) : Prop := Relation.ReflTransGen Step (State.initial d) s

/-! ## The coordinator understands the clocks -/

/-- The DONE topic of a node names the node. -/
theorem parseDoneTopic_coordDone {i : Nat} (hi : i < 2 ^ 32) :
    parseDoneTopic (Templates.coordDone (toString i)) = some i.toUInt32 := by
  have hslash : '/' ∉ (toString i).toList := not_mem_toString (by decide)
  have hlist : (Templates.coordDone (toString i)).toList =
      "sim".toList ++ '/' :: ("coord".toList ++ '/' :: ((toString i).toList ++ '/' :: "done".toList)) := by
    simp [Templates.coordDone, String.toList_append]
  have hsplit : split '/' (Templates.coordDone (toString i)) = ["sim", "coord", toString i, "done"] := by
    rw [split, hlist, splitList_append_cons (by decide), splitList_append_cons (by decide),
      splitList_append_cons hslash, splitList_of_not_mem (by decide)]
    simp only [List.map_cons, List.map_nil, String.ofList_toList]
  rw [parseDoneTopic, hsplit]
  show parseU32 (toString i) = some i.toUInt32
  rw [parseU32, parseUnsigned_toString hi]
  rfl

/-- The coordinator reads back the quantum of a DONE payload, and no messages. -/
theorem doneRequest_donePayload (env : Externals) {q : Nat} (hq : q < 2 ^ 64) (vtime : UInt64) :
    (doneRequest env (donePayload q vtime)).quantum.toNat = q ∧
      (doneRequest env (donePayload q vtime)).batchedMsgs = [] := by
  have hlen : (donePayload q vtime).length = 16 := by simp [donePayload]
  have htake : (donePayload q vtime).take 8 = leBytes 8 q := by
    rw [donePayload, List.take_append_of_le_length (by simp), List.take_of_length_le (by simp)]
  have hread : (leNat (leBytes 8 q)).toUInt64.toNat = q := by
    rw [leNat_leBytes_of_lt (by simpa using hq)]
    exact Nat.mod_eq_of_lt hq
  simp [doneRequest, hlen, htake, hread]

end Virtmcu.Lockstep
