import Virtmcu.Foundations.Transition
import Mathlib.Algebra.Group.Nat.Defs

/-! # The clock device: worker and vCPU

The two threads of the `VirtmcuClock` device and the memory they share. The worker takes a request of
the time authority, grants its delta and replies when the vCPU has executed it
(`clock_worker_loop`, `wait_for_ready_and_execute`); the vCPU waits at each quantum boundary until it
is granted the next delta (`clock_cpu_halt_cb_internal`, `clock_quantum_wait_internal`).

Every atomic load, store and compare-exchange is a step of its own, and the steps of the threads
interleave freely. What the code asks its surroundings (is the lock of the main loop held, should the
vCPU yield, has a deadline passed, is there a request) is a choice of the step, so durations do not
appear, nor does `is_first_quantum`, which only selects a duration. A condition variable may wake its
waiter at any time. -/

namespace Virtmcu.Clock

open List

/-! ## Messages and memory -/

/-- `QuantumState`. -/
inductive QuantumState
  | executing
  | waiting
  deriving DecidableEq, Repr

/-- `ClockAdvanceReq`. -/
structure ClockAdvanceReq where
  deltaNs : UInt64
  absoluteVtimeNs : UInt64
  quantumNumber : UInt64
  deriving DecidableEq, Repr

/-- `CLOCK_ERROR_OK` and `CLOCK_ERROR_STALL`. -/
inductive ErrorCode
  | ok
  | stall
  deriving DecidableEq, Repr

/-- `ClockReadyResp`. -/
structure ClockReadyResp where
  currentVtimeNs : UInt64
  nFrames : UInt32
  errorCode : ErrorCode
  quantumNumber : UInt64
  deriving DecidableEq, Repr

/-- `QUANTUM_WAIT_STALL_SENTINEL`. -/
def quantumWaitStallSentinel : UInt64 := UInt64.ofNat (2 ^ 64 - 1)

/-- `QUANTUM_WAIT_YIELD_SENTINEL`. -/
def quantumWaitYieldSentinel : UInt64 := UInt64.ofNat (2 ^ 64 - 2)

/-- The value is one the vCPU does not take for a delta. -/
def IsSentinel (raw : UInt64) : Prop :=
  raw = quantumWaitStallSentinel ∨ raw = quantumWaitYieldSentinel

instance (raw : UInt64) : Decidable (IsSentinel raw) :=
  inferInstanceAs (Decidable (_ ∨ _))

/-- `VirtmcuClockBackend`, the part that both threads use. -/
structure Backend where
  state : QuantumState
  deltaNs : UInt64
  vtimeNs : UInt64
  absoluteVtimeNs : UInt64
  pendingStall : Bool
  shutdown : Bool
  /-- The vCPU holds the mutex. The worker holds it for no longer than a step. -/
  locked : Bool
  deriving DecidableEq, Repr

/-! ## The threads -/

/-- Where the vCPU is. -/
inductive VcpuPc
  /-- Outside of `clock_quantum_wait_internal`. -/
  | running
  /-- At `backend.vtime_ns.store`. -/
  | storeVtime (now : UInt64)
  /-- At the load of the state, on entry. -/
  | loadState
  /-- At the transition to `Waiting`. -/
  | enter
  /-- At the notification that the previous quantum is finished. -/
  | notify
  /-- At the load of the state that heads the spin loop. -/
  | spinLoad
  /-- In the body of the spin loop. -/
  | spinCheck
  /-- At the load of the state after the spin loop. -/
  | recheck
  /-- At the acquisition of the mutex. -/
  | lock
  /-- At the load of the state under the mutex. -/
  | lockedLoad
  /-- In the body of the loop under the mutex, before the wait. -/
  | lockedCheck
  /-- In `cond.wait_timeout`. -/
  | asleep
  /-- At `pending_stall.store(true)`. -/
  | stall
  /-- At `delta_ns.load`. -/
  | take
  deriving DecidableEq, Repr

/-- The vCPU thread. -/
structure Vcpu where
  pc : VcpuPc
  isYielding : Bool
  deriving DecidableEq, Repr

/-- Where the worker is, with the request it serves. -/
inductive WorkerPc
  /-- At the head of the worker loop. -/
  | top
  /-- In `recv_advance`. -/
  | receiving
  /-- At `delta_ns.store`. -/
  | storeDelta (req : ClockAdvanceReq)
  /-- At `absolute_vtime_ns.store`. -/
  | storeAbsolute (req : ClockAdvanceReq)
  /-- At the head of the loop that waits for the vCPU to be ready. -/
  | readyTop (req : ClockAdvanceReq)
  /-- At the load of the state in that loop. -/
  | readyLoad (req : ClockAdvanceReq)
  /-- At the check of the deadline in that loop. -/
  | readyCheck (req : ClockAdvanceReq)
  /-- In `cond.wait_timeout` in that loop. -/
  | readyAsleep (req : ClockAdvanceReq)
  /-- At the transition to `Executing`. -/
  | grant (req : ClockAdvanceReq)
  /-- At the notification of the grant. -/
  | notify (req : ClockAdvanceReq)
  /-- At the head of the loop that waits for the vCPU to be finished. -/
  | execTop (req : ClockAdvanceReq)
  /-- At the load of the state in that loop. -/
  | execLoad (req : ClockAdvanceReq)
  /-- At the check of the deadline in that loop. -/
  | execCheck (req : ClockAdvanceReq)
  /-- In `cond.wait_timeout` in that loop. -/
  | execAsleep (req : ClockAdvanceReq)
  /-- At `pending_stall.swap(false)`. -/
  | swapPending (req : ClockAdvanceReq) (code : ErrorCode)
  /-- At `vtime_ns.load`. -/
  | loadVtime (req : ClockAdvanceReq) (code : ErrorCode)
  /-- At `send_ready`. -/
  | reply (req : ClockAdvanceReq) (resp : ClockReadyResp)
  /-- Returned. -/
  | stopped
  deriving DecidableEq, Repr

/-- What can be seen of a run. -/
inductive Event
  /-- The worker receives a request with this delta. -/
  | received (delta : UInt64)
  /-- The worker makes the transition to `Executing`, for this delta. -/
  | granted (delta : UInt64)
  /-- The vCPU leaves the quantum wait with this delta. -/
  | took (delta : UInt64)
  /-- The vCPU enters the quantum wait afresh, and the state is `Waiting`. -/
  | waiting
  /-- The worker replies. -/
  | replied (resp : ClockReadyResp)
  deriving DecidableEq, Repr

/-- Both threads, their memory, and what has been seen so far. No step reads the log. -/
structure System where
  backend : Backend
  vcpu : Vcpu
  worker : WorkerPc
  log : List Event
  deriving DecidableEq, Repr

namespace System

/-- The device as `clock_init_with_transport` makes it; the vCPU has not come to its first boundary. -/
def initial : System where
  backend := ⟨.waiting, 0, 0, 0, false, false, false⟩
  vcpu := ⟨.running, false⟩
  worker := .top
  log := []

def vcpuAt (s : System) (pc : VcpuPc) : System := { s with vcpu := { s.vcpu with pc := pc } }

def workerAt (s : System) (pc : WorkerPc) : System := { s with worker := pc }

def setLocked (s : System) (locked : Bool) : System :=
  { s with backend := { s.backend with locked := locked } }

def record (s : System) (e : Event) : System := { s with log := s.log ++ [e] }

/-- `clock_quantum_wait_internal` returns a value to `clock_cpu_halt_cb_internal`, which takes it for a
delta unless it is a sentinel. -/
def returnRaw (s : System) (raw : UInt64) : System :=
  let s' := { s with vcpu := ⟨.running, raw = quantumWaitYieldSentinel⟩ }
  if IsSentinel raw then s' else s'.record (.took raw)

@[simp] theorem backend_returnRaw (s : System) (raw : UInt64) : (s.returnRaw raw).backend = s.backend := by
  unfold returnRaw
  split <;> rfl

@[simp] theorem pc_returnRaw (s : System) (raw : UInt64) : (s.returnRaw raw).vcpu.pc = .running := by
  unfold returnRaw
  split <;> rfl

end System

/-! ## Steps -/

/-- What a step of the vCPU finds around it. -/
structure VcpuChoice where
  /-- The virtual time. -/
  now : UInt64
  /-- `Bql::is_held()`. -/
  bqlHeld : Bool
  /-- `virtmcu_vcpu_should_yield()`. -/
  shouldYield : Bool
  /-- The vCPU has spun for more than a millisecond. -/
  spun : Bool
  /-- The wait has lasted longer than the stall timeout. -/
  timedOut : Bool
  deriving DecidableEq, Repr

/-- A step of the vCPU. -/
def vcpuStep (c : VcpuChoice) (s : System) : System :=
  match s.vcpu.pc with
  | .running =>
      if c.bqlHeld then s.returnRaw quantumWaitStallSentinel else s.vcpuAt (.storeVtime c.now)
  | .storeVtime now =>
      let s' := { s with backend := { s.backend with vtimeNs := now } }
      -- a vCPU that comes back from a yield is still waiting
      if s.vcpu.isYielding then s'.vcpuAt .spinLoad else s'.vcpuAt .loadState
  | .loadState =>
      match s.backend.state with
      | .waiting => (s.record .waiting).vcpuAt .notify
      | .executing => s.vcpuAt .enter
  | .enter =>
      -- the exchange fails only if the state is `Waiting` already
      (({ s with backend := { s.backend with state := .waiting } } : System).record .waiting).vcpuAt
        .notify
  | .notify => s.vcpuAt .spinLoad
  | .spinLoad =>
      match s.backend.state with
      | .executing => s.vcpuAt .recheck
      | .waiting => s.vcpuAt .spinCheck
  | .spinCheck =>
      if s.backend.shutdown then s.returnRaw 0
      else if c.shouldYield then s.returnRaw quantumWaitYieldSentinel
      else if c.spun then s.vcpuAt .recheck
      else s.vcpuAt .spinLoad
  | .recheck =>
      match s.backend.state with
      | .executing => s.vcpuAt .take
      | .waiting => s.vcpuAt .lock
  | .lock => (s.setLocked true).vcpuAt .lockedLoad
  | .lockedLoad =>
      match s.backend.state with
      | .executing => (s.setLocked false).vcpuAt .take
      | .waiting => s.vcpuAt .lockedCheck
  | .lockedCheck =>
      if s.backend.shutdown then (s.setLocked false).returnRaw 0
      else if c.shouldYield then (s.setLocked false).returnRaw quantumWaitYieldSentinel
      else (s.setLocked false).vcpuAt .asleep
  | .asleep =>
      if c.timedOut then (s.setLocked true).vcpuAt .stall else (s.setLocked true).vcpuAt .lockedLoad
  | .stall =>
      let s' := { s with backend := { s.backend with pendingStall := true } }
      (s'.setLocked false).returnRaw quantumWaitStallSentinel
  | .take => s.returnRaw s.backend.deltaNs

/-- What a step of the worker finds around it. -/
structure WorkerChoice where
  /-- The request `recv_advance` returns, if any. -/
  request : Option ClockAdvanceReq
  /-- The deadline has passed. -/
  timedOut : Bool
  deriving DecidableEq, Repr

/-- A step of the worker. A worker that needs the mutex stays where it is while the vCPU holds it. -/
def workerStep (c : WorkerChoice) (s : System) : System :=
  match s.worker with
  | .top => if s.backend.shutdown then s.workerAt .stopped else s.workerAt .receiving
  | .receiving =>
      match c.request with
      | some req => (s.record (.received req.deltaNs)).workerAt (.storeDelta req)
      | none => s.workerAt .top
  | .storeDelta req =>
      ({ s with backend := { s.backend with deltaNs := req.deltaNs } } : System).workerAt
        (.storeAbsolute req)
  | .storeAbsolute req =>
      ({ s with backend := { s.backend with absoluteVtimeNs := req.absoluteVtimeNs } } :
        System).workerAt (.readyTop req)
  | .readyTop req =>
      if s.backend.shutdown then s.workerAt (.swapPending req .ok) else s.workerAt (.readyLoad req)
  | .readyLoad req =>
      match s.backend.state with
      | .waiting => s.workerAt (.grant req)
      | .executing => s.workerAt (.readyCheck req)
  | .readyCheck req =>
      if c.timedOut then s.workerAt (.swapPending req .stall)
      else if s.backend.locked then s else s.workerAt (.readyAsleep req)
  | .readyAsleep req => if s.backend.locked then s else s.workerAt (.readyTop req)
  | .grant req =>
      match s.backend.state with
      | .waiting =>
          (({ s with backend := { s.backend with state := .executing } } : System).record
            (.granted req.deltaNs)).workerAt (.notify req)
      | .executing => s.workerAt (.notify req)
  | .notify req =>
      if s.backend.locked then s
      else if 0 < req.deltaNs then s.workerAt (.execTop req)
      else s.workerAt (.swapPending req .ok)
  | .execTop req =>
      if s.backend.shutdown then s.workerAt (.swapPending req .ok) else s.workerAt (.execLoad req)
  | .execLoad req =>
      match s.backend.state with
      | .waiting => s.workerAt (.swapPending req .ok)
      | .executing => s.workerAt (.execCheck req)
  | .execCheck req =>
      if c.timedOut then s.workerAt (.swapPending req .stall)
      else if s.backend.locked then s else s.workerAt (.execAsleep req)
  | .execAsleep req => if s.backend.locked then s else s.workerAt (.execTop req)
  | .swapPending req code =>
      let code' := if s.backend.pendingStall then .stall else code
      ({ s with backend := { s.backend with pendingStall := false } } : System).workerAt
        (.loadVtime req code')
  | .loadVtime req code =>
      s.workerAt (.reply req ⟨s.backend.vtimeNs, 0, code, req.quantumNumber⟩)
  | .reply _ resp => (s.record (.replied resp)).workerAt .top
  | .stopped => s

/-- A step of one of the threads, or of `ClockManager::drop`, which sets the shutdown flag. -/
inductive Move
  | vcpu (choice : VcpuChoice)
  | worker (choice : WorkerChoice)
  | shutdown
  deriving DecidableEq, Repr

/-- One step of the device. -/
def step (s : System) : Move → System
  | .vcpu c => vcpuStep c s
  | .worker c => workerStep c s
  | .shutdown => { s with backend := { s.backend with shutdown := true } }

/-- A step of the vCPU with nothing special around it. -/
def plainVcpu : Move := .vcpu ⟨0, false, false, false, false⟩

/-- A step of the worker with nothing special around it. -/
def plainWorker : Move := .worker ⟨none, false⟩

/-- The worker finds a request. -/
def requestMove (delta : UInt64) : Move := .worker ⟨some ⟨delta, 0, 1⟩, false⟩

/-- The worker serves a request up to its grant. -/
def grantMoves (delta : UInt64) : List Move :=
  plainWorker :: requestMove delta :: List.replicate 6 plainWorker

/-! ## What has been seen -/

/-- The deltas of the requests received so far. -/
def requests (log : List Event) : List UInt64 :=
  log.filterMap fun
    | .received delta => some delta
    | _ => none

/-- The deltas the vCPU has taken so far. -/
def taken (log : List Event) : List UInt64 :=
  log.filterMap fun
    | .took delta => some delta
    | _ => none

/-- The error codes of the replies so far. -/
def replies (log : List Event) : List ErrorCode :=
  log.filterMap fun
    | .replied resp => some resp.errorCode
    | _ => none

/-- The requests answered so far, with the answers. -/
def answered (log : List Event) : List (UInt64 × ErrorCode) := (requests log).zip (replies log)

/-- The delta that is granted and that the vCPU has neither taken nor withdrawn by entering its wait
afresh. -/
def untaken (log : List Event) : Option UInt64 :=
  log.foldl (fun pending e =>
    match e with
    | .granted delta => some delta
    | .took _ | .waiting => none
    | _ => pending) none

/-- The vCPU has taken a delta and has not entered its wait since. -/
def isExecuting (log : List Event) : Bool :=
  log.foldl (fun executing e =>
    match e with
    | .took _ => true
    | .waiting => false
    | _ => executing) false

section

variable (log log' : List Event)

theorem requests_append : requests (log ++ log') = requests log ++ requests log' :=
  filterMap_append

theorem taken_append : taken (log ++ log') = taken log ++ taken log' := filterMap_append

theorem replies_append : replies (log ++ log') = replies log ++ replies log' :=
  filterMap_append

/-- The event is neither a request, a reply nor a delta taken. -/
def Event.isInternal : Event → Bool
  | .granted _ | .waiting => true
  | _ => false

theorem requests_append_of_isInternal {e : Event} (he : e.isInternal = true) :
    requests (log ++ [e]) = requests log := by
  cases e with
  | granted d | waiting => simp [requests]
  | _ => cases he

theorem replies_append_of_isInternal {e : Event} (he : e.isInternal = true) :
    replies (log ++ [e]) = replies log := by
  cases e with
  | granted d | waiting => simp [replies]
  | _ => cases he

theorem taken_append_of_isInternal {e : Event} (he : e.isInternal = true) :
    taken (log ++ [e]) = taken log := by
  cases e with
  | granted d | waiting => simp [taken]
  | _ => cases he

theorem isExecuting_append (e : Event) : isExecuting (log ++ [e]) =
      match e with
      | .took _ => true
      | .waiting => false
      | _ => isExecuting log := by
  rw [isExecuting, foldl_append]
  rfl

@[simp] theorem untaken_append_received (d : UInt64) : untaken (log ++ [.received d]) = untaken log := by
  rw [untaken, foldl_append]
  rfl

@[simp] theorem untaken_append_granted (d : UInt64) : untaken (log ++ [.granted d]) = some d := by
  rw [untaken, foldl_append]
  rfl

@[simp] theorem untaken_append_took (d : UInt64) : untaken (log ++ [.took d]) = none := by
  rw [untaken, foldl_append]
  rfl

@[simp] theorem untaken_append_waiting : untaken (log ++ [.waiting]) = none := by
  rw [untaken, foldl_append]
  rfl

@[simp] theorem untaken_append_replied (resp : ClockReadyResp) :
    untaken (log ++ [.replied resp]) = untaken log := by
  rw [untaken, foldl_append]
  rfl

end

end Virtmcu.Clock
