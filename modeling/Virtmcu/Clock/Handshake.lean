import Virtmcu.Clock.System

/-! # The handshake of worker and vCPU

What is left of the two threads when only the phases of their protocol are kept: the worker receives a
delta, stores it, waits for the vCPU, grants, waits again, decides on an answer and replies; the vCPU is
outside of its wait, attentive to a grant, taking one, or about to report a stall. A yield is not
visible: a vCPU that has yielded is as attentive as one that waits.

`step_refines` says that every step of the device is a step of the handshake. -/

namespace Virtmcu.Clock

/-- The phases of the vCPU. -/
inductive VcpuPhase
  /-- Executing, or entering its wait afresh. -/
  | outside
  /-- Waiting for a grant, possibly on leave by a yield. -/
  | attentive
  /-- It has seen a grant and is about to read the delta. -/
  | taking
  /-- It has given up waiting. -/
  | stalling
  deriving DecidableEq, Repr

/-- The phases of the worker, with the delta of the request it serves. -/
inductive WorkerPhase
  | idle
  /-- The delta is not stored yet. -/
  | arrived (delta : UInt64)
  /-- Waiting for the vCPU to be ready. -/
  | ready (delta : UInt64)
  /-- It has seen that the vCPU is ready. -/
  | granting (delta : UInt64)
  /-- Waiting for the vCPU to be finished. -/
  | executing (delta : UInt64)
  /-- The answer is known up to a stall of the vCPU. -/
  | deciding (delta : UInt64) (code : ErrorCode)
  | decided (delta : UInt64) (code : ErrorCode)
  deriving DecidableEq, Repr

/-- The request of the worker, if any. -/
def WorkerPhase.current : WorkerPhase → List UInt64
  | idle => []
  | arrived d | ready d | granting d | executing d | deciding d _ | decided d _ => [d]

/-- A state of the handshake. -/
structure Handshake where
  state : QuantumState
  deltaNs : UInt64
  pendingStall : Bool
  vcpu : VcpuPhase
  worker : WorkerPhase
  log : List Event
  deriving DecidableEq, Repr

/-- The kinds of steps. -/
inductive Action
  | silent
  /-- The vCPU leaves its wait because the lock of the main loop is held. -/
  | refuse
  /-- The vCPU has waited for too long. -/
  | giveUp
  /-- The vCPU reports a stall. -/
  | stall
  /-- The vCPU enters its wait afresh. -/
  | announce
  | see
  | take
  | receive (delta : UInt64)
  | store
  | ready
  | grant
  | finish
  /-- The worker has waited for too long. -/
  | timeOut
  | swap
  | reply
  deriving DecidableEq, Repr

namespace Handshake

/-- The steps of the handshake. -/
inductive Step : Action → Handshake → Handshake → Prop
  | silent (h : Handshake) : Step .silent h h
  | refuse (h : Handshake) (hv : h.vcpu = .attentive) : Step .refuse h { h with vcpu := .outside }
  | giveUp (h : Handshake) (hv : h.vcpu = .attentive) : Step .giveUp h { h with vcpu := .stalling }
  | stall (h : Handshake) (hv : h.vcpu = .stalling) :
      Step .stall h { h with vcpu := .outside, pendingStall := true }
  | announce (h : Handshake) (hv : h.vcpu = .outside) :
      Step .announce h
        { h with vcpu := .attentive, state := .waiting, log := h.log ++ [.waiting] }
  | see (h : Handshake) (hv : h.vcpu = .attentive) (hs : h.state = .executing) :
      Step .see h { h with vcpu := .taking }
  | take (h : Handshake) (hv : h.vcpu = .taking) (hd : ¬ IsSentinel h.deltaNs) :
      Step .take h { h with vcpu := .outside, log := h.log ++ [.took h.deltaNs] }
  /-- The delta is mistaken for a yield or a stall. -/
  | misread (h : Handshake) (hv : h.vcpu = .taking) (hd : IsSentinel h.deltaNs) (v : VcpuPhase)
      (hphase : v = .outside ∨ v = .attentive) : Step .take h { h with vcpu := v }
  | receive (h : Handshake) (d : UInt64) (hw : h.worker = .idle) :
      Step (.receive d) h { h with worker := .arrived d, log := h.log ++ [.received d] }
  | store (h : Handshake) (d : UInt64) (hw : h.worker = .arrived d) :
      Step .store h { h with worker := .ready d, deltaNs := d }
  | ready (h : Handshake) (d : UInt64) (hw : h.worker = .ready d) (hs : h.state = .waiting) :
      Step .ready h { h with worker := .granting d }
  | grant (h : Handshake) (d : UInt64) (hw : h.worker = .granting d) (hs : h.state = .waiting) :
      Step .grant h
        { h with worker := .executing d, state := .executing, log := h.log ++ [.granted d] }
  /-- The exchange fails, which is logged and otherwise ignored. -/
  | grantFailed (h : Handshake) (d : UInt64) (hw : h.worker = .granting d)
      (hs : h.state = .executing) : Step .grant h { h with worker := .executing d }
  | finish (h : Handshake) (d : UInt64) (hw : h.worker = .executing d)
      (hdone : d = 0 ∨ h.state = .waiting) : Step .finish h { h with worker := .deciding d .ok }
  | timeOut (h : Handshake) (d : UInt64) (hw : h.worker = .ready d ∨ h.worker = .executing d) :
      Step .timeOut h { h with worker := .deciding d .stall }
  | swap (h : Handshake) (d : UInt64) (code : ErrorCode) (hw : h.worker = .deciding d code) :
      Step .swap h
        { h with
          worker := .decided d (if h.pendingStall then .stall else code)
          pendingStall := false }
  | reply (h : Handshake) (d : UInt64) (resp : ClockReadyResp)
      (hw : h.worker = .decided d resp.errorCode) :
      Step .reply h { h with worker := .idle, log := h.log ++ [.replied resp] }

end Handshake

/-! ## The device refines the handshake -/

/-- The phase of the vCPU. -/
def Vcpu.phase (v : Vcpu) : VcpuPhase :=
  match v.pc with
  | .running | .storeVtime _ => if v.isYielding then .attentive else .outside
  | .loadState | .enter => .outside
  | .notify | .spinLoad | .spinCheck | .recheck | .lock | .lockedLoad | .lockedCheck | .asleep =>
      .attentive
  | .stall => .stalling
  | .take => .taking

/-- The phase of the worker. -/
def WorkerPc.phase : WorkerPc → WorkerPhase
  | .top | .receiving | .stopped => .idle
  | .storeDelta req => .arrived req.deltaNs
  | .storeAbsolute req | .readyTop req | .readyLoad req | .readyCheck req | .readyAsleep req =>
      .ready req.deltaNs
  | .grant req => .granting req.deltaNs
  | .notify req | .execTop req | .execLoad req | .execCheck req | .execAsleep req =>
      .executing req.deltaNs
  | .swapPending req code => .deciding req.deltaNs code
  | .loadVtime req code => .decided req.deltaNs code
  | .reply req resp => .decided req.deltaNs resp.errorCode

/-- The handshake of a device. -/
def System.handshake (s : System) : Handshake where
  state := s.backend.state
  deltaNs := s.backend.deltaNs
  pendingStall := s.backend.pendingStall
  vcpu := s.vcpu.phase
  worker := s.worker.phase
  log := s.log

/-- What an action of the handshake tells of the move that performs it. -/
def Cause (s : System) (m : Move) : Action → Prop
  | .refuse => ∃ c, m = .vcpu c ∧ c.bqlHeld = true
  | .giveUp => ∃ c, m = .vcpu c ∧ c.timedOut = true
  | .announce => s.backend.state = .waiting ∨ ∃ c, m = .vcpu c ∧ s.vcpu.pc = .enter
  | .receive d => ∃ c req, m = .worker c ∧ c.request = some req ∧ req.deltaNs = d
  | .store => ∃ c req, m = .worker c ∧ s.worker = .storeDelta req
  | .timeOut => ∃ c, m = .worker c ∧ c.timedOut = true
  | _ => True

section

variable {s : System}

/-- The vCPU leaves its wait with a sentinel that says it is still waiting. -/
theorem handshake_returnRaw_yield (s : System) :
    (s.returnRaw quantumWaitYieldSentinel).handshake = { s.handshake with vcpu := .attentive } := by
  have hsentinel : IsSentinel quantumWaitYieldSentinel := .inr rfl
  simp [System.returnRaw, hsentinel, System.handshake, Vcpu.phase]

theorem handshake_returnRaw_stall (s : System) :
    (s.returnRaw quantumWaitStallSentinel).handshake = { s.handshake with vcpu := .outside } := by
  have hsentinel : IsSentinel quantumWaitStallSentinel := .inl rfl
  have hne : quantumWaitStallSentinel ≠ quantumWaitYieldSentinel := by decide
  simp [System.returnRaw, hsentinel, System.handshake, Vcpu.phase, hne]

theorem handshake_returnRaw_delta {raw : UInt64} (s : System) (hraw : ¬ IsSentinel raw) :
    (s.returnRaw raw).handshake = { s.handshake with vcpu := .outside, log := s.log ++ [.took raw] } := by
  have hne : raw ≠ quantumWaitYieldSentinel := fun h => hraw (.inr h)
  simp [System.returnRaw, hraw, System.handshake, System.record, Vcpu.phase, hne]

/-- A step that changes nothing the handshake shows is silent. -/
theorem silent_of_eq {s s' : System} {m : Move} (h : s'.handshake = s.handshake) :
    ∃ a, Cause s m a ∧ Handshake.Step a s.handshake s'.handshake :=
  ⟨.silent, trivial, h ▸ .silent _⟩

/-- The steps of the vCPU. -/
theorem vcpuStep_refines (c : VcpuChoice) (s : System) (hshutdown : s.backend.shutdown = false) :
    ∃ a, Cause s (.vcpu c) a ∧ Handshake.Step a s.handshake (vcpuStep c s).handshake := by
  obtain ⟨backend, ⟨pc, yielding⟩, worker, log⟩ := s
  have hshutdown' : backend.shutdown = false := hshutdown
  cases pc with
  | running =>
    by_cases hbql : c.bqlHeld = true
    · simp only [vcpuStep, hbql, if_true, handshake_returnRaw_stall]
      cases yielding with
      | true => exact ⟨.refuse, ⟨c, rfl, hbql⟩, .refuse _ rfl⟩
      | false => exact ⟨.silent, trivial, .silent _⟩
    · simp only [vcpuStep, hbql, Bool.false_eq_true, if_false]
      exact silent_of_eq rfl
  | storeVtime now =>
    cases yielding with
    | true | false => exact silent_of_eq rfl
  | loadState =>
    cases hstate : backend.state with
    | waiting =>
      refine ⟨.announce, .inl hstate, ?_⟩
      have hstep := Handshake.Step.announce
        (System.handshake ⟨backend, ⟨.loadState, yielding⟩, worker, log⟩) rfl
      simpa [vcpuStep, hstate, System.handshake, System.record, System.vcpuAt, Vcpu.phase]
        using hstep
    | executing =>
      simp only [vcpuStep, hstate]
      exact silent_of_eq rfl
  | enter => exact ⟨.announce, .inr ⟨c, rfl, rfl⟩, .announce _ rfl⟩
  | notify => exact silent_of_eq rfl
  | spinLoad =>
    cases hstate : backend.state with
    | executing | waiting =>
      simp only [vcpuStep, hstate]
      exact silent_of_eq rfl
  | spinCheck =>
    simp only [vcpuStep, hshutdown', Bool.false_eq_true, if_false]
    split_ifs
    · -- a yield keeps the vCPU attentive
      exact silent_of_eq (handshake_returnRaw_yield _)
    · exact silent_of_eq rfl
    · exact silent_of_eq rfl
  | recheck | lockedLoad =>
    cases hstate : backend.state with
    | executing =>
      simp only [vcpuStep, hstate]
      exact ⟨.see, trivial, .see _ rfl hstate⟩
    | waiting =>
      simp only [vcpuStep, hstate]
      exact silent_of_eq rfl
  | lock => exact silent_of_eq rfl
  | lockedCheck =>
    simp only [vcpuStep, hshutdown', Bool.false_eq_true, if_false]
    split_ifs
    · exact silent_of_eq (handshake_returnRaw_yield _)
    · exact silent_of_eq rfl
  | asleep =>
    by_cases htime : c.timedOut = true
    · simp only [vcpuStep, htime, if_true]
      exact ⟨.giveUp, ⟨c, rfl, htime⟩, .giveUp _ rfl⟩
    · simp only [vcpuStep, htime, Bool.false_eq_true, if_false]
      exact silent_of_eq rfl
  | stall =>
    simp only [vcpuStep, handshake_returnRaw_stall]
    exact ⟨.stall, trivial, .stall _ rfl⟩
  | take =>
    simp only [vcpuStep]
    by_cases hsentinel : IsSentinel backend.deltaNs
    · refine ⟨.take, trivial, ?_⟩
      rcases hsentinel with hstall | hyield
      · rw [hstall, handshake_returnRaw_stall]
        exact .misread _ rfl (.inl hstall) _ (.inl rfl)
      · rw [hyield, handshake_returnRaw_yield]
        exact .misread _ rfl (.inr hyield) _ (.inr rfl)
    · rw [handshake_returnRaw_delta _ hsentinel]
      exact ⟨.take, trivial, .take _ rfl hsentinel⟩

/-- The steps of the worker. -/
theorem workerStep_refines (c : WorkerChoice) (s : System) (hshutdown : s.backend.shutdown = false) :
    ∃ a, Cause s (.worker c) a ∧ Handshake.Step a s.handshake (workerStep c s).handshake := by
  obtain ⟨backend, vcpu, worker, log⟩ := s
  have hshutdown' : backend.shutdown = false := hshutdown
  cases worker with
  | top | readyTop req | execTop req =>
    simp only [workerStep, hshutdown', Bool.false_eq_true, if_false]
    exact silent_of_eq rfl
  | receiving =>
    cases hreq : c.request with
    | none =>
      simp only [workerStep, hreq]
      exact silent_of_eq rfl
    | some req =>
      simp only [workerStep, hreq]
      exact ⟨.receive req.deltaNs, ⟨c, req, rfl, hreq, rfl⟩, .receive _ _ rfl⟩
  | storeDelta req => exact ⟨.store, ⟨c, req, rfl, rfl⟩, .store _ _ rfl⟩
  | storeAbsolute req => exact silent_of_eq rfl
  | readyLoad req =>
    cases hstate : backend.state with
    | waiting =>
      simp only [workerStep, hstate]
      exact ⟨.ready, trivial, .ready _ _ rfl hstate⟩
    | executing =>
      simp only [workerStep, hstate]
      exact silent_of_eq rfl
  | readyCheck req =>
    by_cases htime : c.timedOut = true
    · simp only [workerStep, htime, if_true]
      exact ⟨.timeOut, ⟨c, rfl, htime⟩, .timeOut _ _ (.inl rfl)⟩
    · simp only [workerStep, htime, Bool.false_eq_true, if_false]
      split_ifs <;> exact silent_of_eq rfl
  | readyAsleep req | execAsleep req =>
    simp only [workerStep]
    split_ifs <;> exact silent_of_eq rfl
  | grant req =>
    cases hstate : backend.state with
    | waiting =>
      simp only [workerStep, hstate]
      exact ⟨.grant, trivial, .grant _ _ rfl hstate⟩
    | executing =>
      simp only [workerStep, hstate]
      exact ⟨.grant, trivial, .grantFailed _ _ rfl hstate⟩
  | notify req =>
    simp only [workerStep]
    split_ifs with hlocked hpos
    · exact silent_of_eq rfl
    · exact silent_of_eq rfl
    · -- a request for no time is not waited for
      have hzero : req.deltaNs = 0 := by
        rw [UInt64.pos_iff_ne_zero, not_not] at hpos
        exact hpos
      exact ⟨.finish, trivial, .finish _ _ rfl (.inl hzero)⟩
  | execLoad req =>
    cases hstate : backend.state with
    | waiting =>
      simp only [workerStep, hstate]
      exact ⟨.finish, trivial, .finish _ _ rfl (.inr hstate)⟩
    | executing =>
      simp only [workerStep, hstate]
      exact silent_of_eq rfl
  | execCheck req =>
    by_cases htime : c.timedOut = true
    · simp only [workerStep, htime, if_true]
      exact ⟨.timeOut, ⟨c, rfl, htime⟩, .timeOut _ _ (.inr rfl)⟩
    · simp only [workerStep, htime, Bool.false_eq_true, if_false]
      split_ifs <;> exact silent_of_eq rfl
  | swapPending req code => exact ⟨.swap, trivial, .swap _ _ _ rfl⟩
  | loadVtime req code => exact silent_of_eq rfl
  | reply req resp => exact ⟨.reply, trivial, .reply _ _ _ rfl⟩
  | stopped => exact silent_of_eq rfl

/-- **The device refines the handshake**: short of a shutdown, every step is one of the handshake. -/
theorem step_refines {s : System} {m : Move} (hshutdown : s.backend.shutdown = false) (hm : m ≠ .shutdown) :
    ∃ a, Cause s m a ∧ Handshake.Step a s.handshake (step s m).handshake := by
  cases m with
  | vcpu c => exact vcpuStep_refines c s hshutdown
  | worker c => exact workerStep_refines c s hshutdown
  | shutdown => exact absurd rfl hm

/-- The worker leaves the mutex as it finds it. -/
theorem locked_workerStep (c : WorkerChoice) (s : System) :
    (workerStep c s).backend.locked = s.backend.locked := by
  unfold workerStep
  repeat' split
  all_goals rfl

/-- Only a shutdown sets the flag. -/
theorem shutdown_step {s : System} {m : Move} (hm : m ≠ .shutdown) :
    (step s m).backend.shutdown = s.backend.shutdown := by
  cases m with
  | vcpu c =>
    simp only [step, vcpuStep]
    repeat' split
    all_goals simp [System.vcpuAt, System.record, System.setLocked]
  | worker c =>
    simp only [step, workerStep]
    repeat' split
    all_goals simp [System.workerAt, System.record]
  | shutdown => exact absurd rfl hm

/-- When the last thing seen is a reply, the worker is idle. -/
def Handshake.RestsAfterReply (h : Handshake) : Prop :=
  ∀ log resp, h.log = log ++ [.replied resp] → h.worker = .idle

theorem Handshake.RestsAfterReply.step {a : Action} {h h' : Handshake} (hinv : h.RestsAfterReply)
    (hstep : Handshake.Step a h h') : h'.RestsAfterReply := by
  intro log resp hlog
  -- a step that records another event ends in it, and one that records none finds the worker idle
  have hlast {e : Event} (hlog : h.log ++ [e] = log ++ [.replied resp]) : e = .replied resp :=
    List.singleton_inj.mp (List.append_inj' hlog rfl).2
  have hbusy {w : WorkerPhase} (hw : h.worker = w) (hne : w ≠ .idle) :
      h.log ≠ log ++ [.replied resp] := fun hlog => hne (hw.symm.trans (hinv log resp hlog))
  cases hstep with
  | silent | refuse _ hv | giveUp _ hv | stall _ hv => exact hinv log resp hlog
  | announce _ hv => cases hlast hlog
  | see _ hv hs => exact hinv log resp hlog
  | take _ hv hd => cases hlast hlog
  | misread _ hv hd v hphase => exact hinv log resp hlog
  | receive _ d hw | grant _ d hw hs => cases hlast hlog
  | reply _ d resp' hw => rfl
  | store _ d hw | ready _ d hw hs | grantFailed _ d hw hs | finish _ d hw hdone =>
    exact absurd hlog (hbusy hw nofun)
  | timeOut _ d hw =>
    rcases hw with hw | hw
    · exact absurd hlog (hbusy hw nofun)
    · exact absurd hlog (hbusy hw nofun)
  | swap _ d code hw => exact absurd hlog (hbusy hw nofun)

end

end Virtmcu.Clock
