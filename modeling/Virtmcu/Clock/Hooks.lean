import Mathlib.Algebra.Order.BigOperators.Group.Finset
import Virtmcu.Clock.Handshake
import Virtmcu.Foundations.Fairness

/-! # Clock hooks and the end of the device

Every vCPU thread comes by `clock_cpu_halt_cb` and leaves it again, with or without the big lock. The
hook counts itself in `ACTIVE_HOOKS` before it loads `GLOBAL_CLOCK`, and out again when it is done with
the device. One thread runs `clock_instance_finalize`: it clears `GLOBAL_CLOCK` before it reads the
count, and `ClockManager::drop` waits until the count is zero.

The hooks of any number of vCPUs run on one backend, each through the quantum wait of `Clock.System`,
beside the worker, the finalizer, and other threads that use the big lock. A hook that has the device
finds it alive (`hasFreed_of_isInside`). -/

namespace Virtmcu.Clock

open Function

/-! ## The quantum wait -/

namespace VcpuPc

/-- The next step in the wait takes the mutex. -/
def needsMutex : VcpuPc → Bool
  | .notify => true
  | .lock => true
  | .asleep => true
  | _ => false

/-- The vCPU holds the mutex. -/
def hasMutex : VcpuPc → Bool
  | .lockedLoad => true
  | .lockedCheck => true
  | .stall => true
  | _ => false

/-- The steps before the vCPU at most until the wait returns, once the shutdown flag is set. -/
def rank : VcpuPc → ℕ
  | .running => 10
  | .storeVtime _ => 9
  | .loadState => 8
  | .enter => 7
  | .notify => 6
  | .spinLoad => 5
  | .recheck => 4
  | .lock => 3
  | .asleep => 3
  | .lockedLoad => 2
  | .spinCheck => 1
  | .lockedCheck => 1
  | .stall => 1
  | .take => 1

/-- The holder of the mutex does not wait for it. -/
theorem needsMutex_of_hasMutex {pc : VcpuPc} (h : pc.hasMutex = true) : pc.needsMutex = false := by
  cases pc <;> first | rfl | cases h

theorem rank_pos (pc : VcpuPc) : 0 < pc.rank := by
  cases pc <;> exact Nat.le_of_ble_eq_true rfl

end VcpuPc

section

variable (s : System)

/-- A mutex that is locked after a step of the vCPU is its own, or is somebody else's and was so
before. -/
theorem hasMutex_of_locked_vcpuStep (c : VcpuChoice) : (vcpuStep c s).backend.locked = true →
      (vcpuStep c s).vcpu.pc.hasMutex = true ∨ (s.backend.locked = true ∧ s.vcpu.pc.hasMutex = false) := by
  unfold vcpuStep
  cases hpc : s.vcpu.pc with
  | enter | notify => exact fun h => .inr ⟨h, rfl⟩
  | lock => exact fun _ => .inl rfl
  | stall =>
    rw [System.backend_returnRaw]
    exact nofun
  | take =>
    rw [System.backend_returnRaw]
    exact fun h => .inr ⟨h, rfl⟩
  | asleep =>
    simp only
    split <;> exact fun _ => .inl rfl
  | lockedLoad =>
    simp only
    split
    · exact nofun
    · exact fun _ => .inl rfl
  | lockedCheck =>
    simp only
    split_ifs
    · rw [System.backend_returnRaw]
      exact nofun
    · rw [System.backend_returnRaw]
      exact nofun
    · exact nofun
  | running =>
    simp only
    split
    · rw [System.backend_returnRaw]
      exact fun h => .inr ⟨h, rfl⟩
    · exact fun h => .inr ⟨h, rfl⟩
  | storeVtime now | loadState | spinLoad | recheck =>
    simp only
    split <;> exact fun h => .inr ⟨h, rfl⟩
  | spinCheck =>
    simp only
    split_ifs
    · rw [System.backend_returnRaw]
      exact fun h => .inr ⟨h, rfl⟩
    · rw [System.backend_returnRaw]
      exact fun h => .inr ⟨h, rfl⟩
    · exact fun h => .inr ⟨h, rfl⟩
    · exact fun h => .inr ⟨h, rfl⟩

/-- **A vCPU in the wait gets nearer to its return** with every step, once the flag is set. -/
theorem rank_vcpuStep (hshutdown : s.backend.shutdown = true) (c : VcpuChoice) :
    (vcpuStep c s).vcpu.pc = .running ∨ (vcpuStep c s).vcpu.pc.rank < s.vcpu.pc.rank := by
  unfold vcpuStep
  cases hpc : s.vcpu.pc with
  | enter | notify | lock => exact .inr (Nat.le_of_ble_eq_true rfl)
  | stall | take => exact .inl (System.pc_returnRaw _ _)
  -- the two places where the flag is looked at
  | spinCheck | lockedCheck =>
    simp only [hshutdown, if_true]
    exact .inl (System.pc_returnRaw _ _)
  | running =>
    simp only
    split
    · exact .inl (System.pc_returnRaw _ _)
    · exact .inr (Nat.le_of_ble_eq_true rfl)
  | storeVtime now | loadState | spinLoad | recheck | lockedLoad | asleep =>
    simp only
    split <;> exact .inr (Nat.le_of_ble_eq_true rfl)

end

namespace Hooks

variable {k : ℕ}

/-! ## The threads -/

/-- Who holds the big lock. -/
inductive BqlOwner (k : ℕ)
  | nobody
  | vcpu (i : Fin k)
  | finalizer
  | other
  deriving DecidableEq, Repr

/-- `VirtmcuClock`, the fields the hooks use. -/
structure Device where
  nodeId : UInt32
  nextQuantumNs : Int64
  isYielding : Bool
  /-- `rust_state` is not null. -/
  hasState : Bool
  /-- `quantum_timer` is not null. -/
  hasTimer : Bool
  deriving DecidableEq

/-- Where a vCPU thread is. -/
inductive HookPc
  | outside
  /-- Counted, at the load of `GLOBAL_CLOCK`. -/
  | counted
  /-- At the first look at `rust_state`. -/
  | loaded
  /-- In `clock_cpu_halt_cb_internal`, before the quantum boundary. -/
  | entered
  /-- At the second look at `rust_state`. -/
  | recheck (now : Int64)
  /-- At `&*s.rust_state`. -/
  | deref (now : Int64)
  /-- At `Bql::temporary_unlock`. -/
  | unlock (now : Int64)
  /-- At the call of `clock_quantum_wait_internal`. -/
  | call (now : Int64) (released : Bool)
  /-- In `clock_quantum_wait_internal`. -/
  | waiting (now : Int64) (released : Bool) (vcpu : Vcpu)
  /-- At the store of `is_yielding`. -/
  | returned (now : Int64) (released : Bool) (delta : UInt64) (isYielding : Bool)
  /-- At `drop(bql_unlock)`. -/
  | relock (now : Int64) (released : Bool) (delta : UInt64)
  /-- At the next boundary. -/
  | advance (now : Int64) (delta : UInt64)
  /-- At the drop of the guard, which counts the hook out. -/
  | leaving
  deriving DecidableEq

/-- Where the thread that finalizes the device is. -/
inductive FinalizerPc
  | idle
  /-- `GLOBAL_CLOCK` is cleared; at the look at `rust_state`. -/
  | checkState
  /-- At `Box::from_raw`, and `rust_state` is set to null. -/
  | clearState
  /-- In `ClockManager::drop`, at the store of the shutdown flag. -/
  | setShutdown
  /-- At the lock, and the notification. -/
  | lock
  /-- At the load of `ACTIVE_HOOKS`. -/
  | drainLoad
  /-- At `Bql::temporary_unlock`. -/
  | drainUnlock
  /-- At `cond.wait_timeout`. -/
  | drainWait (released : Bool)
  /-- In `cond.wait_timeout`. -/
  | drainAsleep (released : Bool)
  /-- At `drop(bql_unlock)`, with the mutex. -/
  | drainRelock (released : Bool)
  /-- At `drop(guard)`. -/
  | unlock
  /-- At the join of the worker. -/
  | join
  /-- At the end of `_manager`. -/
  | free
  /-- At the timer. -/
  | freeTimer
  | finished
  deriving DecidableEq, Repr

/-- The device, its threads, and the big lock. -/
structure State (k : ℕ) where
  /-- `GLOBAL_CLOCK` is not null. -/
  global : Bool
  activeHooks : ℕ
  device : Device
  /-- The mutex is locked if a hook or the finalizer holds it. -/
  backend : Backend
  worker : WorkerPc
  bql : BqlOwner k
  hook : Fin k → HookPc
  finalizer : FinalizerPc
  /-- A null pointer was followed, and the process is gone. -/
  crashed : Bool

/-- The device as `clock_realize` leaves it. -/
def initial (k : ℕ) (device : Device) : State k where
  global := true
  activeHooks := 0
  device := { device with hasState := true, hasTimer := true }
  backend := System.initial.backend
  worker := System.initial.worker
  bql := .nobody
  hook := fun _ => .outside
  finalizer := .idle
  crashed := false

variable {owner : BqlOwner k}

namespace State

def hookAt (s : State k) (i : Fin k) (pc : HookPc) : State k :=
  { s with hook := Function.update s.hook i pc }

def finalizerAt (s : State k) (pc : FinalizerPc) : State k := { s with finalizer := pc }

def setLocked (s : State k) (locked : Bool) : State k :=
  { s with backend := { s.backend with locked := locked } }

/-- `Bql::temporary_unlock`. -/
def temporaryUnlock (s : State k) (owner : BqlOwner k) : State k :=
  { s with bql := if s.bql = owner then .nobody else s.bql }

/-- `drop(bql_unlock)`, which does nothing if the lock was not released. -/
def relock (s : State k) (owner : BqlOwner k) (released : Bool) : State k :=
  { s with bql := if released then owner else s.bql }

theorem temporaryUnlock_bql (s : State k) (owner : BqlOwner k) : (s.temporaryUnlock owner).bql = s.bql ∨
      (s.bql = owner ∧ (s.temporaryUnlock owner).bql = .nobody) := by
  by_cases howner : s.bql = owner
  · exact .inr ⟨howner, if_pos howner⟩
  · exact .inl (if_neg howner)

theorem temporaryUnlock_bql_ne (s : State k) (howner : owner ≠ .nobody) :
    (s.temporaryUnlock owner).bql ≠ owner := by
  by_cases hsame : s.bql = owner
  · rw [temporaryUnlock, if_pos hsame]
    exact howner.symm
  · rw [temporaryUnlock, if_neg hsame]
    exact hsame

end State

/-! ## Steps -/

/-- What a step of a hook finds around it. -/
structure HookChoice where
  /-- `qemu_clock_get_ns`. -/
  now : Int64
  vcpu : VcpuChoice

/-- The vCPU comes by the hook, which counts itself. -/
def enter (i : Fin k) (s : State k) : State k :=
  { s.hookAt i .counted with activeHooks := s.activeHooks + 1 }

/-- A step inside `clock_quantum_wait_internal`. -/
def waitStep (c : VcpuChoice) (i : Fin k) (now : Int64) (vcpu : Vcpu) (s : State k) : System :=
  vcpuStep { c with now := now.toUInt64, bqlHeld := s.bql = .vcpu i } ⟨s.backend, vcpu, s.worker, []⟩

/-- A step of a hook. -/
def hookStep (c : HookChoice) (i : Fin k) (s : State k) : State k :=
  match s.hook i with
  | .outside => s
  | .counted => if s.global then s.hookAt i .loaded else s.hookAt i .leaving
  | .loaded => if s.device.hasState then s.hookAt i .entered else s.hookAt i .leaving
  | .entered =>
      -- without a node id the device is bypassed
      if s.device.nodeId = 0xFFFFFFFF then s.hookAt i .leaving
      else if s.device.nextQuantumNs ≤ c.now then s.hookAt i (.recheck c.now)
      else s.hookAt i .leaving
  | .recheck now =>
      if s.device.hasState then s.hookAt i (.deref now) else s.hookAt i .leaving
  | .deref now =>
      if s.device.hasState then s.hookAt i (.unlock now) else { s with crashed := true }
  | .unlock now =>
      (s.temporaryUnlock (.vcpu i)).hookAt i (.call now (s.bql = .vcpu i))
  | .call now released => s.hookAt i (.waiting now released ⟨.running, s.device.isYielding⟩)
  | .waiting now released vcpu =>
      let t := waitStep c.vcpu i now vcpu s
      let s' := { s with backend := t.backend }
      if t.vcpu.pc = .running then
        -- a sentinel is no delta
        s'.hookAt i (.returned now released ((taken t.log).headD 0) t.vcpu.isYielding)
      else s'.hookAt i (.waiting now released t.vcpu)
  | .returned now released delta isYielding =>
      ({ s with device := { s.device with isYielding := isYielding } } : State k).hookAt i
        (.relock now released delta)
  | .relock now released delta => (s.relock (.vcpu i) released).hookAt i (.advance now delta)
  | .advance now delta =>
      let target := now + delta.toInt64
      let next := if target < c.now then c.now else target
      ({ s with device := { s.device with nextQuantumNs := next } } : State k).hookAt i .leaving
  | .leaving => { s.hookAt i .outside with activeHooks := s.activeHooks - 1 }

/-- A step of `clock_instance_finalize`. Its first step clears `GLOBAL_CLOCK`. -/
def finalizeStep (s : State k) : State k :=
  match s.finalizer with
  | .idle => s
  | .checkState =>
      if s.device.hasState then s.finalizerAt .clearState else s.finalizerAt .freeTimer
  | .clearState =>
      ({ s with device := { s.device with hasState := false } } : State k).finalizerAt .setShutdown
  | .setShutdown =>
      ({ s with backend := { s.backend with shutdown := true } } : State k).finalizerAt .lock
  | .lock => (s.setLocked true).finalizerAt .drainLoad
  | .drainLoad =>
      if 0 < s.activeHooks then s.finalizerAt .drainUnlock else s.finalizerAt .unlock
  | .drainUnlock =>
      (s.temporaryUnlock .finalizer).finalizerAt (.drainWait (s.bql = .finalizer))
  | .drainWait released => (s.setLocked false).finalizerAt (.drainAsleep released)
  | .drainAsleep released => (s.setLocked true).finalizerAt (.drainRelock released)
  | .drainRelock released => (s.relock .finalizer released).finalizerAt .drainLoad
  | .unlock => (s.setLocked false).finalizerAt .join
  | .join => s.finalizerAt .free
  | .free => s.finalizerAt .freeTimer
  | .freeTimer =>
      ({ s with device := { s.device with hasTimer := false } } : State k).finalizerAt .finished
  | .finished => s

/-- A step of the worker, which holds the mutex for no longer than a step. -/
def serveStep (c : WorkerChoice) (s : State k) : State k :=
  let t := workerStep c ⟨s.backend, ⟨.running, false⟩, s.worker, []⟩
  { s with backend := t.backend, worker := t.worker }

/-- What can happen. -/
inductive Move (k : ℕ)
  | enter (i : Fin k)
  | hook (i : Fin k) (choice : HookChoice)
  /-- `clock_instance_finalize` is called. The halt hook stays registered. -/
  | begin
  | finalize
  | worker (choice : WorkerChoice)
  /-- A vCPU takes the big lock outside of the hooks. -/
  | vcpuLock (i : Fin k)
  | vcpuUnlock (i : Fin k)
  /-- The finalizer's thread takes the big lock outside of `clock_instance_finalize`. -/
  | finalizerLock
  | finalizerUnlock
  | otherLock
  | otherUnlock

/-- One step. -/
def step (s : State k) : Move k → State k
  | .enter i => enter i s
  | .hook i c => hookStep c i s
  | .begin => { s with global := false, finalizer := .checkState }
  | .finalize => finalizeStep s
  | .worker c => serveStep c s
  | .vcpuLock i => { s with bql := .vcpu i }
  | .vcpuUnlock _ => { s with bql := .nobody }
  | .finalizerLock => { s with bql := .finalizer }
  | .finalizerUnlock => { s with bql := .nobody }
  | .otherLock => { s with bql := .other }
  | .otherUnlock => { s with bql := .nobody }

/-- The hook is not held up by a lock. -/
def hookReady (s : State k) (i : Fin k) : Bool :=
  match s.hook i with
  | .outside => false
  | .waiting _ _ vcpu => !(vcpu.pc.needsMutex && s.backend.locked)
  | .relock _ released _ => !released || s.bql = .nobody || s.bql = .vcpu i
  | _ => true

/-- The finalizer is not held up by a lock or by the worker. -/
def finalizerReady (s : State k) : Bool :=
  match s.finalizer with
  | .idle => false
  | .lock => !s.backend.locked
  | .drainAsleep _ => !s.backend.locked
  | .drainRelock released => !released || s.bql = .nobody || s.bql = .finalizer
  | .join => s.worker = .stopped
  | .finished => false
  | _ => true

/-- The step is not held up. -/
def ready (s : State k) : Move k → Bool
  | .enter i => s.hook i = .outside
  | .hook i _ => hookReady s i
  | .begin => s.finalizer = .idle
  | .finalize => finalizerReady s
  | .worker _ => true
  | .vcpuLock i => s.hook i = .outside && s.bql = .nobody
  | .vcpuUnlock i => s.hook i = .outside && s.bql = .vcpu i
  | .finalizerLock => (s.finalizer = .idle || s.finalizer = .finished) && s.bql = .nobody
  | .finalizerUnlock => (s.finalizer = .idle || s.finalizer = .finished) && s.bql = .finalizer
  | .otherLock => s.bql = .nobody
  | .otherUnlock => s.bql = .other

/-- The step can be taken. -/
def enabled (s : State k) (move : Move k) : Bool := !s.crashed && ready s move

theorem enabled_eq_true {s : State k} {move : Move k} :
    enabled s move = true ↔ s.crashed = false ∧ ready s move = true := by
  rw [enabled, Bool.and_eq_true, Bool.not_eq_true']

/-! ## What a step of a hook does -/

namespace HookPc

/-- The share of the thread in `ACTIVE_HOOKS`. -/
def count : HookPc → ℕ
  | .outside => 0
  | _ => 1

/-- The hook has found the device, and is not done with it. -/
def isInside : HookPc → Bool
  | .outside => false
  | .counted => false
  | .leaving => false
  | _ => true

/-- The hook is about to follow `rust_state`. -/
def isDeref : HookPc → Bool
  | .deref _ => true
  | _ => false

/-- The hook has given up the big lock, if it had it. -/
def isUnlocked : HookPc → Bool
  | .call _ _ => true
  | .waiting _ _ _ => true
  | .returned _ _ _ _ => true
  | .relock _ _ _ => true
  | _ => false

/-- The hook holds the mutex. -/
def hasMutex : HookPc → Bool
  | .waiting _ _ vcpu => vcpu.pc.hasMutex
  | _ => false

/-- The steps before the hook at most until it is done with the device, once the shutdown flag is set. -/
def rank : HookPc → ℕ
  | .loaded => 19
  | .entered => 18
  | .recheck _ => 17
  | .deref _ => 16
  | .unlock _ => 15
  | .call _ _ => 14
  | .waiting _ _ vcpu => vcpu.pc.rank + 3
  | .returned _ _ _ _ => 3
  | .relock _ _ _ => 2
  | .advance _ _ => 1
  | _ => 0

end HookPc

/-- What a step of a hook can do. -/
structure HookEffect (s s' : State k) (i : Fin k) (pc : HookPc) : Prop where
  hook : s'.hook = Function.update s.hook i pc
  global : s'.global = s.global
  finalizer : s'.finalizer = s.finalizer
  state : s'.device.hasState = s.device.hasState
  shutdown : s'.backend.shutdown = s.backend.shutdown
  counted : s'.activeHooks + (s.hook i).count = s.activeHooks + pc.count
  /-- Only a device that is registered is found. -/
  inside : pc.isInside = true → (s.hook i).isInside = true ∨ s.global = true
  locked : s'.backend.locked = true →
    pc.hasMutex = true ∨ (s.backend.locked = true ∧ (s.hook i).hasMutex = false)
  /-- The hook takes the big lock from nobody, and gives it back to nobody. -/
  bql : s'.bql = s.bql ∨ (s.bql = .vcpu i ∧ s'.bql = .nobody) ∨ (s.bql = .nobody ∧ s'.bql = .vcpu i)
  unlocked : pc.isUnlocked = true → s'.bql ≠ .vcpu i
  rank : s.backend.shutdown = true → (s.hook i).isInside = true → s'.crashed = false →
    pc.rank < (s.hook i).rank
  /-- The hook looks at `rust_state` before it follows it. -/
  deref : pc.isDeref = true → s.device.hasState = true ∨ s'.crashed = true
  crashed : s'.crashed = true →
    s.crashed = true ∨ ((s.hook i).isDeref = true ∧ s.device.hasState = false)

variable {device : Device}

section

variable {s s' : State k} {i : Fin k} {pc pc' : HookPc}

/-- The step does not give the big lock to another thread. -/
theorem HookEffect.bql_ne (h : HookEffect s s' i pc) (hne : s.bql ≠ owner)
    (hnobody : owner ≠ .nobody) (hother : owner ≠ .vcpu i) : s'.bql ≠ owner := by
  rcases h.bql with hsame | ⟨_, hreleased⟩ | ⟨_, htaken⟩
  · rwa [hsame]
  · rw [hreleased]
    exact hnobody.symm
  · rw [htaken]
    exact hother.symm

/-- A step that touches neither the locks nor the count. -/
theorem HookEffect.of_quiet (hstate : device.hasState = s.device.hasState)
    (hpc : s.hook i = pc) (hcount : pc'.count = pc.count)
    (hinside : pc'.isInside = true → pc.isInside = true ∨ s.global = true)
    (hmutex : pc.hasMutex = false) (hunlocked : pc'.isUnlocked = true → s.bql ≠ .vcpu i)
    (hrank : pc.isInside = true → pc'.rank < pc.rank)
    (hderef : pc'.isDeref = true → s.device.hasState = true) :
    HookEffect s (({ s with device := device } : State k).hookAt i pc') i pc' := by
  subst hpc
  exact
    { hook := rfl
      global := rfl
      finalizer := rfl
      state := hstate
      shutdown := rfl
      counted := congrArg (s.activeHooks + ·) hcount.symm
      inside := hinside
      locked := fun h => .inr ⟨h, hmutex⟩
      bql := .inl rfl
      unlocked := hunlocked
      rank := fun _ h _ => hrank h
      deref := fun h => .inl (hderef h)
      crashed := .inl }

/-- The hook is done with the device, or has not found it. -/
theorem HookEffect.of_leaving (hstate : device.hasState = s.device.hasState)
    (hpc : s.hook i = pc) (hcount : pc.count = 1) (hmutex : pc.hasMutex = false)
    (hrank : pc.isInside = true → 0 < pc.rank) :
    HookEffect s (({ s with device := device } : State k).hookAt i .leaving) i .leaving :=
  .of_quiet hstate hpc hcount.symm nofun hmutex nofun hrank nofun

variable {now : Int64}

/-- A step in the quantum wait. -/
theorem hookEffect_waiting {released : Bool} {vcpu : Vcpu}
    (hpc : s.hook i = .waiting now released vcpu) (hunlocked : s.bql ≠ .vcpu i) (c : HookChoice) :
    ∃ pc, HookEffect s (hookStep c i s) i pc := by
  have hshutdown : (waitStep c.vcpu i now vcpu s).backend.shutdown = s.backend.shutdown :=
    shutdown_step (m := .vcpu _) nofun
  have hlocked : (waitStep c.vcpu i now vcpu s).backend.locked = true →
      (waitStep c.vcpu i now vcpu s).vcpu.pc.hasMutex = true ∨
        (s.backend.locked = true ∧ vcpu.pc.hasMutex = false) := hasMutex_of_locked_vcpuStep _ _
  simp only [hookStep, hpc]
  split_ifs with hreturned
  · refine ⟨_, rfl, rfl, rfl, rfl, hshutdown, by rw [hpc]; rfl, fun _ => .inl (by rw [hpc]; rfl),
      fun h => ?_, .inl rfl, fun _ => hunlocked, fun _ _ _ => ?_, nofun, .inl⟩
    · rw [hpc]
      rcases hlocked h with hown | hother
      · rw [hreturned] at hown
        cases hown
      · exact .inr hother
    · rw [hpc]
      exact Nat.lt_add_of_pos_left vcpu.pc.rank_pos
  · refine ⟨_, rfl, rfl, rfl, rfl, hshutdown, by rw [hpc]; rfl, fun _ => .inl (by rw [hpc]; rfl),
      fun h => ?_, .inl rfl, fun _ => hunlocked, fun hset _ _ => ?_, nofun, .inl⟩
    · rw [hpc]
      exact hlocked h
    · rw [hpc]
      have hlt := (rank_vcpuStep ⟨s.backend, vcpu, s.worker, []⟩ hset _).resolve_left hreturned
      exact Nat.add_lt_add_right hlt 3

/-- The step at which the hook follows `rust_state`. -/
theorem hookEffect_deref (hpc : s.hook i = .deref now) (c : HookChoice) :
    ∃ pc, HookEffect s (hookStep c i s) i pc := by
  simp only [hookStep, hpc]
  split_ifs with hstate
  · exact ⟨_, .of_quiet rfl hpc rfl (fun _ => .inl rfl) rfl nofun
      (fun _ => Nat.le_of_ble_eq_true rfl) nofun⟩
  · -- the process ends here
    refine ⟨.deref now, ?_, rfl, rfl, rfl, rfl, ?_, fun _ => .inl ?_, fun h => .inr ⟨h, ?_⟩,
      .inl rfl, nofun, nofun, fun _ => .inr rfl,
      fun _ => .inr ⟨by rw [hpc]; rfl, Bool.eq_false_of_not_eq_true hstate⟩⟩
    · rw [← hpc, update_eq_self]
    · rw [hpc]
    · rw [hpc]; rfl
    · rw [hpc]; rfl

/-- The hook gives the big lock up. -/
theorem hookEffect_unlock (hpc : s.hook i = .unlock now) (c : HookChoice) :
    ∃ pc, HookEffect s (hookStep c i s) i pc := by
  simp only [hookStep, hpc]
  refine ⟨_, rfl, rfl, rfl, rfl, rfl, by rw [hpc]; rfl, fun _ => .inl (by rw [hpc]; rfl),
    fun h => .inr ⟨h, by rw [hpc]; rfl⟩, ?_, fun _ => s.temporaryUnlock_bql_ne nofun,
    fun _ _ _ => ?_, nofun, .inl⟩
  · rcases s.temporaryUnlock_bql (.vcpu i) with hsame | hreleased
    · exact .inl hsame
    · exact .inr (.inl hreleased)
  · rw [hpc]
    exact Nat.le_of_ble_eq_true rfl

/-- The hook takes the big lock back. -/
theorem hookEffect_relock {released : Bool} {delta : UInt64}
    (hpc : s.hook i = .relock now released delta) (hunlocked : s.bql ≠ .vcpu i)
    (hready : hookReady s i = true) (c : HookChoice) : ∃ pc, HookEffect s (hookStep c i s) i pc := by
  rw [hookReady, hpc] at hready
  simp only [hookStep, hpc]
  refine ⟨_, rfl, rfl, rfl, rfl, rfl, by rw [hpc]; rfl, fun _ => .inl (by rw [hpc]; rfl),
    fun h => .inr ⟨h, by rw [hpc]; rfl⟩, ?_, nofun, fun _ _ _ => ?_, nofun, .inl⟩
  · cases released with
    | false => exact .inl rfl
    | true =>
      -- the big lock was released, so it is taken from nobody
      simp only [Bool.not_true, Bool.false_or, Bool.or_eq_true, decide_eq_true_eq] at hready
      exact .inr (.inr ⟨hready.resolve_right hunlocked, rfl⟩)
  · rw [hpc]
    exact Nat.le_of_ble_eq_true rfl

/-- **What a step of a hook does.** -/
theorem hookEffect (hcounted : (s.hook i).count ≤ s.activeHooks)
    (hunlocked : (s.hook i).isUnlocked = true → s.bql ≠ .vcpu i) (hready : hookReady s i = true)
    (c : HookChoice) : ∃ pc, HookEffect s (hookStep c i s) i pc := by
  cases hpc : s.hook i with
  | outside => rw [hookReady, hpc] at hready; cases hready
  | counted =>
    simp only [hookStep, hpc]
    split_ifs with hglobal
    · exact ⟨_, .of_quiet rfl hpc rfl (fun _ => .inr hglobal) rfl nofun nofun nofun⟩
    · exact ⟨_, .of_leaving rfl hpc rfl rfl nofun⟩
  | loaded =>
    simp only [hookStep, hpc]
    split_ifs
    · exact ⟨_, .of_quiet rfl hpc rfl (fun _ => .inl rfl) rfl nofun (fun _ => by decide) nofun⟩
    · exact ⟨_, .of_leaving rfl hpc rfl rfl fun _ => by decide⟩
  | entered =>
    simp only [hookStep, hpc]
    split_ifs
    · exact ⟨_, .of_leaving rfl hpc rfl rfl fun _ => by decide⟩
    · exact ⟨_, .of_quiet rfl hpc rfl (fun _ => .inl rfl) rfl nofun
        (fun _ => Nat.le_of_ble_eq_true rfl) nofun⟩
    · exact ⟨_, .of_leaving rfl hpc rfl rfl fun _ => by decide⟩
  | recheck now =>
    simp only [hookStep, hpc]
    split_ifs with hstate
    · exact ⟨_, .of_quiet rfl hpc rfl (fun _ => .inl rfl) rfl nofun
        (fun _ => Nat.le_of_ble_eq_true rfl) fun _ => hstate⟩
    · exact ⟨_, .of_leaving rfl hpc rfl rfl fun _ => Nat.le_of_ble_eq_true rfl⟩
  | deref now => exact hookEffect_deref hpc c
  | unlock now => exact hookEffect_unlock hpc c
  | call now released | returned now released delta isYielding =>
    rw [hpc] at hunlocked
    simp only [hookStep, hpc]
    exact ⟨_, .of_quiet rfl hpc rfl (fun _ => .inl rfl) rfl (fun _ => hunlocked rfl)
      (fun _ => Nat.le_of_ble_eq_true rfl) nofun⟩
  | waiting now released vcpu =>
    rw [hpc] at hunlocked
    exact hookEffect_waiting hpc (hunlocked rfl) c
  | relock now released delta =>
    rw [hpc] at hunlocked
    exact hookEffect_relock hpc (hunlocked rfl) hready c
  | advance now delta =>
    simp only [hookStep, hpc]
    exact ⟨_, .of_leaving rfl hpc rfl rfl fun _ => Nat.le_of_ble_eq_true rfl⟩
  | leaving =>
    rw [hpc] at hcounted
    simp only [hookStep, hpc]
    refine ⟨_, rfl, rfl, rfl, rfl, rfl, ?_, nofun, fun h => .inr ⟨h, by rw [hpc]; rfl⟩,
      .inl rfl, nofun, fun _ h _ => ?_, nofun, .inl⟩
    · rw [hpc]
      exact Nat.sub_add_cancel hcounted
    · rw [hpc] at h
      cases h

end

/-! ## Invariants -/

namespace FinalizerPc

/-- The finalizer has not taken the manager yet. -/
def isEarly : FinalizerPc → Bool
  | .idle => true
  | .checkState => true
  | .clearState => true
  | _ => false

/-- The shutdown flag is set, and the hooks are not drained. -/
def isDraining : FinalizerPc → Bool
  | .lock => true
  | .drainLoad => true
  | .drainUnlock => true
  | .drainWait _ => true
  | .drainAsleep _ => true
  | .drainRelock _ => true
  | _ => false

/-- The drain loop is over. -/
def isPastDrain : FinalizerPc → Bool
  | .unlock => true
  | .join => true
  | .free => true
  | .freeTimer => true
  | .finished => true
  | _ => false

/-- The manager is freed. -/
def hasFreed : FinalizerPc → Bool
  | .freeTimer => true
  | .finished => true
  | _ => false

/-- The finalizer holds the mutex. -/
def hasMutex : FinalizerPc → Bool
  | .drainLoad => true
  | .drainUnlock => true
  | .drainWait _ => true
  | .drainRelock _ => true
  | .unlock => true
  | _ => false

/-- The finalizer has given up the big lock, if it had it. -/
def isUnlocked : FinalizerPc → Bool
  | .drainWait _ => true
  | .drainAsleep _ => true
  | .drainRelock _ => true
  | _ => false

theorem isPastDrain_of_hasFreed {pc : FinalizerPc} (h : pc.hasFreed = true) : pc.isPastDrain = true := by
  cases pc <;> first | rfl | cases h

end FinalizerPc

/-- The invariant of all runs. -/
structure Inv (s : State k) : Prop where
  counted : s.activeHooks = ∑ i, (s.hook i).count
  cleared : s.finalizer ≠ .idle → s.global = false
  state : s.finalizer.isEarly = true → s.device.hasState = true
  /-- **No hook has the device** once the drain loop is over. -/
  drained : s.finalizer.isPastDrain = true → ∀ i, (s.hook i).isInside = false
  shutdown : s.backend.shutdown = true →
    s.finalizer.isDraining = true ∨ s.finalizer.isPastDrain = true
  holder : s.backend.locked = true →
    s.finalizer.hasMutex = true ∨ ∃ i, (s.hook i).hasMutex = true
  hookUnlocked : ∀ i, (s.hook i).isUnlocked = true → s.bql ≠ .vcpu i
  finalizerUnlocked : s.finalizer.isUnlocked = true → s.bql ≠ .finalizer

theorem inv_initial (device : Device) : Inv (initial k device) where
  counted := (Finset.sum_eq_zero fun _ _ => rfl).symm
  cleared := fun h => absurd rfl h
  state := fun _ => rfl
  drained := nofun
  shutdown := nofun
  holder := nofun
  hookUnlocked := fun _ => nofun
  finalizerUnlocked := nofun

variable {i : Fin k}

namespace Inv

variable {s s' : State k}

/-- A hook that is not outside is in the count. -/
theorem count_le (hs : Inv s) (i : Fin k) : (s.hook i).count ≤ s.activeHooks := by
  rw [hs.counted]
  exact Finset.single_le_sum (f := fun i => (s.hook i).count) (fun _ _ => Nat.zero_le _)
    (Finset.mem_univ i)

/-- What a step of a hook does, given the invariant. -/
theorem hookEffect (hs : Inv s) (hready : hookReady s i = true) (c : HookChoice) :
    HookEffect s (hookStep c i s) i ((hookStep c i s).hook i) := by
  obtain ⟨pc, heffect⟩ := Hooks.hookEffect (hs.count_le i) (hs.hookUnlocked i) hready c
  have hpc : (hookStep c i s).hook i = pc := by rw [heffect.hook, update_self]
  rwa [hpc]

/-- A step of a hook. -/
theorem of_hookEffect (hs : Inv s) {pc : HookPc} (h : HookEffect s s' i pc) : Inv s' where
  counted := by
    have hsum := sum_update_add HookPc.count s.hook i pc
    have hcounted := h.counted
    rw [hs.counted] at hcounted
    rw [h.hook]
    omega
  cleared := by
    rw [h.finalizer, h.global]
    exact hs.cleared
  state := by
    rw [h.finalizer, h.state]
    exact hs.state
  drained := by
    rw [h.finalizer, h.hook]
    intro hpast j
    have hcleared := hs.cleared fun hidle => by rw [hidle] at hpast; cases hpast
    have hout := hs.drained hpast
    rcases eq_or_ne j i with rfl | hne
    · rw [update_self]
      -- a hook that comes by now does not find the device
      by_contra hin
      rcases h.inside (Bool.eq_true_of_not_eq_false hin) with hwas | hglobal
      · exact Bool.false_ne_true ((hout j).symm.trans hwas)
      · exact Bool.false_ne_true (hcleared.symm.trans hglobal)
    · rw [update_of_ne hne]
      exact hout j
  shutdown := by
    rw [h.finalizer, h.shutdown]
    exact hs.shutdown
  holder := by
    rw [h.finalizer, h.hook]
    intro hlocked
    rcases h.locked hlocked with hown | ⟨hlocked, hnot⟩
    · exact .inr ⟨i, by rwa [update_self]⟩
    · rcases hs.holder hlocked with hfinalizer | ⟨j, hj⟩
      · exact .inl hfinalizer
      · have hne : j ≠ i := by
          rintro rfl
          exact Bool.false_ne_true (hnot.symm.trans hj)
        exact .inr ⟨j, by rwa [update_of_ne hne]⟩
  hookUnlocked := by
    rw [h.hook]
    intro j hj
    rcases eq_or_ne j i with rfl | hne
    · rw [update_self] at hj
      exact h.unlocked hj
    · rw [update_of_ne hne] at hj
      exact h.bql_ne (hs.hookUnlocked j hj) nofun fun heq => hne (BqlOwner.vcpu.inj heq)
  finalizerUnlocked := by
    rw [h.finalizer]
    exact fun hunlocked => h.bql_ne (hs.finalizerUnlocked hunlocked) nofun nofun

/-- The big lock changes hands, not to a thread that has given it up. -/
theorem of_bql (hs : Inv s) (owner : BqlOwner k)
    (hhook : ∀ i, (s.hook i).isUnlocked = true → owner ≠ .vcpu i)
    (hfinalizer : s.finalizer.isUnlocked = true → owner ≠ .finalizer) :
    Inv { s with bql := owner } :=
  { hs with hookUnlocked := hhook, finalizerUnlocked := hfinalizer }

/-- Somebody gives the big lock back. -/
theorem of_nobody (hs : Inv s) : Inv { s with bql := .nobody } :=
  hs.of_bql .nobody (fun _ _ => nofun) fun _ => nofun

/-- A step of the finalizer. -/
theorem of_finalizer (hs : Inv s) {pc pc' : FinalizerPc} {backend : Backend}
    (hpc : s.finalizer = pc) (hstarted : pc ≠ .idle) (hstate : pc'.isEarly = true → device.hasState = true)
    (hdrained : pc'.isPastDrain = true → pc.isPastDrain = true ∨ s.activeHooks = 0)
    (hshutdown : backend.shutdown = true → pc'.isDraining = true ∨ pc'.isPastDrain = true)
    (hholder : backend.locked = true →
      pc'.hasMutex = true ∨ (s.backend.locked = true ∧ pc.hasMutex = false))
    (howner : owner = s.bql ∨ owner = .nobody ∨ owner = .finalizer)
    (hunlocked : pc'.isUnlocked = true → owner ≠ .finalizer) :
    Inv { s with device := device, backend := backend, bql := owner, finalizer := pc' } where
  counted := hs.counted
  cleared := fun _ => hs.cleared (hpc ▸ hstarted)
  state := hstate
  drained := by
    intro hpast i
    rcases hdrained hpast with hpast | hzero
    · exact hs.drained (hpc ▸ hpast) i
    · -- nobody is counted, so nobody is inside
      have hcount := hs.count_le i
      cases hhook : s.hook i with
      | outside => rfl
      | _ =>
        rw [hzero, hhook] at hcount
        cases hcount
  shutdown := hshutdown
  holder := by
    intro hlocked
    rcases hholder hlocked with hmutex | ⟨hlocked, hmutex⟩
    · exact .inl hmutex
    · refine .inr ((hs.holder hlocked).resolve_left ?_)
      rw [hpc, hmutex]
      exact Bool.false_ne_true
  hookUnlocked := by
    intro i hi
    rcases howner with rfl | rfl | rfl
    · exact hs.hookUnlocked i hi
    · exact nofun
    · exact nofun
  finalizerUnlocked := hunlocked

/-- The finalizer keeps the invariant. -/
theorem finalize (hs : Inv s) : Inv (finalizeStep s) := by
  -- before its store the shutdown flag is not set
  have hunset {pc pc' : FinalizerPc} (hpc : s.finalizer = pc) (hdrain : pc.isDraining = false)
      (hpast : pc.isPastDrain = false) (hset : s.backend.shutdown = true) :
      pc'.isDraining = true ∨ pc'.isPastDrain = true := by
    rcases hs.shutdown hset with h | h
    · rw [hpc, hdrain] at h
      cases h
    · rw [hpc, hpast] at h
      cases h
  have hunlocked {pc : FinalizerPc} (hpc : s.finalizer = pc) (h : pc.isUnlocked = true) :
      s.bql ≠ .finalizer := hs.finalizerUnlocked (hpc ▸ h)
  unfold finalizeStep
  cases hpc : s.finalizer with
  | idle | finished => exact hs
  | checkState =>
    have hstate := hs.state (by rw [hpc]; rfl)
    simp only [hstate, if_true]
    exact hs.of_finalizer hpc nofun (fun _ => hstate) nofun (hunset hpc rfl rfl)
      (fun h => .inr ⟨h, rfl⟩) (.inl rfl) nofun
  | clearState =>
    exact hs.of_finalizer hpc nofun nofun nofun (hunset hpc rfl rfl) (fun h => .inr ⟨h, rfl⟩)
      (.inl rfl) nofun
  | setShutdown =>
    exact hs.of_finalizer hpc nofun nofun nofun (fun _ => .inl rfl) (fun h => .inr ⟨h, rfl⟩)
      (.inl rfl) nofun
  | lock =>
    exact hs.of_finalizer hpc nofun nofun nofun (fun _ => .inl rfl) (fun _ => .inl rfl)
      (.inl rfl) nofun
  | drainLoad =>
    simp only
    split_ifs with hactive
    · exact hs.of_finalizer hpc nofun nofun nofun (fun _ => .inl rfl) (fun _ => .inl rfl)
        (.inl rfl) nofun
    · exact hs.of_finalizer hpc nofun nofun (fun _ => .inr (Nat.eq_zero_of_not_pos hactive))
        (fun _ => .inr rfl) (fun _ => .inl rfl) (.inl rfl) nofun
  | drainUnlock =>
    refine hs.of_finalizer hpc nofun nofun nofun (fun _ => .inl rfl) (fun _ => .inl rfl) ?_
      fun _ => s.temporaryUnlock_bql_ne nofun
    rcases s.temporaryUnlock_bql .finalizer with hsame | ⟨_, hreleased⟩
    · exact .inl hsame
    · exact .inr (.inl hreleased)
  | drainWait released =>
    exact hs.of_finalizer hpc nofun nofun nofun (fun _ => .inl rfl) nofun (.inl rfl)
      fun _ => hunlocked hpc rfl
  | drainAsleep released =>
    exact hs.of_finalizer hpc nofun nofun nofun (fun _ => .inl rfl) (fun _ => .inl rfl)
      (.inl rfl) fun _ => hunlocked hpc rfl
  | drainRelock released =>
    refine hs.of_finalizer hpc nofun nofun nofun (fun _ => .inl rfl) (fun _ => .inl rfl) ?_
      nofun
    cases released with
    | false => exact .inl rfl
    | true => exact .inr (.inr rfl)
  | unlock =>
    exact hs.of_finalizer hpc nofun nofun (fun _ => .inl rfl) (fun _ => .inr rfl) nofun
      (.inl rfl) nofun
  | join | free | freeTimer =>
    exact hs.of_finalizer hpc nofun nofun (fun _ => .inl rfl) (fun _ => .inr rfl)
      (fun h => .inr ⟨h, rfl⟩) (.inl rfl) nofun

/-- The vCPU that comes by was not counted. -/
theorem enter (hs : Inv s) (hi : s.hook i = .outside) : Inv (enter i s) := by
  have heffect : HookEffect s (Hooks.enter i s) i .counted := by
    refine ⟨rfl, rfl, rfl, rfl, rfl, ?_, nofun, fun h => .inr ⟨h, ?_⟩, .inl rfl, nofun,
      fun _ hin _ => ?_, nofun, .inl⟩
    · rw [hi]
      rfl
    · rw [hi]
      rfl
    · rw [hi] at hin
      cases hin
  exact hs.of_hookEffect heffect

/-- **Every step keeps the invariant.** -/
protected theorem step (hs : Inv s) {move : Move k} (h : enabled s move = true) : Inv (step s move) := by
  replace h := (enabled_eq_true.mp h).2
  cases move with
  | enter i => exact hs.enter (of_decide_eq_true h)
  | hook i c => exact hs.of_hookEffect (hs.hookEffect h c)
  | begin =>
    have hidle : s.finalizer = .idle := of_decide_eq_true h
    refine
      { hs with
        cleared := fun _ => rfl
        state := ?_
        drained := nofun
        shutdown := ?_
        holder := ?_
        finalizerUnlocked := nofun }
    · exact fun _ => hs.state (by rw [hidle]; rfl)
    · intro hset
      have hpast := hs.shutdown hset
      rw [hidle] at hpast
      exact hpast
    · intro hlocked
      have hholder := hs.holder hlocked
      rw [hidle] at hholder
      exact hholder
  | finalize => exact hs.finalize
  | worker c =>
    exact
      { hs with
        shutdown := fun hset => hs.shutdown ((shutdown_step (m := .worker c) nofun).symm.trans hset)
        holder := fun hlocked => hs.holder ((locked_workerStep c _).symm.trans hlocked) }
  | vcpuLock i =>
    simp only [ready, Bool.and_eq_true, decide_eq_true_eq] at h
    refine hs.of_bql _ (fun j hj heq => ?_) fun _ => nofun
    rw [← BqlOwner.vcpu.inj heq, h.1] at hj
    cases hj
  | vcpuUnlock i => exact hs.of_nobody
  | finalizerLock =>
    simp only [ready, Bool.and_eq_true, Bool.or_eq_true, decide_eq_true_eq] at h
    refine hs.of_bql _ (fun _ _ => nofun) fun hunlocked => ?_
    rcases h.1 with hpc | hpc
    · rw [hpc] at hunlocked
      cases hunlocked
    · rw [hpc] at hunlocked
      cases hunlocked
  | finalizerUnlock => exact hs.of_nobody
  | otherLock => exact hs.of_bql _ (fun _ _ => nofun) fun _ => nofun
  | otherUnlock => exact hs.of_nobody

end Inv

/-- **The invariant holds wherever the device gets to.** -/
theorem inv_of_steps {s : State k}
    (h : Relation.ReflTransGen (GuardedStep step enabled) (initial k device) s) : Inv s := by
  refine steps_invariant ?_ h (inv_initial device)
  rintro s _ ⟨move, hmove, rfl⟩ hs
  exact hs.step hmove

/-- **No hook uses the device after the manager is freed**: a hook that has it keeps the drain loop
going. -/
theorem hasFreed_of_isInside {s : State k}
    (h : Relation.ReflTransGen (GuardedStep step enabled) (initial k device) s)
    (hi : (s.hook i).isInside = true) : s.finalizer.hasFreed = false := by
  by_contra hfreed
  have hpast := FinalizerPc.isPastDrain_of_hasFreed (Bool.eq_true_of_not_eq_false hfreed)
  exact Bool.false_ne_true (((inv_of_steps h).drained hpast i).symm.trans hi)

end Hooks

end Virtmcu.Clock
