import Virtmcu.Foundations.Transition

/-! # The bridge over an MMIO socket

One vCPU in `CoSimBridge::send_and_wait`, the receive loop `MmioTransport::run_rx_loop`, the peer, and
other threads that use the big lock or drop the bridge. The steps are finer than in `CoSim.Bridge`: what
counts here is who waits for whom. The vCPU tests for a response under the mutex of `BridgeState`, gives
the big lock up, and sleeps; the receive loop sets `stream` to `None` before it says so under the mutex.
A sleeper may wake up by itself, and a timeout may pass at any time.

The peer's messages are responses, interrupts, and others; one that is cut off by the end of the
connection is not read. `is_connected` is left out, which only `wait_connected` reads. -/

namespace Virtmcu.CoSim.Mmio

variable {Resp : Type*}

/-! ## State -/

/-- A `SyscMsg`, by its type. -/
inductive Message (Resp : Type*)
  | resp (r : Resp)
  /-- An interrupt line below 32 is set or cleared. -/
  | irq
  | other
  deriving DecidableEq, Repr

inductive BqlOwner
  | nobody
  | vcpu
  | other
  deriving DecidableEq, Repr

/-- Where the vCPU is in `send_and_wait`. -/
inductive VcpuPc
  | idle
  /-- Before the old response is cleared. -/
  | entered
  /-- At `send_request`. -/
  | cleared
  /-- The request is written on a connection; before the second `lock`. -/
  | sent (c : ℕ)
  /-- At the test of the loop, with the mutex. -/
  | testing (c : ℕ)
  /-- In `wait_yielding_bql`, with the mutex. -/
  | parking (c : ℕ)
  /-- In `virtmcu_cond_timedwait`; whether the big lock was given up, and a `notify_all` came. -/
  | asleep (c : ℕ) (released notified : Bool)
  /-- At `drop(bql_unlock)`, without the mutex; whether the wait ended by a signal. -/
  | woken (c : ℕ) (released signaled : Bool)
  /-- Before the mutex is taken again. -/
  | relocking (c : ℕ) (signaled : Bool)
  deriving DecidableEq, Repr

/-- Where the receive loop is. -/
inductive RxPc (Resp : Type*)
  /-- At the test of `running`. -/
  | top
  /-- In `sleep_interruptible`. -/
  | sleeping
  /-- At `UnixStream::connect`. -/
  | connecting
  | handshaking
  /-- Before `stream` is set. -/
  | publishing
  /-- At `notify_connected`. -/
  | announcing
  /-- In `read_exact`. -/
  | reading
  /-- At `dispatch_response`. -/
  | dispatching (r : Resp)
  /-- At `Bql::lock`, for an interrupt. -/
  | irq
  /-- A read has failed; before `stream` is cleared. -/
  | clearing
  /-- At `notify_disconnected`. -/
  | notifying
  | exited
  deriving DecidableEq, Repr

structure State (Resp : Type*) where
  running : Bool
  /-- `BridgeState::has_resp`. -/
  hasResp : Bool
  /-- `BridgeState::current_resp`. -/
  currentResp : Option Resp
  /-- The number of the connection in `stream`. -/
  stream : Option ℕ
  /-- How many connections there have been. -/
  connection : ℕ
  /-- What the peer has sent on the last one and is not yet read. -/
  wire : List (Message Resp)
  /-- The last one is closed. -/
  closed : Bool
  bql : BqlOwner
  vcpu : VcpuPc
  rx : RxPc Resp
  /-- What `send_and_wait` has returned. -/
  returned : List (Option Resp)

/-- `CoSimBridge::new`. -/
def initial : State Resp where
  running := true
  hasResp := false
  currentResp := none
  stream := none
  connection := 0
  wire := []
  closed := false
  bql := .nobody
  vcpu := .idle
  rx := .top
  returned := []

/-! ## The vCPU -/

/-- The end of a call; its caller gives the big lock up. -/
def State.giveBack (s : State Resp) (resp : Option Resp) : State Resp :=
  { s with
    vcpu := .idle
    bql := if s.bql = .vcpu then .nobody else s.bql
    returned := s.returned ++ [resp] }

/-- `guard.current_resp.take()`. -/
def State.takeResp (s : State Resp) : State Resp :=
  { s.giveBack s.currentResp with currentResp := none }

/-- What a step of the vCPU finds. -/
structure Choice where
  /-- `write_all` succeeds. -/
  writeOk : Bool
  /-- `elapsed >= timeout_duration`. -/
  expired : Bool
  deriving DecidableEq, Repr

/-- A call of `send_and_wait`, with or without the big lock. -/
def call (withBql : Bool) (s : State Resp) : State Resp :=
  if s.running then { s with vcpu := .entered, bql := if withBql then .vcpu else s.bql }
  else { s with returned := s.returned ++ [none] }

/-- `send_and_wait`, with `send_request` and `wait_yielding_bql`. -/
def vcpuStep (choice : Choice) (s : State Resp) : State Resp :=
  match s.vcpu with
  | .idle => s
  | .entered => { s with hasResp := false, currentResp := none, vcpu := .cleared }
  | .cleared =>
      match s.stream with
      | none => s.giveBack none
      | some c => if choice.writeOk then { s with vcpu := .sent c } else s.giveBack none
  | .sent c => { s with vcpu := .testing c }
  | .testing c =>
      if s.running = true ∧ s.hasResp = false then
        if choice.expired then s.takeResp else { s with vcpu := .parking c }
      else s.takeResp
  | .parking c =>
      { s with
        vcpu := .asleep c (decide (s.bql = .vcpu)) false
        bql := if s.bql = .vcpu then .nobody else s.bql }
  | .asleep c released _ => { s with vcpu := .woken c released true }
  | .woken c released signaled =>
      { s with vcpu := .relocking c signaled, bql := if released then .vcpu else s.bql }
  | .relocking c signaled =>
      if signaled = false ∧ choice.expired = true then s.takeResp
      else { s with vcpu := .testing c }

/-- The sleeper wakes up by itself. -/
def wake (signaled : Bool) (s : State Resp) : State Resp :=
  match s.vcpu with
  | .asleep c released _ => { s with vcpu := .woken c released signaled }
  | _ => s

/-- `resp_cond.notify_all()`. -/
def VcpuPc.notify : VcpuPc → VcpuPc
  | .asleep c released _ => .asleep c released true
  | pc => pc

/-! ## The receive loop -/

/-- `MmioTransport::run_rx_loop`, but for what waits for the peer. -/
def rxStep (s : State Resp) : State Resp :=
  match s.rx with
  | .top => { s with rx := if s.running then .connecting else .exited }
  | .publishing => { s with stream := some s.connection, rx := .announcing }
  | .announcing => { s with rx := .reading }
  | .reading =>
      match s.wire with
      | .resp r :: rest => { s with wire := rest, rx := .dispatching r }
      | .irq :: rest => { s with wire := rest, rx := .irq }
      | .other :: rest => { s with wire := rest }
      | [] => { s with rx := .clearing }
  | .dispatching r =>
      { s with currentResp := some r, hasResp := true, vcpu := s.vcpu.notify, rx := .reading }
  | .irq => { s with rx := .reading }
  | .clearing => { s with stream := none, rx := .notifying }
  | .notifying =>
      { s with currentResp := none, hasResp := true, vcpu := s.vcpu.notify, rx := .top }
  | _ => s

/-- `UnixStream::connect`. -/
def connect (reconnectMs : ℕ) (ok : Bool) (s : State Resp) : State Resp :=
  if ok then
    { s with connection := s.connection + 1, wire := [], closed := false, rx := .handshaking }
  else { s with rx := if reconnectMs = 0 then .exited else .sleeping }

/-- `interrupt_rx`. -/
def interruptRx (s : State Resp) : State Resp :=
  { s with closed := s.closed || s.stream.isSome }

/-! ## Steps -/

inductive Move (Resp : Type*)
  | call (withBql : Bool)
  | vcpu (choice : Choice)
  | wake (signaled : Bool)
  | rx
  | connect (ok : Bool)
  | handshake (ok : Bool)
  /-- The end of `sleep_interruptible`. -/
  | endSleep
  /-- The peer sends a message. -/
  | deliver (m : Message Resp)
  /-- The peer closes the connection. -/
  | close
  /-- `CoSimBridge::drop`: `running` becomes false, -/
  | stop
  /-- the sleepers are notified without the mutex, -/
  | notifyAll
  /-- and the socket is shut down. -/
  | interrupt
  /-- Another thread takes the big lock. -/
  | lockBql
  /-- Another thread gives it up. -/
  | unlockBql
  deriving DecidableEq

def step (reconnectMs : ℕ) (s : State Resp) : Move Resp → State Resp
  | .call withBql => call withBql s
  | .vcpu choice => vcpuStep choice s
  | .wake signaled => wake signaled s
  | .rx => rxStep s
  | .connect ok => connect reconnectMs ok s
  | .handshake ok => { s with rx := if ok then .publishing else .top }
  | .endSleep => { s with rx := .top }
  | .deliver m => { s with wire := s.wire ++ [m] }
  | .close => { s with closed := true }
  | .stop => { s with running := false }
  | .notifyAll => { s with vcpu := s.vcpu.notify }
  | .interrupt => interruptRx s
  | .lockBql => { s with bql := .other }
  | .unlockBql => { s with bql := .nobody }

/-- The vCPU holds the mutex. The receive loop holds it within one step. -/
def VcpuPc.hasMutex : VcpuPc → Bool
  | .testing _ => true
  | .parking _ => true
  | _ => false

def VcpuPc.isAsleep : VcpuPc → Bool
  | .asleep _ _ _ => true
  | _ => false

def vcpuReady (s : State Resp) : Bool :=
  match s.vcpu with
  | .idle => false
  | .asleep _ _ notified => notified
  | .woken _ released _ => !released || decide (s.bql = .nobody)
  | _ => true

def rxReady (s : State Resp) : Bool :=
  match s.rx with
  | .top => true
  | .publishing => true
  | .announcing => !s.vcpu.hasMutex
  | .reading => !s.wire.isEmpty || s.closed
  | .dispatching _ => !s.vcpu.hasMutex
  | .irq => decide (s.bql = .nobody)
  | .clearing => true
  | .notifying => !s.vcpu.hasMutex
  | _ => false

/-- The receive loop is at the call that waits for the peer. -/
def RxPc.awaits : RxPc Resp → Move Resp → Bool
  | .connecting, .connect _ => true
  | .handshaking, .handshake _ => true
  | .sleeping, .endSleep => true
  | _, _ => false

def enabled (s : State Resp) : Move Resp → Bool
  | .call withBql => decide (s.vcpu = .idle) && (!withBql || decide (s.bql = .nobody))
  | .vcpu _ => vcpuReady s
  | .wake _ => s.vcpu.isAsleep
  | .rx => rxReady s
  | .connect ok => s.rx.awaits (.connect ok)
  | .handshake ok => s.rx.awaits (.handshake ok)
  | .endSleep => s.rx.awaits .endSleep
  | .deliver _ => !s.closed
  | .close => true
  | .stop => true
  | .notifyAll => true
  | .interrupt => true
  | .lockBql => decide (s.bql = .nobody)
  | .unlockBql => decide (s.bql = .other)

/-! ## Invariant

While a call waits on a connection, it has its response, or the receive loop is still in this connection
and has the notification before it. -/

/-- The connection on which the call waits for its response. -/
def VcpuPc.waitsOn : VcpuPc → Option ℕ
  | .sent c => some c
  | .testing c => some c
  | .parking c => some c
  | .asleep c _ _ => some c
  | .woken c _ _ => some c
  | .relocking c _ => some c
  | _ => none

/-- The vCPU has found no response, and was not notified since. -/
def VcpuPc.isQuiet : VcpuPc → Bool
  | .parking _ => true
  | .asleep _ _ notified => !notified
  | _ => false

/-- The vCPU does not have the big lock. -/
def VcpuPc.isAway : VcpuPc → Bool
  | .idle => true
  | .asleep _ _ _ => true
  | .woken _ _ _ => true
  | _ => false

/-- `stream` may be set. -/
def RxPc.hasStream : RxPc Resp → Bool
  | .announcing => true
  | .reading => true
  | .dispatching _ => true
  | .irq => true
  | .clearing => true
  | _ => false

/-- The receive loop is in a connection, with the notification before it. -/
def RxPc.inConnection (pc : RxPc Resp) : Prop := pc.hasStream = true ∨ pc = .notifying

structure Inv (s : State Resp) : Prop where
  stream : ∀ c, s.stream = some c → c = s.connection ∧ s.rx.hasStream = true
  waiting : ∀ c, s.vcpu.waitsOn = some c →
    s.hasResp = true ∨ (c = s.connection ∧ s.rx.inConnection)
  quiet : s.vcpu.isQuiet = true → s.hasResp = false
  away : s.vcpu.isAway = true → s.bql ≠ .vcpu

theorem inv_initial : Inv (initial : State Resp) :=
  ⟨nofun, nofun, nofun, nofun⟩

section

variable {s : State Resp}

@[simp] theorem waitsOn_notify (pc : VcpuPc) : pc.notify.waitsOn = pc.waitsOn := by
  cases pc <;> rfl

@[simp] theorem isAway_notify (pc : VcpuPc) : pc.notify.isAway = pc.isAway := by
  cases pc <;> rfl

/-- A notification leaves nobody quiet who does not hold the mutex. -/
theorem isQuiet_notify {pc : VcpuPc} (h : pc.hasMutex = false) : pc.notify.isQuiet = false := by
  cases pc with
  | parking c => cases h
  | _ => rfl

theorem isQuiet_of_notify {pc : VcpuPc} (h : pc.notify.isQuiet = true) : pc.isQuiet = true := by
  cases pc with
  | asleep c released notified => cases h
  | _ => exact h

/-- Where the receive loop waits for the peer, it is in no connection. -/
theorem not_inConnection_of_awaits {pc : RxPc Resp} {move : Move Resp}
    (h : pc.awaits move = true) : ¬ pc.inConnection := by
  rintro (hstream | rfl)
  · cases pc with
    | connecting | handshaking | sleeping => cases hstream
    | _ => cases h
  · cases h

/-- After a call the vCPU does not have the big lock. -/
theorem bql_giveBack (resp : Option Resp) : (s.giveBack resp).bql ≠ .vcpu := by
  rw [State.giveBack]
  dsimp only
  split
  · exact BqlOwner.noConfusion
  · assumption

namespace Inv

theorem giveBack (hs : Inv s) (resp : Option Resp) : Inv (s.giveBack resp) :=
  ⟨hs.stream, nofun, nofun, fun _ => bql_giveBack resp⟩

theorem takeResp (hs : Inv s) : Inv s.takeResp :=
  ⟨hs.stream, nofun, nofun, fun _ => bql_giveBack s.currentResp⟩

/-- The vCPU goes on in its wait and keeps what it has. -/
theorem vcpuAt (hs : Inv s) {pc : VcpuPc} (hwaits : pc.waitsOn = s.vcpu.waitsOn)
    (hquiet : pc.isQuiet = true → s.hasResp = false) (haway : pc.isAway = true → s.bql ≠ .vcpu) :
    Inv { s with vcpu := pc } :=
  ⟨hs.stream, fun c hc => hs.waiting c (hwaits ▸ hc), hquiet, haway⟩

protected theorem vcpuStep (hs : Inv s) (choice : Choice) : Inv (vcpuStep choice s) := by
  unfold vcpuStep
  cases hpc : s.vcpu with
  | idle => exact hs
  | entered => exact ⟨hs.stream, nofun, nofun, nofun⟩
  | cleared =>
    cases hstream : s.stream with
    | none => exact hs.giveBack none
    | some c =>
      dsimp only
      split
      · -- the receive loop is in the connection that is written to
        obtain ⟨rfl, hrx⟩ := hs.stream c hstream
        refine ⟨fun d hd => hs.stream d (hstream.trans hd), fun c hc => ?_, nofun, nofun⟩
        obtain rfl := Option.some.inj hc
        exact .inr ⟨rfl, .inl hrx⟩
      · exact hs.giveBack none
  | sent c => exact hs.vcpuAt (by rw [hpc]; rfl) nofun nofun
  | testing c =>
    dsimp only
    split
    · next htest =>
        split
        · exact hs.takeResp
        · exact hs.vcpuAt (by rw [hpc]; rfl) (fun _ => htest.2) nofun
    · exact hs.takeResp
  | parking c =>
    have hquiet : s.hasResp = false := hs.quiet (by rw [hpc]; rfl)
    have hwaiting := hs.waiting
    rw [hpc] at hwaiting
    refine ⟨hs.stream, hwaiting, fun _ => hquiet, fun _ => ?_⟩
    exact bql_giveBack (s := s) none
  | asleep c released notified =>
    have haway := hs.away
    rw [hpc] at haway
    exact hs.vcpuAt (by rw [hpc]; rfl) nofun haway
  | woken c released signaled =>
    have hwaiting := hs.waiting
    rw [hpc] at hwaiting
    exact ⟨hs.stream, hwaiting, nofun, nofun⟩
  | relocking c signaled =>
    dsimp only
    split
    · exact hs.takeResp
    · exact hs.vcpuAt (by rw [hpc]; rfl) nofun nofun

/-- A response or a disconnect is noted under the mutex. -/
theorem respond (hs : Inv s) (hmutex : s.vcpu.hasMutex = false) {pc : RxPc Resp} (resp : Option Resp)
    (hstream : ∀ c, s.stream = some c → c = s.connection ∧ pc.hasStream = true) :
    Inv { s with currentResp := resp, hasResp := true, vcpu := s.vcpu.notify, rx := pc } := by
  refine ⟨hstream, fun _ _ => .inl rfl, fun hquiet => ?_, fun haway => ?_⟩
  · dsimp only at hquiet
    rw [isQuiet_notify hmutex] at hquiet
    cases hquiet
  · exact hs.away (isAway_notify s.vcpu ▸ haway)

/-- The receive loop goes on within a connection. -/
theorem rxAt (hs : Inv s) {pc : RxPc Resp} (wire : List (Message Resp))
    (hstream : s.rx.hasStream = true → pc.hasStream = true)
    (hconn : s.rx.inConnection → pc.inConnection) : Inv { s with wire := wire, rx := pc } where
  stream c hc := ⟨(hs.stream c hc).1, hstream (hs.stream c hc).2⟩
  waiting c hc := (hs.waiting c hc).imp_right (And.imp_right hconn)
  quiet := hs.quiet
  away := hs.away

/-- Outside of a connection nobody waits without a response. -/
theorem hasResp (hs : Inv s) (hno : ¬ s.rx.inConnection) {c : ℕ} (hc : s.vcpu.waitsOn = some c) :
    s.hasResp = true :=
  (hs.waiting c hc).resolve_right fun h => hno h.2

/-- The receive loop goes on outside of a connection. -/
theorem outside (hs : Inv s) (hno : ¬ s.rx.inConnection) (connection : ℕ)
    (wire : List (Message Resp)) (closed : Bool) (pc : RxPc Resp) :
    Inv { s with connection := connection, wire := wire, closed := closed, rx := pc } where
  stream c hc := absurd (.inl (hs.stream c hc).2) hno
  waiting _ hc := .inl (hs.hasResp hno hc)
  quiet := hs.quiet
  away := hs.away

protected theorem rxStep (hs : Inv s) (h : rxReady s = true) : Inv (rxStep s) := by
  unfold rxStep
  unfold rxReady at h
  cases hpc : s.rx with
  | top =>
    have hno : ¬ s.rx.inConnection := by rw [hpc]; exact fun h => h.elim nofun nofun
    exact hs.outside hno s.connection s.wire s.closed _
  | publishing =>
    have hno : ¬ s.rx.inConnection := by rw [hpc]; exact fun h => h.elim nofun nofun
    refine ⟨fun c hc => ⟨(Option.some.inj hc).symm, rfl⟩, fun c hc => ?_, hs.quiet, hs.away⟩
    exact .inl (hs.hasResp hno hc)
  | announcing | irq => exact hs.rxAt s.wire (fun _ => rfl) fun _ => .inl rfl
  | reading =>
    dsimp only
    split
    · exact hs.rxAt _ (fun _ => rfl) fun _ => .inl rfl
    · exact hs.rxAt _ (fun _ => rfl) fun _ => .inl rfl
    · exact hs.rxAt _ (fun h => hpc ▸ h) fun h => hpc ▸ h
    · exact hs.rxAt s.wire (fun _ => rfl) fun _ => .inl rfl
  | dispatching r =>
    rw [hpc] at h
    exact hs.respond ((Bool.not_eq_true' _).mp h) (some r) fun c hc => ⟨(hs.stream c hc).1, rfl⟩
  | clearing =>
    refine ⟨nofun, fun c hc => ?_, hs.quiet, hs.away⟩
    exact (hs.waiting c hc).imp_right (And.imp_right fun _ => .inr rfl)
  | notifying =>
    rw [hpc] at h
    refine hs.respond ((Bool.not_eq_true' _).mp h) none fun c hc => ?_
    have hstream := (hs.stream c hc).2
    rw [hpc] at hstream
    cases hstream
  | _ => exact hs

protected theorem step (hs : Inv s) (reconnectMs : ℕ) {move : Move Resp}
    (h : enabled s move = true) : Inv (step reconnectMs s move) := by
  cases move with
  | call withBql =>
    show Inv (call withBql s)
    unfold call
    split
    · exact ⟨hs.stream, nofun, nofun, nofun⟩
    · exact { hs with }
  | vcpu choice => exact hs.vcpuStep choice
  | wake signaled =>
    show Inv (wake signaled s)
    unfold wake
    split
    · next hpc =>
        have haway := hs.away
        rw [hpc] at haway
        exact hs.vcpuAt (by rw [hpc]; rfl) nofun haway
    · exact hs
  | rx => exact hs.rxStep h
  | connect ok =>
    have hno := not_inConnection_of_awaits h
    show Inv (connect reconnectMs ok s)
    unfold connect
    split
    · exact hs.outside hno _ _ _ _
    · exact hs.outside hno s.connection s.wire s.closed _
  | handshake ok | endSleep =>
    exact hs.outside (not_inConnection_of_awaits h) s.connection s.wire s.closed _
  | deliver m | close | stop => exact { hs with }
  | notifyAll =>
    refine hs.vcpuAt (waitsOn_notify _) (fun hquiet => hs.quiet (isQuiet_of_notify hquiet)) ?_
    exact fun haway => hs.away (isAway_notify s.vcpu ▸ haway)
  | interrupt => exact { hs with }
  | lockBql | unlockBql => exact { hs with away := fun _ => BqlOwner.noConfusion }

end Inv

end

end Virtmcu.CoSim.Mmio
