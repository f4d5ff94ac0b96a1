import Virtmcu.Clock.Handshake
import Virtmcu.Clock.UnixStream

/-! # Does the worker return after a shutdown?

`ClockManager::drop` sets the shutdown flag, waits until no vCPU is inside a hook and joins the worker.
The worker looks at the flag in all its loops, and its waits for requests and for the vCPU end by
timeout. The waits inside the transport do not: in coordinated mode `send_ready` waits for START without
a timeout, `write_all` waits for room in the socket, and `connect` waits for room in the backlog.

The worker of `Clock.System` runs here on top of its transport (`Node`), and `serve` is its step. Alone,
with no further message from anyone, it returns exactly when it does not have to send a response that the
transport holds up (`returns_iff`). -/

namespace Virtmcu.Clock

/-! ## The transport -/

/-- The socket a Unix transport connects to. -/
inductive Listener
  /-- Nobody listens: `connect` fails at once. -/
  | refusing
  /-- The backlog is full: `connect` waits. -/
  | full
  | accepting
  deriving DecidableEq, Repr

/-- What is on its way between the worker and the others. -/
inductive Link
  /-- `ZenohClockTransport`: the queries and the START signals that have come in. -/
  | zenoh (isCoordinated : Bool) (queries : List (List UInt8)) (starts : ℕ)
  /-- `UnixSocketClockTransport`: the socket, the bytes that have come in once it is connected, and the
  room for bytes that go out. -/
  | unix (listener : Listener) (inbox : Option (List UInt8)) (room : ℕ)
  deriving DecidableEq, Repr

/-- `size_of::<ClockReadyResp>()`. -/
def clockReadyRespSize : ℕ := 24

namespace Link

/-- `recv_advance` when nothing more comes in: the request it returns and what is left, or `none` if it
does not return. -/
def recvAdvance : Link → Option (Option ClockAdvanceReq × Link)
  | .zenoh isCoordinated [] starts => some (none, .zenoh isCoordinated [] starts)
  | .zenoh isCoordinated (payload :: queries) starts =>
      some (ClockAdvanceReq.unpackSlice payload, .zenoh isCoordinated queries starts)
  | .unix .refusing none room => some (none, .unix .refusing none room)
  | .unix .full none _ => none
  -- connected, but nothing has been sent on the new connection
  | .unix .accepting none room => some (none, .unix .accepting (some []) room)
  | .unix listener (some inbox) room =>
      if clockAdvanceReqSize ≤ inbox.length then
        some (ClockAdvanceReq.unpackSlice (inbox.take clockAdvanceReqSize),
          .unix listener (some (inbox.drop clockAdvanceReqSize)) room)
      else some (none, .unix listener (some []) room)

/-- `start_rx.recv()`, in coordinated mode: `none` while there is no START. -/
def takeStart : Link → Option Link
  | .zenoh true queries (starts + 1) => some (.zenoh true queries starts)
  | .zenoh true _ 0 => none
  | .zenoh false queries starts => some (.zenoh false queries starts)
  | .unix listener inbox room => some (.unix listener inbox room)

/-- The last step of `send_ready`, which hands the response over: `none` while it waits. -/
def release : Link → Option Link
  | .zenoh isCoordinated queries starts => some (.zenoh isCoordinated queries starts)
  | .unix listener inbox room =>
      if clockReadyRespSize ≤ room then some (.unix listener inbox (room - clockReadyRespSize))
      else none

/-- `is_coordinated`, which only the Zenoh responder looks at. -/
def isCoordinated : Link → Bool
  | .zenoh isCoordinated _ _ => isCoordinated
  | .unix _ _ _ => false

end Link

/-! ## The worker on its transport -/

/-- Where the worker is inside `send_ready`. -/
inductive Sending
  | notSending
  /-- In `start_rx.recv()`. -/
  | awaitStart (resp : ClockReadyResp)
  /-- At the reply to the query, or in `write_all`. -/
  | release (resp : ClockReadyResp)
  deriving DecidableEq, Repr

/-- The device and its transport. While the worker is inside `send_ready`, the device has it at the
reply. -/
structure Node where
  system : System
  link : Link
  sending : Sending
  deriving DecidableEq, Repr

/-- A step of the worker; `timedOut` says whether a deadline it looks at has passed. A step that waits for
something else leaves everything as it is. -/
def serve (timedOut : Bool) (d : Node) : Node :=
  match d.sending with
  | .awaitStart resp =>
      match d.link.takeStart with
      | some link => { d with link := link, sending := .release resp }
      | none => d
  | .release resp =>
      match d.link.release with
      | some link =>
          ⟨(d.system.record (.replied resp)).workerAt .top, link, .notSending⟩
      | none => d
  | .notSending =>
      match d.system.worker with
      | .receiving =>
          match d.link.recvAdvance with
          | some (request, link) => ⟨workerStep ⟨request, timedOut⟩ d.system, link, .notSending⟩
          | none => d
      | .reply _ resp =>
          -- DONE goes to a queue that never blocks
          if d.link.isCoordinated then { d with sending := .awaitStart resp }
          else { d with sending := .release resp }
      | _ => { d with system := workerStep ⟨none, timedOut⟩ d.system }

/-- What can happen to the node. -/
inductive NodeMove
  | worker (timedOut : Bool)
  | vcpu (choice : VcpuChoice)
  /-- A query comes in. -/
  | query (payload : List UInt8)
  /-- A START comes in. -/
  | start
  /-- Bytes come in over the Unix socket. -/
  | bytes (data : List UInt8)
  /-- The other side reads from the Unix socket. -/
  | drained (room : ℕ)
  /-- The listening socket changes. -/
  | listener (l : Listener)
  | shutdown
  deriving DecidableEq, Repr

/-- The transport after something has come in or gone out. -/
def Link.after (link : Link) : NodeMove → Link
  | .query payload => match link with
      | .zenoh c queries starts => .zenoh c (queries ++ [payload]) starts
      | .unix _ _ _ => link
  | .start => match link with
      | .zenoh c queries starts => .zenoh c queries (starts + 1)
      | .unix _ _ _ => link
  | .bytes data => match link with
      | .unix l (some inbox) room => .unix l (some (inbox ++ data)) room
      | _ => link
  | .drained room => match link with
      | .unix l inbox _ => .unix l inbox room
      | .zenoh _ _ _ => link
  | .listener l => match link with
      | .unix _ inbox room => .unix l inbox room
      | .zenoh _ _ _ => link
  | _ => link

/-- One step of the node. -/
def nodeStep (d : Node) : NodeMove → Node
  | .worker timedOut => serve timedOut d
  | .vcpu choice => { d with system := vcpuStep choice d.system }
  | .shutdown => { d with system := step d.system .shutdown }
  | move => { d with link := d.link.after move }

/-- The node as `clock_init_with_transport` makes it. -/
def Node.initial (link : Link) : Node := ⟨System.initial, link, .notSending⟩

/-! ## Can the worker return? -/

namespace Link

/-- The transport does not hold up the last step of a response. -/
def canRelease : Link → Bool
  | .zenoh _ _ _ => true
  | .unix _ _ room => clockReadyRespSize ≤ room

/-- The transport does not hold up a response: a coordinated node has a START waiting. -/
def canAnswer : Link → Bool
  | .zenoh isCoordinated _ starts => !isCoordinated || decide (0 < starts)
  | .unix _ _ room => clockReadyRespSize ≤ room

end Link

/-- The worker has taken a request and has not answered it. -/
def WorkerPc.owesResponse : WorkerPc → Bool
  | .top => false
  | .stopped => false
  | .receiving => false
  | _ => true

/-- The worker has no response to send that the transport holds up, and is not held up in `connect`. -/
def CanReturn (d : Node) : Prop :=
  match d.sending with
  | .awaitStart _ => d.link.canAnswer = true
  | .release _ => d.link.canRelease = true
  | .notSending =>
      match d.system.worker with
      | .receiving =>
          match d.link.recvAdvance with
          | none => False
          -- a request that is there already has to be answered
          | some (some _, link) => link.canAnswer = true
          | some (none, _) => True
      | pc => pc.owesResponse = true → d.link.canAnswer = true

/-- The worker has returned. -/
def Node.HasReturned (d : Node) : Prop := d.sending = .notSending ∧ d.system.worker = .stopped

/-- The node when the worker has run alone, with these answers about its deadlines. -/
def Node.alone (d : Node) (timeouts : List Bool) : Node :=
  timeouts.foldl (fun d timedOut => serve timedOut d) d

/-- Alone, whatever its deadlines, the worker has returned after a number of steps. -/
def Returns (d : Node) : Prop :=
  ∃ n, ∀ timeouts : List Bool, timeouts.length = n → (d.alone timeouts).HasReturned

/-- The shutdown flag is set and the mutex is free, as it is when the hooks are drained. -/
structure Drained (s : System) : Prop where
  shutdown : s.backend.shutdown = true
  unlocked : s.backend.locked = false

/-! ## One step -/

/-- The steps the worker has at most before it, outside of `send_ready`. -/
def WorkerPc.rank : WorkerPc → ℕ
  | .stopped => 0
  | .top => 1
  | .reply _ _ => 4
  | .loadVtime _ _ => 5
  | .swapPending _ _ => 6
  | .readyTop _ => 7
  | .execTop _ => 7
  | .readyAsleep _ => 8
  | .execAsleep _ => 8
  | .notify _ => 8
  | .storeAbsolute _ => 8
  | .readyCheck _ => 9
  | .execCheck _ => 9
  | .grant _ => 9
  | .storeDelta _ => 9
  | .readyLoad _ => 10
  | .execLoad _ => 10
  | .receiving => 10

/-- The steps the worker has at most before it. -/
def Node.rank (d : Node) : ℕ :=
  match d.sending with
  | .awaitStart _ => 3
  | .release _ => 2
  | .notSending => d.system.worker.rank

/-- The worker neither sets the flag back nor holds the mutex. -/
theorem Drained.workerStep {s : System} (hs : Drained s) (c : WorkerChoice) : Drained (workerStep c s) where
  shutdown := (shutdown_step (m := .worker c) nofun).trans hs.shutdown
  unlocked := (locked_workerStep c s).trans hs.unlocked

/-- **The worker gets nearer to its response** with every step, once the flag is set. -/
theorem rank_workerStep {s : System} (hs : Drained s) (c : WorkerChoice)
    (howes : s.worker.owesResponse = true) (hreply : ∀ req resp, s.worker ≠ .reply req resp) :
    (workerStep c s).worker.owesResponse = true ∧ (workerStep c s).worker.rank < s.worker.rank := by
  have hshutdown := hs.shutdown
  have hunlocked := hs.unlocked
  unfold Clock.workerStep
  cases hpc : s.worker with
  | top | stopped | receiving => rw [hpc] at howes; cases howes
  | reply req resp => exact absurd hpc (hreply req resp)
  | storeDelta req | storeAbsolute req => exact ⟨rfl, Nat.le_of_ble_eq_true rfl⟩
  | readyTop req | execTop req =>
    simp only [hshutdown, if_true]
    exact ⟨rfl, Nat.le_of_ble_eq_true rfl⟩
  | readyLoad req | grant req | execLoad req =>
    simp only
    split <;> exact ⟨rfl, Nat.le_of_ble_eq_true rfl⟩
  | readyCheck req | notify req | execCheck req =>
    simp only [hunlocked, Bool.false_eq_true, if_false]
    split <;> exact ⟨rfl, Nat.le_of_ble_eq_true rfl⟩
  | readyAsleep req | execAsleep req =>
    simp only [hunlocked, Bool.false_eq_true, if_false]
    exact ⟨rfl, Nat.le_of_ble_eq_true rfl⟩
  | swapPending req code | loadVtime req code => exact ⟨rfl, Nat.le_of_ble_eq_true rfl⟩

/-- A START that is taken is what a response waited for. -/
theorem Link.takeStart_cases (link : Link) :
    (∃ link', link.takeStart = some link' ∧ link'.canRelease = link.canAnswer) ∨
      (link.takeStart = none ∧ link.canAnswer = false) := by
  cases link with
  | unix listener inbox room => exact .inl ⟨_, rfl, rfl⟩
  | zenoh isCoordinated queries starts =>
    cases isCoordinated with
    | false => exact .inl ⟨_, rfl, rfl⟩
    | true =>
      cases starts with
      | zero => exact .inr ⟨rfl, rfl⟩
      | succ starts => exact .inl ⟨_, rfl, rfl⟩

/-- A response goes out when there is room for it. -/
theorem Link.release_cases (link : Link) : (∃ link', link.release = some link' ∧ link.canRelease = true) ∨
      (link.release = none ∧ link.canRelease = false) := by
  cases link with
  | zenoh isCoordinated queries starts => exact .inl ⟨_, rfl, rfl⟩
  | unix listener inbox room =>
    by_cases hroom : clockReadyRespSize ≤ room
    · exact .inl ⟨_, if_pos hroom, decide_eq_true hroom⟩
    · exact .inr ⟨if_neg hroom, decide_eq_false hroom⟩

/-- Without coordination only the last step can be held up. -/
theorem Link.canRelease_of_not_isCoordinated {link : Link} (h : link.isCoordinated = false) :
    link.canRelease = link.canAnswer := by
  cases link with
  | unix listener inbox room => rfl
  | zenoh isCoordinated queries starts =>
    have hfalse : isCoordinated = false := h
    subst hfalse
    rfl

section

variable {d : Node} {timedOut : Bool}

/-- A worker that owes a response returns if the transport lets the response through. -/
theorem canReturn_of_owesResponse (hidle : d.sending = .notSending)
    (howes : d.system.worker.owesResponse = true) : CanReturn d ↔ d.link.canAnswer = true := by
  unfold CanReturn
  rw [hidle]
  cases hpc : d.system.worker with
  | receiving | top | stopped => rw [hpc] at howes; cases howes
  | _ => exact ⟨fun h => h rfl, fun h _ => h⟩

/-- On the way to its response the worker moves as the device does. -/
theorem serve_of_owesResponse (hidle : d.sending = .notSending)
    (howes : d.system.worker.owesResponse = true) (hreply : ∀ req resp, d.system.worker ≠ .reply req resp) :
    serve timedOut d = { d with system := workerStep ⟨none, timedOut⟩ d.system } := by
  unfold serve
  rw [hidle]
  cases hpc : d.system.worker with
  | receiving => rw [hpc] at howes; cases howes
  | reply req resp => exact absurd hpc (hreply req resp)
  | _ => rfl

/-- What a step does to a drained node: it stays drained, nothing is gained or lost for its return, and
it gets nearer to the end if it can get there. -/
structure StepsTowards (d d' : Node) : Prop where
  drained : Drained d'.system
  canReturn_iff : CanReturn d' ↔ CanReturn d
  rank_lt : CanReturn d → d'.rank < d.rank ∨ d.HasReturned

/-- A step that is held up. -/
theorem StepsTowards.of_held (hd : Drained d.system) (h : ¬ CanReturn d) : StepsTowards d d :=
  ⟨hd, Iff.rfl, fun hcan => absurd hcan h⟩

variable {system : System}

/-- The worker waits for START. -/
theorem stepsTowards_awaitStart (hd : Drained system) (link : Link) (resp : ClockReadyResp) :
    StepsTowards ⟨system, link, .awaitStart resp⟩ (serve timedOut ⟨system, link, .awaitStart resp⟩) := by
  rcases link.takeStart_cases with ⟨link', htake, hcan⟩ | ⟨htake, hcan⟩
  · simp only [serve, htake]
    refine ⟨hd, ?_, fun _ => .inl (Nat.le_of_ble_eq_true rfl)⟩
    show link'.canRelease = true ↔ link.canAnswer = true
    rw [hcan]
  · simp only [serve, htake]
    refine StepsTowards.of_held hd ?_
    show ¬ link.canAnswer = true
    rw [hcan]
    exact Bool.false_ne_true

/-- The worker hands the response over. -/
theorem stepsTowards_release (hd : Drained system) (link : Link) (resp : ClockReadyResp) :
    StepsTowards ⟨system, link, .release resp⟩ (serve timedOut ⟨system, link, .release resp⟩) := by
  rcases link.release_cases with ⟨link', hrelease, hcan⟩ | ⟨hrelease, hcan⟩
  · simp only [serve, hrelease]
    exact ⟨⟨hd.shutdown, hd.unlocked⟩, ⟨fun _ => hcan, fun _ => nofun⟩,
      fun _ => .inl (Nat.le_of_ble_eq_true rfl)⟩
  · simp only [serve, hrelease]
    refine StepsTowards.of_held hd ?_
    show ¬ link.canRelease = true
    rw [hcan]
    exact Bool.false_ne_true

/-- The worker enters `send_ready`. -/
theorem stepsTowards_reply (hd : Drained system) (link : Link)
    {req : ClockAdvanceReq} {resp : ClockReadyResp} (hpc : system.worker = .reply req resp) :
    StepsTowards ⟨system, link, .notSending⟩ (serve timedOut ⟨system, link, .notSending⟩) := by
  have hcan : CanReturn ⟨system, link, .notSending⟩ ↔ link.canAnswer = true :=
    canReturn_of_owesResponse rfl (by rw [hpc]; rfl)
  have hrank : (⟨system, link, .notSending⟩ : Node).rank = 4 := by
    rw [Node.rank, hpc]
    rfl
  simp only [serve, hpc]
  cases hcoordinated : link.isCoordinated with
  | true =>
    refine ⟨hd, hcan.symm, fun _ => .inl ?_⟩
    rw [hrank]
    exact Nat.le_of_ble_eq_true rfl
  | false =>
    refine ⟨hd, ?_, fun _ => .inl ?_⟩
    · rw [hcan, ← Link.canRelease_of_not_isCoordinated hcoordinated]
      rfl
    · rw [hrank]
      exact Nat.le_of_ble_eq_true rfl

/-- The worker asks its transport for a request. -/
theorem stepsTowards_receiving (hd : Drained system) (link : Link) (hpc : system.worker = .receiving) :
    StepsTowards ⟨system, link, .notSending⟩ (serve timedOut ⟨system, link, .notSending⟩) := by
  have hrank : (⟨system, link, .notSending⟩ : Node).rank = 10 := by
    rw [Node.rank, hpc]
    rfl
  cases hrecv : link.recvAdvance with
  | none =>
    simp only [serve, hpc, hrecv]
    refine StepsTowards.of_held hd ?_
    simp only [CanReturn, hpc, hrecv]
    exact not_false
  | some r =>
    obtain ⟨request, link'⟩ := r
    cases request with
    | none =>
      have hback : workerStep ⟨none, timedOut⟩ system = system.workerAt .top := by
        rw [workerStep, hpc]
      simp only [serve, hpc, hrecv, hback]
      refine ⟨⟨hd.shutdown, hd.unlocked⟩,
        ⟨fun _ => ?_, fun _ howes => absurd howes Bool.false_ne_true⟩, fun _ => .inl ?_⟩
      · simp only [CanReturn, hpc, hrecv]
      · rw [hrank]
        exact Nat.le_of_ble_eq_true rfl
    | some req =>
      -- from here on it owes a response
      have hserve : workerStep ⟨some req, timedOut⟩ system =
          (system.record (.received req.deltaNs)).workerAt (.storeDelta req) := by
        rw [workerStep, hpc]
      simp only [serve, hpc, hrecv, hserve]
      refine ⟨⟨hd.shutdown, hd.unlocked⟩, ?_, fun _ => .inl ?_⟩
      · rw [canReturn_of_owesResponse rfl rfl]
        simp only [CanReturn, hpc, hrecv]
      · rw [hrank]
        exact Nat.le_of_ble_eq_true rfl

/-- A worker that has returned does not move. -/
theorem serve_of_hasReturned (h : d.HasReturned) : serve timedOut d = d := by
  obtain ⟨system, link, sending⟩ := d
  obtain ⟨hidle, hpc⟩ := h
  simp only at hidle hpc
  have hsame : workerStep ⟨none, timedOut⟩ system = system := by rw [workerStep, hpc]
  simp only [serve, hidle, hpc, hsame]

/-- The worker finds the flag at the head of its loop. -/
theorem stepsTowards_top (hd : Drained system) (link : Link) (hpc : system.worker = .top) :
    StepsTowards ⟨system, link, .notSending⟩ (serve timedOut ⟨system, link, .notSending⟩) := by
  have hstop : workerStep ⟨none, timedOut⟩ system = system.workerAt .stopped := by
    rw [workerStep, hpc]
    exact if_pos hd.shutdown
  simp only [serve, hpc, hstop]
  refine ⟨⟨hd.shutdown, hd.unlocked⟩,
    ⟨fun _ => ?_, fun _ howes => absurd howes Bool.false_ne_true⟩, fun _ => .inl ?_⟩
  · rw [CanReturn, hpc]
    exact fun howes => absurd howes Bool.false_ne_true
  · rw [Node.rank, Node.rank, hpc]
    exact Nat.le_of_ble_eq_true rfl

/-- **One step of the worker.** -/
theorem stepsTowards_serve (hd : Drained d.system) (timedOut : Bool) :
    StepsTowards d (serve timedOut d) := by
  obtain ⟨system, link, sending⟩ := d
  cases sending with
  | awaitStart resp => exact stepsTowards_awaitStart hd link resp
  | release resp => exact stepsTowards_release hd link resp
  | notSending =>
    cases howes : system.worker.owesResponse with
    | false =>
      cases hpc : system.worker with
      | top => exact stepsTowards_top hd link hpc
      | receiving => exact stepsTowards_receiving hd link hpc
      | stopped =>
        have hreturned : Node.HasReturned ⟨system, link, .notSending⟩ := ⟨rfl, hpc⟩
        rw [serve_of_hasReturned hreturned]
        exact ⟨hd, Iff.rfl, fun _ => .inr hreturned⟩
      | _ => rw [hpc] at howes; cases howes
    | true =>
      by_cases hreply : ∃ req resp, system.worker = .reply req resp
      · obtain ⟨req, resp, hpc⟩ := hreply
        exact stepsTowards_reply hd link hpc
      · have hpc : ∀ req resp, system.worker ≠ .reply req resp := fun req resp h =>
          hreply ⟨req, resp, h⟩
        rw [serve_of_owesResponse rfl howes hpc]
        obtain ⟨howes', hlt⟩ := rank_workerStep hd ⟨none, timedOut⟩ howes hpc
        refine ⟨hd.workerStep ⟨none, timedOut⟩, ?_, fun _ => .inl hlt⟩
        rw [canReturn_of_owesResponse rfl howes', canReturn_of_owesResponse rfl howes]

/-! ## The worker alone -/

theorem rank_eq_zero_iff : d.rank = 0 ↔ d.HasReturned := by
  obtain ⟨system, link, sending⟩ := d
  unfold Node.rank Node.HasReturned
  cases sending with
  | awaitStart resp | release resp => exact ⟨nofun, fun h => nomatch h.1⟩
  | notSending => cases system.worker <;> simp [WorkerPc.rank]

/-- A worker that has returned could return. -/
theorem canReturn_of_hasReturned (h : d.HasReturned) : CanReturn d := by
  rw [CanReturn, h.1, h.2]
  exact nofun

/-- Whether the worker can return is settled before it runs. -/
theorem canReturn_alone_iff (hd : Drained d.system) (timeouts : List Bool) :
    CanReturn (d.alone timeouts) ↔ CanReturn d := by
  induction timeouts generalizing d with
  | nil => exact Iff.rfl
  | cons timedOut timeouts ih =>
    have hstep := stepsTowards_serve hd timedOut
    exact (ih hstep.drained).trans hstep.canReturn_iff

/-- A worker that can return does so within its rank. -/
theorem hasReturned_alone (hd : Drained d.system) (hcan : CanReturn d) {timeouts : List Bool}
    (hrank : d.rank ≤ timeouts.length) : (d.alone timeouts).HasReturned := by
  induction timeouts generalizing d with
  | nil => exact rank_eq_zero_iff.mp (Nat.le_zero.mp hrank)
  | cons timedOut timeouts ih =>
    have hstep := stepsTowards_serve hd timedOut
    refine ih hstep.drained (hstep.canReturn_iff.mpr hcan) ?_
    show (serve timedOut d).rank ≤ timeouts.length
    rcases hstep.rank_lt hcan with hlt | hreturned
    · rw [List.length_cons] at hrank
      omega
    · rw [serve_of_hasReturned hreturned, rank_eq_zero_iff.mpr hreturned]
      exact Nat.zero_le _

/-- A worker that cannot return never does. -/
theorem canReturn_of_returns (hd : Drained d.system) (h : Returns d) : CanReturn d := by
  obtain ⟨n, hreturned⟩ := h
  have hend := hreturned (List.replicate n false) List.length_replicate
  exact (canReturn_alone_iff hd _).mp (canReturn_of_hasReturned hend)

end

/-- **When the worker returns after a shutdown.** In every state of the device and its transport with the
flag set and the hooks drained: run alone, with no further query, START, byte or step of the guest and
whatever its deadlines, the worker returns exactly when it is not held up in `connect` and no response it
has to send is held up by the transport. -/
theorem returns_iff (d : Node) (hd : Drained d.system) : Returns d ↔ CanReturn d := by
  constructor
  · exact canReturn_of_returns hd
  · intro hcan
    exact ⟨d.rank, fun timeouts hlen => hasReturned_alone hd hcan (Nat.le_of_eq hlen.symm)⟩

/-- A request is granted, and the shutdown comes before the response. -/
def interruptedMoves : List NodeMove :=
  .worker false :: .query (ClockAdvanceReq.pack ⟨10, 0, 1⟩) ::
    (List.replicate 7 (.worker false) ++ .shutdown :: List.replicate 4 (.worker false))

/-- The node then, in coordinated mode, with a number of START signals waiting. -/
def interruptedNode (starts : ℕ) : Node :=
  interruptedMoves.foldl nodeStep (Node.initial (.zenoh true [] starts))

theorem interruptedNode_eq (starts : ℕ) (hstarts : starts < 2) : Drained (interruptedNode starts).system ∧
      (interruptedNode starts).sending = .awaitStart ⟨0, 0, .ok, 1⟩ ∧
      (interruptedNode starts).link = .zenoh true [] starts := by
  have hcases : starts = 0 ∨ starts = 1 := by omega
  rcases hcases with rfl | rfl
  · exact ⟨⟨by decide +kernel, by decide +kernel⟩, by decide +kernel, by decide +kernel⟩
  · exact ⟨⟨by decide +kernel, by decide +kernel⟩, by decide +kernel, by decide +kernel⟩

/-- With a START waiting the worker returns. -/
theorem returns_interruptedNode : Drained (interruptedNode 1).system ∧ Returns (interruptedNode 1) := by
  obtain ⟨hd, hsending, hlink⟩ := interruptedNode_eq 1 (by decide)
  refine ⟨hd, (returns_iff _ hd).mpr ?_⟩
  rw [CanReturn, hsending, hlink]
  rfl

/-- **Without one it never returns**, and the join in `ClockManager::drop` waits for ever. -/
theorem not_returns_interruptedNode :
    Drained (interruptedNode 0).system ∧ ¬ Returns (interruptedNode 0) := by
  obtain ⟨hd, hsending, hlink⟩ := interruptedNode_eq 0 (by decide)
  refine ⟨hd, fun hreturns => ?_⟩
  have hcan := canReturn_of_returns hd hreturns
  rw [CanReturn, hsending, hlink] at hcan
  cases hcan

end Virtmcu.Clock
