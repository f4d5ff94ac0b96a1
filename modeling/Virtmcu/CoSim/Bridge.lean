import Virtmcu.CoSim.RemotePort

/-! # The co-simulation bridge

The threads around one `CoSimBridge` over the Remote Port transport: the vCPUs in
`CoSimBridge::send_and_wait`, the receive loop (`RpTransport::run_rx_loop`), the connection, and the
peer at its other end. A step is what a thread does under one lock, one read or write of the socket, or
one doing of the peer; the steps interleave freely.

The bridge has a single slot for the response (`BridgeState`). A timeout may pass at any time, so
durations do not appear, and a receive loop without `reconnect_ms` is one that takes no further step
once it has failed to connect or lost its connection. `is_connected` is left out, which only
`wait_connected` reads. -/

namespace Virtmcu.CoSim

/-! ## State -/

/-- Where a vCPU is in `send_and_wait`. -/
inductive VcpuPc
  | idle
  /-- Past the test of `running`, before the slot is cleared. -/
  | entered (req : RpRequest)
  /-- The slot is cleared, the request not yet sent. -/
  | cleared (req : RpRequest)
  /-- In the loop that waits for the response to a call. -/
  | waiting (call : ℕ)
  deriving DecidableEq, Repr

/-- Where the receive loop is. -/
inductive RxPc
  /-- At the test of `running` that heads the loop, or asleep before it. -/
  | top
  /-- `stream` is `None`; at `UnixStream::connect` or the handshake. -/
  | connecting
  /-- `stream` is `Some`; in the read loop. -/
  | reading
  /-- `stream` is `None` again; at `notify_disconnected`. -/
  | closed
  deriving DecidableEq, Repr

/-- A request on its way to the peer, with the number of the call that sent it. -/
structure Sent where
  call : ℕ
  bytes : List UInt8
  deriving DecidableEq, Repr

/-- The bridge with `n` vCPUs, its connection and its peer. -/
structure State (n : ℕ) where
  running : Bool
  /-- `BridgeState::has_resp`. -/
  hasResp : Bool
  /-- `BridgeState::current_resp`. -/
  currentResp : Option RpResponse
  pc : Fin n → VcpuPc
  rx : RxPc
  /-- `rx_buf`, which outlives a connection. -/
  rxBuf : List UInt8
  /-- `next_id` without wraparound. It numbers the calls; a packet carries its low 32 bits. -/
  nextId : ℕ
  /-- The requests of this connection that the peer has neither answered nor passed over. -/
  pending : List Sent
  /-- The bytes the peer has sent on this connection that are not yet read. -/
  wire : List UInt8
  /-- The responses among what is on the wire and in `rx_buf`, each with the call it answers. -/
  underway : List (ℕ × RpResponse)
  /-- All the peer has ever answered, by call. -/
  answers : List (ℕ × RpResponse)
  /-- All that `send_and_wait` has ever returned, by call. -/
  returned : List (ℕ × RpResponse)

/-- `CoSimBridge::new`. -/
def initial (n : ℕ) : State n where
  running := true
  hasResp := false
  currentResp := none
  pc _ := .idle
  rx := .top
  rxBuf := []
  nextId := 0
  pending := []
  wire := []
  underway := []
  answers := []
  returned := []

/-! ## Steps -/

/-- A step, with what it finds in the state. -/
inductive Action (n : ℕ)
  /-- A vCPU calls `send_and_wait` and finds `running`. -/
  | enter (v : Fin n) (req : RpRequest)
  /-- It clears the slot. -/
  | clear (v : Fin n) (req : RpRequest)
  /-- `send_request` returns `true`. -/
  | send (v : Fin n) (req : RpRequest)
  /-- `send_request` returns `false` because there is no stream. -/
  | noStream (v : Fin n) (req : RpRequest)
  /-- `send_request` returns `false` because the write fails. The identifier is used up. -/
  | writeFails (v : Fin n) (req : RpRequest)
  /-- The loop ends because there is a response or the bridge is shut down. -/
  | wake (v : Fin n) (call : ℕ)
  /-- The loop ends at its deadline. -/
  | timeout (v : Fin n) (call : ℕ)
  /-- The bridge is dropped: `running` becomes `false`. -/
  | stop
  /-- The receive loop finds `running`. -/
  | loop
  /-- It connects, says hello and sets `stream`. -/
  | connect
  /-- It fails to connect or to say hello. -/
  | connectFails
  /-- A read of `count` bytes. -/
  | receive (count : ℕ)
  /-- The packet in front of `rx_buf` is handled and drained. -/
  | handle (packet rest : List UInt8)
  /-- A read finds the end of the stream or an error. -/
  | disconnect
  /-- `CoSimContext::notify_disconnected`. -/
  | notifyDisconnected
  /-- The peer answers the oldest request it has. -/
  | answer (call : ℕ) (packet : List UInt8) (resp : RpResponse)
  /-- The peer will not answer the oldest request it has. -/
  | pass
  /-- The peer sends a packet that is no response, such as an interrupt. -/
  | tell (packet : List UInt8)
  deriving DecidableEq, Repr

/-- The size of `temp_buf`. -/
def tempBufLen : ℕ := 1024

variable {n : ℕ}

/-- The step can be taken. The receive loop reads only when no whole packet is left in its buffer; the
peer answers in order and on the connection the request came on. -/
def Enabled (s : State n) : Action n → Prop
  | .enter v _ => s.running = true ∧ s.pc v = .idle
  | .clear v req => s.pc v = .entered req
  | .send v req => s.pc v = .cleared req ∧ s.rx = .reading
  | .noStream v req => s.pc v = .cleared req ∧ s.rx ≠ .reading
  | .writeFails v req => s.pc v = .cleared req ∧ s.rx = .reading
  | .wake v call => s.pc v = .waiting call ∧ (s.hasResp = true ∨ s.running = false)
  | .timeout v call => s.pc v = .waiting call
  | .stop => True
  | .loop => s.rx = .top ∧ s.running = true
  | .connect => s.rx = .connecting
  | .connectFails => s.rx = .connecting
  | .receive count =>
      s.rx = .reading ∧ rpFraming.next s.rxBuf = none ∧
        0 < count ∧ count ≤ s.wire.length ∧ count ≤ tempBufLen
  | .handle packet rest => s.rx = .reading ∧ rpFraming.next s.rxBuf = some (packet, rest)
  | .disconnect => s.rx = .reading ∧ rpFraming.next s.rxBuf = none
  | .notifyDisconnected => s.rx = .closed
  | .answer call packet resp =>
      s.rx = .reading ∧ s.pending.head?.map Sent.call = some call ∧
        rpFraming.IsPacket packet ∧ responseOf packet = some resp
  | .pass => True
  | .tell packet => s.rx = .reading ∧ rpFraming.IsPacket packet ∧ responseOf packet = none

instance (s : State n) (action : Action n) : Decidable (Enabled s action) := by
  cases action <;> dsimp only [Enabled] <;> infer_instance

/-- The vCPU gets to another place. -/
def State.goto (s : State n) (v : Fin n) (pc : VcpuPc) : State n :=
  { s with pc := Function.update s.pc v pc }

/-- `guard.current_resp.take()`, and `send_and_wait` returns it. -/
def State.takeResponse (s : State n) (v : Fin n) (call : ℕ) : State n :=
  { s.goto v .idle with
    currentResp := none
    returned := s.returned ++ (s.currentResp.map (call, ·)).toList }

/-- `CoSimContext::dispatch_response`. -/
def State.dispatchResponse (s : State n) (resp : RpResponse) : State n :=
  { s with currentResp := some resp, hasResp := true, underway := s.underway.tail }

/-- What a step does. -/
def step (s : State n) : Action n → State n
  | .enter v req => s.goto v (.entered req)
  | .clear v req => { s.goto v (.cleared req) with hasResp := false, currentResp := none }
  | .send v req =>
      { s.goto v (.waiting s.nextId) with
        nextId := s.nextId + 1
        pending := s.pending ++ [⟨s.nextId, req.bytes s.nextId.toUInt32⟩] }
  | .noStream v _ => s.goto v .idle
  | .writeFails v _ => { s.goto v .idle with nextId := s.nextId + 1 }
  | .wake v call => s.takeResponse v call
  | .timeout v call => s.takeResponse v call
  | .stop => { s with running := false }
  | .loop => { s with rx := .connecting }
  | .connect => { s with rx := .reading }
  | .connectFails => { s with rx := .top }
  | .receive count => { s with rxBuf := s.rxBuf ++ s.wire.take count, wire := s.wire.drop count }
  | .handle packet rest =>
      let drained := { s with rxBuf := rest }
      match responseOf packet with
      | some resp => drained.dispatchResponse resp
      | none => drained
  -- what is underway on the connection is lost with it, but not what is in `rx_buf`
  | .disconnect => { s with rx := .closed, pending := [], wire := [], underway := [] }
  | .notifyDisconnected => { s with rx := .top, hasResp := true, currentResp := none }
  | .answer call packet resp =>
      { s with
        pending := s.pending.tail
        wire := s.wire ++ packet
        underway := s.underway ++ [(call, resp)]
        answers := s.answers ++ [(call, resp)] }
  | .pass => { s with pending := s.pending.tail }
  | .tell packet => { s with wire := s.wire ++ packet }

/-- **Responses match requests**: what `send_and_wait` has returned for a call is what the peer answered
to that call. -/
def Paired (s : State n) : Prop := ∀ entry ∈ s.returned, entry ∈ s.answers

instance (s : State n) : Decidable (Paired s) :=
  inferInstanceAs (Decidable (∀ entry ∈ s.returned, entry ∈ s.answers))

end Virtmcu.CoSim
