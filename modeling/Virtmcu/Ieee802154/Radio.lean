import Virtmcu.Comms.RxQueue
import Virtmcu.Devices.Frames
import Virtmcu.Foundations.BinarySearch
import Virtmcu.Foundations.Flags
import Virtmcu.Foundations.Run

/-! # The 802.15.4 radio

The registers of `ieee802154`, its four timer callbacks, the subscription callback and the reset, all of
which run with the big lock held. A guest loads a frame into the transmit FIFO and gives a transmit
command; the radio waits for a random backoff, listens whether a received frame is due, and publishes its
own or backs off again. Received frames wait in a sorted queue for their delivery time, and one that asks
for it is acknowledged.

Every access to an array is a computation that may fail, and `none` is the panic: `stepChecked` is a step
of the code with its checks. The other results are about `step`, which stays where it is in that case; in
a reachable state it never comes to that. -/

namespace Virtmcu.Ieee802154

open Comms Devices DeterministicCoordinator Option

/-! ## State -/

inductive RadioState
  | off
  | idle
  | rx
  | tx
  deriving DecidableEq, Repr

/-- `state as u32`. -/
def RadioState.code : RadioState → UInt32
  | .off => 0
  | .idle => 1
  | .rx => 2
  | .tx => 3

structure RxFrame where
  deliveryVtime : UInt64
  sequence : UInt64
  data : List UInt8
  size : ℕ
  rssi : Int8
  deriving DecidableEq, Repr

/-- The order of the receive queue: earlier delivery first, then the smaller sequence number. -/
def RxFrame.key (f : RxFrame) : ℕ ×ₗ ℕ := toLex (f.deliveryVtime.toNat, f.sequence.toNat)

inductive Kind
  | data
  | ack
  deriving DecidableEq, Repr

/-- A frame that was published. -/
structure Published where
  kind : Kind
  vtime : UInt64
  sequence : UInt64
  payload : List UInt8
  deriving DecidableEq, Repr

/-- `Virtmcu802154Inner` with the interrupt line, the four timers and the virtual clock. The last four
fields are a record that no code reads. -/
structure State where
  nodeId : UInt32
  txFifo : List UInt8
  txLen : ℕ
  rxFifo : List UInt8
  rxLen : ℕ
  rxReadPos : ℕ
  rxRssi : Int8
  status : UInt32
  state : RadioState
  panId : UInt16
  shortAddr : UInt16
  extAddr : UInt64
  rxQueue : List RxFrame
  nb : ℕ
  be : ℕ
  ackPending : Bool
  ackSeq : UInt8
  txSequence : UInt64
  irq : Bool
  rxTimer : Option ℕ
  backoffTimer : Option ℕ
  ackTimer : Option ℕ
  txTimer : Option ℕ
  now : ℕ
  published : List Published
  /-- What the guest had loaded when it gave the last transmit command. -/
  loaded : List UInt8
  /-- How many transmit commands had an effect. -/
  transmission : ℕ
  /-- The transmission that the airtime timer was armed for. -/
  airing : ℕ
  deriving DecidableEq, Repr

/-- `ieee802154_init_internal`. -/
def initial (nodeId : UInt32) : State where
  nodeId := nodeId
  txFifo := List.replicate 128 0
  txLen := 0
  rxFifo := List.replicate 128 0
  rxLen := 0
  rxReadPos := 0
  rxRssi := 0
  status := 0
  state := .idle
  panId := 0xFFFF
  shortAddr := 0xFFFF
  extAddr := 0
  rxQueue := []
  nb := 0
  be := 3
  ackPending := false
  ackSeq := 0
  txSequence := 0
  irq := false
  rxTimer := none
  backoffTimer := none
  ackTimer := none
  txTimer := none
  now := 0
  published := []
  loaded := []
  transmission := 0
  airing := 0

/-- The bit of the status register for a received frame. -/
def statusRx : UInt32 := 0x01

/-- The bit of the status register for a transmission that is done. -/
def statusDone : UInt32 := 0x02

/-! ## Transmission -/

def unitBackoffPeriodNs : ℕ := 320000
def sifsNs : UInt64 := 192000
def macMinBe : ℕ := 3
def macMaxBe : ℕ := 5
def macMaxCsmaBackoffs : ℕ := 4

/-- `deterministic_random`: the FNV-1a hash of the three numbers. -/
def deterministicRandom (nodeId : UInt32) (vtimeNs extra : UInt64) : UInt32 :=
  (leBytes 4 nodeId.toNat ++ leBytes 8 vtimeNs.toNat ++ leBytes 8 extra.toNat).foldl
    (fun hash byte => (hash ^^^ byte.toUInt32) * 0x01000193) 0x811c9dc5

/-- The delay of the next backoff: a random number of periods below `2 ^ be`. -/
def backoffDelay (s : State) : ℕ :=
  (deterministicRandom s.nodeId s.now.toUInt64 s.txSequence).toNat % 2 ^ s.be * unitBackoffPeriodNs

/-- `schedule_backoff`. -/
def scheduleBackoff (s : State) : State :=
  { s with backoffTimer := some (expiryOf (s.now.toUInt64 + (backoffDelay s).toUInt64)) }

/-- `tx_go`. -/
def txGo (s : State) : State :=
  if s.state = .tx then s
  else
    scheduleBackoff
      { s with
        nb := 0
        be := macMinBe
        state := .tx
        loaded := s.txFifo.take s.txLen
        transmission := s.transmission + 1 }

/-- `tx_real`. -/
def txReal (s : State) : Option State :=
  (slice s.txFifo 0 s.txLen).map fun payload =>
    { s with
      txSequence := s.txSequence + 1
      published := s.published ++ [⟨.data, s.now.toUInt64, s.txSequence, payload⟩]
      txTimer := some (expiryOf (s.now.toUInt64 + ((6 + s.txLen) * 32000).toUInt64))
      airing := s.transmission }

/-- The end of a transmission, whether it was sent or given up. -/
def finishTx (s : State) : State :=
  { s with
    txLen := 0
    status := s.status ||| statusDone
    state := .idle
    irq := true }

/-- `tx_timer_cb`. -/
def txTimerCb (s : State) : State := finishTx s

/-- The channel is busy: the first frame of the receive queue is due. -/
def isBusy (s : State) : Bool := s.rxQueue.head?.any fun f => decide (f.deliveryVtime.toNat ≤ s.now)

/-- `backoff_timer_cb`. -/
def backoffTimerCb (s : State) : Option State :=
  if isBusy s then
    if macMaxCsmaBackoffs < s.nb + 1 then some (finishTx { s with nb := s.nb + 1 })
    else some (scheduleBackoff { s with nb := s.nb + 1, be := min (s.be + 1) macMaxBe })
  else txReal s

/-! ## Reception -/

/-- `ack_timer_cb`. -/
def ackTimerCb (s : State) : State :=
  if s.ackPending then
    { s with
      txSequence := s.txSequence + 1
      published := s.published ++ [⟨.ack, s.now.toUInt64, s.txSequence, [0x02, 0x00, s.ackSeq]⟩]
      ackPending := false }
  else s

/-- What a message says, and the frame in it. -/
structure Received where
  vtime : UInt64
  sequence : UInt64
  rssi : Int8
  frame : List UInt8
  deriving DecidableEq, Repr

/-- The first half of `on_rx_frame`: `none` for a panic, `some none` for a message that is dropped. -/
def readFrame (fb : Flatbuffers) (data : List UInt8) : Option (Option Received) :=
  if data.length < 4 then some none
  else match fb.sizePrefixedRf802154Header data with
    | none => some none
    | some header =>
        (slice data 0 4).bind fun length =>
          let size := header.size.toNat
          let hdrLen := 4 + leNat length
          if 128 < size ∨ data.length < hdrLen + size then some none
          else (slice data hdrLen (hdrLen + size)).map fun frame =>
            some ⟨header.deliveryVtimeNs, header.sequenceNumber, header.rssi, frame⟩

/-- `LittleEndian::read_u16` and `read_u64` of a part of the frame. -/
def readNat (frame : List UInt8) (a b : ℕ) : Option ℕ := (slice frame a b).map leNat

/-- `frame_matches_address`. -/
def frameMatchesAddress (panId shortAddr : UInt16) (extAddr : UInt64) (frame : List UInt8) :
    Option Bool :=
  if frame.length < 3 then some false
  else (readNat frame 0 2).bind fun fcf =>
    match (fcf >>> 10) &&& 0x03 with
    | 0x00 => some true
    | 0x02 =>
        if frame.length < 7 then some false
        else (readNat frame 3 5).bind fun destPan => (readNat frame 5 7).map fun destAddr =>
          (destPan == 0xFFFF || destPan == panId.toNat) &&
            (destAddr == 0xFFFF || destAddr == shortAddr.toNat)
    | 0x03 =>
        if frame.length < 13 then some false
        else (readNat frame 3 5).bind fun destPan => (readNat frame 5 13).map fun destAddr =>
          (destPan == 0xFFFF || destPan == panId.toNat) && destAddr == extAddr.toNat
    | _ => some false

/-- The sequence number to acknowledge, if the frame control field asks for it. -/
def ackRequest (frame : List UInt8) : Option (Option UInt8) :=
  if 3 ≤ frame.length then
    (readNat frame 0 2).bind fun fcf =>
      if fcf &&& (1 <<< 5) ≠ 0 then (frame[2]?).map some else some none
  else some none

/-- The acknowledgement is prepared before it is known whether the frame is stored. -/
def requestAck (vtime : UInt64) (request : Option UInt8) (s : State) : State :=
  match request with
  | none => s
  | some seq =>
      { s with ackPending := true, ackSeq := seq, ackTimer := some (expiryOf (vtime + sifsNs)) }

/-- The capacity of the receive queue. -/
def rxQueueCapacity : ℕ := 16

/-- The end of `on_rx_frame`: the frame goes into the queue, if there is room, and the timer is armed for
the first one. -/
def enqueue (search : BinarySearch (ℕ ×ₗ ℕ)) (r : Received) (s : State) : Option State :=
  (copyFront (List.replicate 128 0) r.frame.length r.frame).bind fun data =>
    if s.rxQueue.length < rxQueueCapacity then
      let f : RxFrame := ⟨r.vtime, r.sequence, data, r.frame.length, r.rssi⟩
      (insertAt s.rxQueue (search.position (s.rxQueue.map RxFrame.key) f.key) f).bind fun queue =>
        queue.head?.map fun first =>
          { s with rxQueue := queue, rxTimer := some (expiryOf first.deliveryVtime) }
    else some s

/-- `on_rx_frame`. -/
def onRxFrame (fb : Flatbuffers) (search : BinarySearch (ℕ ×ₗ ℕ)) (data : List UInt8) (s : State) :
    Option State :=
  if s.state ≠ .rx then some s
  else (readFrame fb data).bind fun received =>
    match received with
    | none => some s
    | some r =>
        (frameMatchesAddress s.panId s.shortAddr s.extAddr r.frame).bind fun isOurs =>
          if isOurs then
            (ackRequest r.frame).bind fun request => enqueue search r (requestAck r.vtime request s)
          else some s

/-- The first frame of the queue goes into the receive FIFO. -/
def deliver (f : RxFrame) (rest : List RxFrame) (s : State) : Option State :=
  (slice f.data 0 f.size).bind fun bytes =>
    (copyFront s.rxFifo f.size bytes).map fun fifo =>
      { s with
        rxQueue := rest
        rxFifo := fifo
        rxLen := f.size
        rxRssi := f.rssi
        rxReadPos := 0
        status := s.status ||| statusRx
        irq := true
        -- without a next frame the timer is left alone
        rxTimer := (rest.head?.map fun next => expiryOf next.deliveryVtime).or s.rxTimer }

/-- `check_rx_queue`. -/
def checkRxQueue (s : State) : Option State :=
  match s.rxQueue with
  | [] => some s
  | f :: rest =>
      if f.deliveryVtime.toNat ≤ s.now then
        -- while the guest has a frame to read, the next one waits for the bit to be cleared
        if hasBit s.status statusRx then some s else deliver f rest s
      else some { s with rxTimer := some (expiryOf f.deliveryVtime) }

/-! ## Registers -/

inductive Register
  | txData
  | txLen
  | txGo
  | rxData
  | rxLen
  | status
  | rssi
  | state
  | panId
  | shortAddr
  | extAddrLow
  | extAddrHigh
  | unhandled
  deriving DecidableEq, Repr

def registerAt (offset : UInt64) : Register :=
  match offset.toNat with
  | 0x00 => .txData
  | 0x04 => .txLen
  | 0x08 => .txGo
  | 0x0C => .rxData
  | 0x10 => .rxLen
  | 0x14 => .status
  | 0x18 => .rssi
  | 0x1C => .state
  | 0x20 => .panId
  | 0x24 => .shortAddr
  | 0x28 => .extAddrLow
  | 0x2C => .extAddrHigh
  | _ => .unhandled

/-- `ieee802154_read_internal`. -/
def read (offset : UInt64) (s : State) : Option (UInt64 × State) :=
  match registerAt offset with
  | .txLen => some (s.txLen.toUInt64, s)
  | .rxData =>
      -- the condition guards the arm of the source: otherwise the read falls through
      if hasBit s.status statusRx ∧ s.rxReadPos < s.rxLen then
        (s.rxFifo[s.rxReadPos]?).map fun byte =>
          (byte.toUInt64, { s with rxReadPos := s.rxReadPos + 1 })
      else some (0, s)
  | .rxLen => some (s.rxLen.toUInt64, s)
  | .status => some ((s.status ||| (s.state.code <<< 8)).toUInt64, s)
  | .rssi => some (s.rxRssi.toUInt8.toUInt64, s)
  | .state => some (s.state.code.toUInt64, s)
  | .panId => some (s.panId.toUInt64, s)
  | .shortAddr => some (s.shortAddr.toUInt64, s)
  | .extAddrLow => some (s.extAddr &&& 0xFFFFFFFF, s)
  | .extAddrHigh => some (s.extAddr >>> 32, s)
  | _ => some (0, s)

/-- A byte into the transmit FIFO. -/
def loadByte (value : UInt64) (s : State) : Option State :=
  if s.txLen < 128 then
    (setAt s.txFifo s.txLen value.toUInt8).map fun fifo =>
      { s with txFifo := fifo, txLen := s.txLen + 1 }
  else some s

/-- Ones written to the status register clear its bits. -/
def clearStatus (value : UInt64) (s : State) : Option State :=
  let status := s.status &&& ~~~value.toUInt32
  if hasBit status statusRx then some { s with status := status }
  -- the done bit is not asked for
  else checkRxQueue { s with status := status, irq := false }

/-- A write of the state register. Three is the transmit command, and so is a number above it in `Tx`. -/
def writeState (value : UInt64) (s : State) : State :=
  match value.toNat with
  | 0 => { s with state := .off }
  | 1 => { s with state := .idle }
  | 2 => { s with state := .rx }
  | 3 => txGo s
  | _ => if s.state = .tx then txGo s else s

/-- `ieee802154_write_internal`. -/
def write (offset value : UInt64) (s : State) : Option State :=
  match registerAt offset with
  | .txData => loadByte value s
  | .txLen => some { s with txLen := (value &&& 0x7F).toNat }
  | .txGo => some (txGo s)
  | .status => clearStatus value s
  | .state => some (writeState value s)
  | .panId => some { s with panId := value.toUInt16 }
  | .shortAddr => some { s with shortAddr := value.toUInt16 }
  | .extAddrLow =>
      some { s with extAddr := (s.extAddr &&& 0xFFFFFFFF00000000) ||| (value &&& 0xFFFFFFFF) }
  | .extAddrHigh =>
      some { s with
        extAddr := (s.extAddr &&& 0x00000000FFFFFFFF) ||| ((value &&& 0xFFFFFFFF) <<< (32 : UInt64)) }
  | _ => some s

/-- `ieee802154_reset`. The interrupt line is left as it is. -/
def reset (s : State) : State :=
  { s with
    txLen := 0
    rxLen := 0
    rxReadPos := 0
    rxRssi := 0
    status := 0
    state := .idle
    rxQueue := []
    nb := 0
    be := macMinBe
    ackPending := false
    rxTimer := none
    backoffTimer := none
    ackTimer := none
    txTimer := none }

/-! ## Steps -/

inductive Event
  /-- The virtual clock goes on. It is an `i64`. -/
  | tick (time : ℕ)
  | read (offset : UInt64)
  | write (offset value : UInt64)
  /-- A message arrives. -/
  | frame (data : List UInt8)
  | rxTimer
  | backoffTimer
  | ackTimer
  | txTimer
  | reset
  deriving DecidableEq, Repr

variable (fb : Flatbuffers) (search : BinarySearch (ℕ ×ₗ ℕ))

/-- One event. A timer that is not due does not fire. -/
def stepChecked (s : State) : Event → Option State
  | .tick time => some (if s.now ≤ time ∧ time < 2 ^ 63 then { s with now := time } else s)
  | .read offset => (read offset s).map Prod.snd
  | .write offset value => write offset value s
  | .frame data => onRxFrame fb search data s
  | .rxTimer =>
      if isExpired s.rxTimer s.now then checkRxQueue { s with rxTimer := none } else some s
  | .backoffTimer =>
      if isExpired s.backoffTimer s.now then backoffTimerCb { s with backoffTimer := none } else some s
  | .ackTimer =>
      some (if isExpired s.ackTimer s.now then ackTimerCb { s with ackTimer := none } else s)
  | .txTimer => some (if isExpired s.txTimer s.now then txTimerCb { s with txTimer := none } else s)
  | .reset => some (reset s)

/-- One event, and nothing in the place of a panic. -/
def step (s : State) (event : Event) : State × Unit := ((stepChecked fb search s event).getD s, ())

/-- The state after some events, if none of them panics. -/
def runChecked (nodeId : UInt32) (events : List Event) : Option State :=
  events.foldlM (stepChecked fb search) (initial nodeId)

/-! ## What an operation can change -/

variable {fb search} {s t : State}

theorem read_changes {offset : UInt64} (h : (read offset s).map Prod.snd = some t) :
    ∃ rxReadPos, t = { s with rxReadPos := rxReadPos } := by
  unfold read at h
  split at h
  case h_2 =>
    split at h
    · cases hbyte : s.rxFifo[s.rxReadPos]? with
      | none =>
        rw [hbyte] at h
        cases h
      | some byte =>
        rw [hbyte] at h
        exact ⟨_, (Option.some.inj h).symm⟩
    · exact ⟨_, (Option.some.inj h).symm⟩
  all_goals exact ⟨_, (Option.some.inj h).symm⟩

/-- `check_rx_queue` delivers a frame and raises the line, or sets its timer at most. -/
theorem checkRxQueue_changes (h : checkRxQueue s = some t) :
    ∃ rxQueue rxFifo rxLen rxReadPos rxRssi rxTimer, ∃ delivers : Bool, t =
      { s with
        rxQueue := rxQueue
        rxFifo := rxFifo
        rxLen := rxLen
        rxReadPos := rxReadPos
        rxRssi := rxRssi
        rxTimer := rxTimer
        status := if delivers then s.status ||| statusRx else s.status
        irq := delivers || s.irq } := by
  unfold checkRxQueue at h
  split at h
  next => exact ⟨_, _, _, _, _, _, false, (Option.some.inj h).symm⟩
  next f rest hqueue =>
    split at h
    next =>
      split at h
      next => exact ⟨_, _, _, _, _, _, false, (Option.some.inj h).symm⟩
      next =>
        obtain ⟨bytes, -, hcopied⟩ := bind_eq_some_iff.mp h
        obtain ⟨fifo, -, heq⟩ := map_eq_some_iff.mp hcopied
        exact ⟨_, _, _, _, _, _, true, heq.symm⟩
    next => exact ⟨_, _, _, _, _, _, false, (Option.some.inj h).symm⟩

theorem enqueue_changes {r : Received} (h : enqueue search r s = some t) :
    ∃ rxQueue rxTimer, t = { s with rxQueue := rxQueue, rxTimer := rxTimer } := by
  obtain ⟨data, -, h⟩ := bind_eq_some_iff.mp h
  split at h
  · obtain ⟨queue, -, h⟩ := bind_eq_some_iff.mp h
    obtain ⟨first, -, heq⟩ := map_eq_some_iff.mp h
    exact ⟨_, _, heq.symm⟩
  · exact ⟨_, _, (Option.some.inj h).symm⟩

theorem requestAck_changes (vtime : UInt64) (request : Option UInt8) (s : State) :
    ∃ ackPending ackSeq ackTimer, requestAck vtime request s =
      { s with ackPending := ackPending, ackSeq := ackSeq, ackTimer := ackTimer } := by
  cases request with
  | none | some seq => exact ⟨_, _, _, rfl⟩

/-- A message fills the queue and the slot for the acknowledgement. -/
theorem onRxFrame_changes {data : List UInt8} (h : onRxFrame fb search data s = some t) :
    ∃ rxQueue rxTimer ackPending ackSeq ackTimer, t =
      { s with
        rxQueue := rxQueue
        rxTimer := rxTimer
        ackPending := ackPending
        ackSeq := ackSeq
        ackTimer := ackTimer } := by
  unfold onRxFrame at h
  split at h
  next => exact ⟨_, _, _, _, _, (Option.some.inj h).symm⟩
  next =>
    obtain ⟨received, -, h⟩ := bind_eq_some_iff.mp h
    cases received with
    | none => exact ⟨_, _, _, _, _, (Option.some.inj h).symm⟩
    | some r =>
      obtain ⟨isOurs, -, h⟩ := bind_eq_some_iff.mp h
      split at h
      · obtain ⟨request, -, h⟩ := bind_eq_some_iff.mp h
        obtain ⟨ackPending, ackSeq, ackTimer, hrequest⟩ := requestAck_changes r.vtime request s
        rw [hrequest] at h
        obtain ⟨rxQueue, rxTimer, rfl⟩ := enqueue_changes h
        exact ⟨_, _, _, _, _, rfl⟩
      · exact ⟨_, _, _, _, _, (Option.some.inj h).symm⟩

end Virtmcu.Ieee802154
