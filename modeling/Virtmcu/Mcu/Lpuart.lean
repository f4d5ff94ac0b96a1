import Virtmcu.Comms.RxQueue
import Virtmcu.Devices.Frames
import Virtmcu.Foundations.Flags
import Virtmcu.Foundations.Run

/-! # The LPUART of the S32K144

The registers of `s32k144-lpuart`, its two timer callbacks, the subscription callback and the reset. The
interrupt line is driven by `update_irqs` alone, from the registers CTRL, STAT and BAUD. Not everything
that changes these registers calls it: a read of DATA, a write of STAT or BAUD and the reset leave the
line as it is. The line follows the registers exactly as long as none of these changes what is pending
(`mirrors_iff`). -/

namespace Virtmcu.Mcu.Lpuart

open Devices Comms

/-! ## Bits of the registers -/

/-- `1 << n`. -/
def bit (n : UInt32) : UInt32 := (1 : UInt32) <<< n

def statLbkdif : UInt32 := bit 31
def statTdre : UInt32 := bit 23
def statTc : UInt32 := bit 22
def statRdrf : UInt32 := bit 21
def statIdle : UInt32 := bit 20
def statOr : UInt32 := bit 19
def statNf : UInt32 := bit 18
def statFe : UInt32 := bit 17
def statPf : UInt32 := bit 16

def ctrlTie : UInt32 := bit 23
def ctrlTcie : UInt32 := bit 22
def ctrlRie : UInt32 := bit 21
def ctrlIlie : UInt32 := bit 20
def ctrlTe : UInt32 := bit 19
def ctrlRe : UInt32 := bit 18
def ctrlSbk : UInt32 := bit 0

def baudLbkdie : UInt32 := bit 31
def baudLbkde : UInt32 := bit 24

/-! ## State -/

/-- `LinMessageType::Data` and `LinMessageType::Break`. -/
def linData : UInt8 := 0
def linBreak : UInt8 := 1

/-- `OrderedLinFrame`. -/
structure OrderedLinFrame where
  vtime : UInt64
  msgType : UInt8
  data : List UInt8
  deriving DecidableEq, Repr

/-- `Ord` of the frames: the earlier one first. The source turns the order around because `BinaryHeap`
pops the greatest. -/
def OrderedLinFrame.key (p : OrderedLinFrame) : ℕ := p.vtime.toNat

/-- `BinaryHeap` of frames. -/
abbrev LinHeap := PriorityQueue OrderedLinFrame OrderedLinFrame.key

/-- `LpuartState`. -/
structure State (H : LinHeap) where
  /-- The level of the interrupt line. -/
  irq : Bool
  baud : UInt32
  stat : UInt32
  ctrl : UInt32
  match_ : UInt32
  modir : UInt32
  fifo : UInt32
  water : UInt32
  rxBuffer : List UInt8
  txFifo : List UInt8
  txTimer : Option ℕ
  /-- `rx_receiver`. -/
  channel : List OrderedLinFrame
  /-- `local_heap`. -/
  heap : H.Carrier
  rxTimer : Option ℕ
  earliestVtime : UInt64
  /-- What was published. -/
  published : List LinFrame

variable {H : LinHeap}

/-- `lpuart_init_internal`. -/
def initial (H : LinHeap) : State H where
  irq := false
  baud := 0x0F000004
  stat := statTdre ||| statTc
  ctrl := 0
  match_ := 0
  modir := 0
  fifo := 0
  water := 0
  rxBuffer := []
  txFifo := []
  txTimer := none
  channel := []
  heap := H.empty
  rxTimer := none
  earliestVtime := maxVtime
  published := []

/-- The condition that `update_irqs` computes. -/
def isPending (ctrl stat baud : UInt32) : Bool :=
  (hasBit ctrl ctrlTie && hasBit stat statTdre) ||
  (hasBit ctrl ctrlTcie && hasBit stat statTc) ||
  (hasBit ctrl ctrlRie && hasBit stat statRdrf) ||
  (hasBit ctrl ctrlIlie && hasBit stat statIdle) ||
  (hasBit baud baudLbkdie && hasBit stat statLbkdif)

def State.pending (s : State H) : Bool := isPending s.ctrl s.stat s.baud

/-! Its parts, by what raises them. -/

def State.txPending (s : State H) : Bool :=
  (hasBit s.ctrl ctrlTie && hasBit s.stat statTdre) || (hasBit s.ctrl ctrlTcie && hasBit s.stat statTc)

def State.rxPending (s : State H) : Bool := hasBit s.ctrl ctrlRie && hasBit s.stat statRdrf

def State.idlePending (s : State H) : Bool := hasBit s.ctrl ctrlIlie && hasBit s.stat statIdle

def State.breakPending (s : State H) : Bool := hasBit s.baud baudLbkdie && hasBit s.stat statLbkdif

theorem State.pending_eq (s : State H) :
    s.pending = (s.txPending || s.rxPending || s.idlePending || s.breakPending) := rfl

def updateIrqs (s : State H) : State H := { s with irq := s.pending }

def sendLinMsg (now : ℕ) (msgType : UInt8) (data : List UInt8) (s : State H) : State H :=
  { s with published := s.published ++ [⟨now.toUInt64, msgType, some data⟩] }

/-- `calculate_baud_delay_ns`. -/
def calculateBaudDelayNs (baudReg : UInt32) : ℕ :=
  let sbr := (baudReg &&& 0x1FFF).toNat
  if sbr = 0 then 86800
  else
    let osr := ((baudReg >>> 24) &&& 0x1F).toNat + 1
    let baudRate := 48000000 / (osr * sbr)
    if baudRate = 0 then 86800 else 1000000000 / baudRate * 10

/-! ## Register accesses -/

/-- The registers by their offsets. -/
inductive Register
  | verid
  | param
  | global
  | baud
  | stat
  | ctrl
  | data
  | match_
  | modir
  | fifo
  | water
  | unhandled
  deriving DecidableEq, Repr

def registerAt (offset : UInt64) : Register :=
  match offset.toNat with
  | 0x00 => .verid
  | 0x04 => .param
  | 0x08 => .global
  | 0x0C => .global
  | 0x10 => .baud
  | 0x14 => .stat
  | 0x18 => .ctrl
  | 0x1C => .data
  | 0x20 => .match_
  | 0x24 => .modir
  | 0x28 => .fifo
  | 0x2C => .water
  | _ => .unhandled

/-- A read of DATA: the next byte, and without a further one RDRF is cleared. -/
def readData (s : State H) : UInt32 × State H :=
  match s.rxBuffer with
  | [] => (0, s)
  | byte :: rest =>
      (byte.toUInt32,
        { s with
          rxBuffer := rest
          stat := if rest = [] then s.stat &&& ~~~statRdrf else s.stat })

/-- `lpuart_read`. -/
def lpuartRead (offset : UInt64) (s : State H) : UInt32 × State H :=
  match registerAt offset with
  | .verid => (0x04010001, s)
  | .param => (0x00020202, s)
  | .global => (0, s)
  | .baud => (s.baud, s)
  | .stat => (s.stat, s)
  | .ctrl => (s.ctrl, s)
  | .data => readData s
  | .match_ => (s.match_, s)
  | .modir => (s.modir, s)
  | .fifo => (s.fifo, s)
  | .water => (s.water, s)
  | .unhandled => (0, s)

/-- A write of CTRL: the break is sent when SBK goes up. -/
def writeCtrl (now : ℕ) (val : UInt32) (s : State H) : State H :=
  let t := { s with ctrl := val }
  updateIrqs
    (if hasBit val ctrlSbk && !hasBit s.ctrl ctrlSbk then sendLinMsg now linBreak [] t else t)

/-- A write of DATA while the transmitter is on. The clock is an `i64`; with the delay added it stays below
`2^63`. -/
def writeData (now : ℕ) (byte : UInt8) (s : State H) : State H :=
  let t := updateIrqs
    { s with
      -- a byte that does not fit is lost, and the status is cleared all the same
      txFifo := if s.txFifo.length < 4096 then s.txFifo ++ [byte] else s.txFifo
      stat := s.stat &&& ~~~(statTc ||| statTdre) }
  if s.txFifo = [] then { t with txTimer := some (now + calculateBaudDelayNs t.baud) } else t

/-- The flags that a write of STAT clears. -/
def statW1c : UInt32 := statLbkdif ||| statOr ||| statNf ||| statFe ||| statPf ||| statIdle

/-- `lpuart_write`. -/
def lpuartWrite (now : ℕ) (offset value : UInt64) (s : State H) : State H :=
  let val := value.toUInt32
  match registerAt offset with
  | .baud => { s with baud := val }
  | .stat => { s with stat := s.stat &&& ~~~(val &&& statW1c) }
  | .ctrl => writeCtrl now val s
  | .data => if hasBit s.ctrl ctrlTe then writeData now (val &&& 0xFF).toUInt8 s else s
  | .match_ => { s with match_ := val }
  | .modir => { s with modir := val }
  | .fifo => { s with fifo := val }
  | .water => { s with water := val }
  | _ => s

/-! ## Callbacks -/

/-- The first byte of the transmit FIFO is sent. -/
def sendByte (now : ℕ) (s : State H) : State H :=
  match s.txFifo with
  | [] => s
  | byte :: rest => sendLinMsg now linData [byte] { s with txFifo := rest }

/-- `lpuart_tx_timer_cb`, with the clock bounded as in `writeData`. -/
def lpuartTxTimerCb (now : ℕ) (s : State H) : State H :=
  let t := sendByte now s
  if t.txFifo = [] then updateIrqs { t with stat := t.stat ||| (statTc ||| statTdre) }
  else { t with txTimer := some (now + calculateBaudDelayNs t.baud) }

/-- A byte that was received; the buffer holds four. -/
def receiveByte (s : State H) (byte : UInt8) : State H :=
  if 4 ≤ s.rxBuffer.length then { s with stat := s.stat ||| statOr }
  else { s with rxBuffer := s.rxBuffer ++ [byte] }

/-- A frame whose time has come. -/
def receiveFrame (s : State H) (p : OrderedLinFrame) : State H :=
  -- a break is seen only with break detection on, and data only with the receiver on
  if p.msgType = linBreak ∧ hasBit s.baud baudLbkde = true then
    { s with stat := s.stat ||| statLbkdif }
  else if p.msgType = linData ∧ hasBit s.ctrl ctrlRe = true then
    let t := p.data.foldl receiveByte s
    if t.rxBuffer ≠ [] then { t with stat := t.stat ||| statRdrf } else t
  else s

/-- All that is in the channel goes into the heap. -/
def State.collect (s : State H) : State H :=
  { s with channel := [], heap := H.pushAll s.channel s.heap }

/-- The frames that are due, in their order. -/
def State.receiveDue (now : ℕ) (s : State H) : State H :=
  let (due, rest) :=
    H.popWhile (fun p => decide (p.vtime.toNat ≤ now)) (H.items s.heap).card s.heap
  due.foldl receiveFrame { s with heap := rest }

/-- `lpuart_rx_timer_cb`. -/
def lpuartRxTimerCb (now : ℕ) (s : State H) : State H :=
  let t := updateIrqs (s.collect.receiveDue now)
  match H.peek t.heap with
  | some p => { t with earliestVtime := p.vtime, rxTimer := some (expiryOf p.vtime) }
  | none => { t with earliestVtime := maxVtime }

/-- The callback of `create_subscription`. -/
def subCallback (fb : Flatbuffers) (data : List UInt8) (s : State H) : State H :=
  match fb.linFrame data with
  | none => s
  | some frame =>
      let t := { s with
        channel := s.channel ++ [⟨frame.deliveryVtimeNs, frame.type, frame.data.getD []⟩] }
      if frame.deliveryVtimeNs < s.earliestVtime then
        { t with
          earliestVtime := frame.deliveryVtimeNs
          rxTimer := some (expiryOf frame.deliveryVtimeNs) }
      else t

/-- `lpuart_reset`. -/
def lpuartReset (s : State H) : State H :=
  { s with
    baud := 0x0F000004
    stat := 0xC0000000
    ctrl := 0
    match_ := 0
    modir := 0
    fifo := 0x00C00011
    water := 0
    rxBuffer := []
    txFifo := []
    txTimer := none
    rxTimer := none
    earliestVtime := maxVtime }

/-! ## Steps -/

inductive Event
  | read (offset : UInt64)
  | write (now : ℕ) (offset value : UInt64)
  | txTimer (now : ℕ)
  | rxTimer (now : ℕ)
  /-- A message arrives. -/
  | message (data : List UInt8)
  | reset
  deriving DecidableEq, Repr

/-- An event, with the value that is read. A timer that is not due does not fire. -/
def step (fb : Flatbuffers) (s : State H) : Event → State H × Option UInt32
  | .read offset => ((lpuartRead offset s).2, some (lpuartRead offset s).1)
  | .write now offset value => (lpuartWrite now offset value s, none)
  | .txTimer now =>
      (if isExpired s.txTimer now then lpuartTxTimerCb now { s with txTimer := none } else s, none)
  | .rxTimer now =>
      (if isExpired s.rxTimer now then lpuartRxTimerCb now { s with rxTimer := none } else s, none)
  | .message data => (subCallback fb data s, none)
  | .reset => (lpuartReset s, none)

/-! ## The interrupt line -/

/-- The line follows the registers. -/
def State.Mirrors (s : State H) : Prop := s.irq = s.pending

instance (s : State H) : Decidable s.Mirrors := inferInstanceAs (Decidable (_ = _))

/-- What changes registers behind the back of `update_irqs`. -/
def Event.isSilent : Event → Bool
  | .read offset => decide (registerAt offset = .data)
  | .write _ offset _ => decide (registerAt offset = .stat ∨ registerAt offset = .baud)
  | .reset => true
  | _ => false

/-- The line and the registers that it depends on are as before. -/
structure Keeps (s t : State H) : Prop where
  irq : t.irq = s.irq
  pending : t.pending = s.pending

theorem Keeps.refl (s : State H) : Keeps s s := ⟨rfl, rfl⟩

theorem Keeps.mirrors {s t : State H} (h : Keeps s t) (hs : s.Mirrors) : t.Mirrors :=
  h.irq.trans (hs.trans h.pending.symm)

theorem mirrors_updateIrqs (s : State H) : (updateIrqs s).Mirrors := rfl

theorem mirrors_writeCtrl (now : ℕ) (val : UInt32) (s : State H) : (writeCtrl now val s).Mirrors :=
  mirrors_updateIrqs _

theorem mirrors_writeData (now : ℕ) (byte : UInt8) (s : State H) : (writeData now byte s).Mirrors := by
  unfold writeData
  dsimp only
  split
  · exact mirrors_updateIrqs _
  · exact mirrors_updateIrqs _

theorem keeps_sendByte (now : ℕ) (s : State H) : Keeps s (sendByte now s) := by
  unfold sendByte
  cases s.txFifo with
  | nil => exact Keeps.refl s
  | cons byte rest => exact ⟨rfl, rfl⟩

/-- The transmit callback changes STAT only when it calls `update_irqs`. -/
theorem mirrors_lpuartTxTimerCb (now : ℕ) {s : State H} (hs : s.Mirrors) :
    (lpuartTxTimerCb now s).Mirrors := by
  unfold lpuartTxTimerCb
  dsimp only
  split
  · exact mirrors_updateIrqs _
  · exact (keeps_sendByte now s).mirrors hs

theorem mirrors_lpuartRxTimerCb (now : ℕ) (s : State H) : (lpuartRxTimerCb now s).Mirrors := by
  unfold lpuartRxTimerCb
  dsimp only
  split
  · exact mirrors_updateIrqs _
  · exact mirrors_updateIrqs _

theorem keeps_subCallback (fb : Flatbuffers) (data : List UInt8) (s : State H) :
    Keeps s (subCallback fb data s) := by
  unfold subCallback
  cases fb.linFrame data with
  | none => exact Keeps.refl s
  | some frame =>
    dsimp only
    split
    · exact ⟨rfl, rfl⟩
    · exact ⟨rfl, rfl⟩

/-- Writes that do not touch the three registers, or are followed by `update_irqs`. -/
theorem mirrors_lpuartWrite (now : ℕ) {offset : UInt64} (value : UInt64) {s : State H} (hs : s.Mirrors)
    (hstat : registerAt offset ≠ .stat) (hbaud : registerAt offset ≠ .baud) :
    (lpuartWrite now offset value s).Mirrors := by
  unfold lpuartWrite
  dsimp only
  cases hreg : registerAt offset with
  | stat => exact absurd hreg hstat
  | baud => exact absurd hreg hbaud
  | ctrl => exact mirrors_writeCtrl now _ s
  | data =>
    dsimp only
    split
    · exact mirrors_writeData now _ s
    · exact hs
  | _ => exact hs

/-- A read of anything but DATA changes nothing. -/
theorem lpuartRead_snd {offset : UInt64} (s : State H) (h : registerAt offset ≠ .data) :
    (lpuartRead offset s).2 = s := by
  unfold lpuartRead
  cases hreg : registerAt offset with
  | data => exact absurd hreg h
  | _ => rfl

/-- **What is not silent keeps the line right.** -/
theorem mirrors_step (fb : Flatbuffers) {s : State H} {event : Event} (hs : s.Mirrors)
    (hevent : event.isSilent = false) : (step fb s event).1.Mirrors := by
  cases event with
  | read offset =>
    have hreg : registerAt offset ≠ .data := of_decide_eq_false hevent
    show (lpuartRead offset s).2.Mirrors
    rw [lpuartRead_snd s hreg]
    exact hs
  | write now offset value =>
    have hreg := not_or.mp (of_decide_eq_false hevent)
    exact mirrors_lpuartWrite now value hs hreg.1 hreg.2
  | txTimer now =>
    show (if isExpired s.txTimer now then lpuartTxTimerCb now { s with txTimer := none } else s).Mirrors
    split
    · exact mirrors_lpuartTxTimerCb now hs
    · exact hs
  | rxTimer now =>
    show (if isExpired s.rxTimer now then lpuartRxTimerCb now { s with rxTimer := none } else s).Mirrors
    split
    · exact mirrors_lpuartRxTimerCb now _
    · exact hs
  | message data => exact (keeps_subCallback fb data s).mirrors hs
  | reset => cases hevent

theorem irq_readData (s : State H) : (readData s).2.irq = s.irq := by
  unfold readData
  cases s.rxBuffer <;> rfl

/-- What is silent leaves the line alone. -/
theorem irq_step (fb : Flatbuffers) (s : State H) {event : Event} (hevent : event.isSilent = true) :
    (step fb s event).1.irq = s.irq := by
  cases event with
  | read offset =>
    have hreg : registerAt offset = .data := of_decide_eq_true hevent
    simp only [step, lpuartRead, hreg, irq_readData]
  | write now offset value =>
    have hreg : registerAt offset = .stat ∨ registerAt offset = .baud := of_decide_eq_true hevent
    rcases hreg with hreg | hreg <;> simp only [step, lpuartWrite, hreg]
  | txTimer now | rxTimer now | message data => cases hevent
  | reset => rfl

/-- What is pending after a silent event was pending before: a byte that is left alone in the buffer, the idle
flag and the break are not all there is when they go, a new BAUD does not turn the interrupt for a break that
was seen on or off, and nothing is pending at a reset. -/
def Harmless (s : State H) : Event → Prop
  | .read offset => registerAt offset = .data → s.rxBuffer.length = 1 → s.rxPending = true →
      (s.txPending || s.idlePending || s.breakPending) = true
  | .write _ offset value =>
      (registerAt offset = .stat → (s.idlePending || s.breakPending) = true →
        (s.txPending || s.rxPending || (s.idlePending && !hasBit value.toUInt32 statIdle) ||
          (s.breakPending && !hasBit value.toUInt32 statLbkdif)) = true) ∧
      (registerAt offset = .baud → hasBit s.stat statLbkdif = true →
        (s.txPending || s.rxPending || s.idlePending) = false →
          hasBit value.toUInt32 baudLbkdie = hasBit s.baud baudLbkdie)
  | .reset => s.pending = false
  | _ => True

theorem pending_readData_iff (s : State H) : (readData s).2.pending = s.pending ↔
    (s.rxBuffer.length = 1 → s.rxPending = true →
      (s.txPending || s.idlePending || s.breakPending) = true) := by
  unfold readData
  match hbuffer : s.rxBuffer with
  | [] => exact iff_of_true rfl (by simp)
  | byte :: next :: rest => exact iff_of_true rfl (by simp)
  | [byte] =>
    simp only [if_true, State.pending_eq, State.txPending, State.rxPending, State.idlePending,
      State.breakPending, hasBit_clear_of_disjoint s.stat (show statRdrf &&& statTdre = 0 by decide),
      hasBit_clear_of_disjoint s.stat (show statRdrf &&& statTc = 0 by decide),
      hasBit_clear_of_disjoint s.stat (show statRdrf &&& statIdle = 0 by decide),
      hasBit_clear_of_disjoint s.stat (show statRdrf &&& statLbkdif = 0 by decide),
      hasBit_clear_of_covers s.stat (show statRdrf &&& statRdrf = statRdrf by decide)]
    grind

theorem pending_writeStat_iff (now : ℕ) {offset value : UInt64} (s : State H)
    (hreg : registerAt offset = .stat) : (lpuartWrite now offset value s).pending = s.pending ↔
      ((s.idlePending || s.breakPending) = true →
        (s.txPending || s.rxPending || (s.idlePending && !hasBit value.toUInt32 statIdle) ||
          (s.breakPending && !hasBit value.toUInt32 statLbkdif)) = true) := by
  have hkept {mask : UInt32} (hmask : statW1c &&& mask = 0) :
      hasBit (s.stat &&& ~~~(value.toUInt32 &&& statW1c)) mask = hasBit s.stat mask :=
    hasBit_clear_of_disjoint s.stat (by rw [UInt32.and_assoc, hmask, UInt32.and_zero])
  simp only [lpuartWrite, hreg, State.pending_eq, State.txPending, State.rxPending, State.idlePending,
    State.breakPending, hkept (show statW1c &&& statTdre = 0 by decide),
    hkept (show statW1c &&& statTc = 0 by decide), hkept (show statW1c &&& statRdrf = 0 by decide),
    hasBit_clear_written (i := 20) (show statIdle.toBitVec = _ by decide) (by decide : statW1c &&& _ = _),
    hasBit_clear_written (i := 31) (show statLbkdif.toBitVec = _ by decide) (by decide : statW1c &&& _ = _)]
  grind

theorem pending_writeBaud_iff (now : ℕ) {offset value : UInt64} (s : State H)
    (hreg : registerAt offset = .baud) : (lpuartWrite now offset value s).pending = s.pending ↔
      (hasBit s.stat statLbkdif = true → (s.txPending || s.rxPending || s.idlePending) = false →
        hasBit value.toUInt32 baudLbkdie = hasBit s.baud baudLbkdie) := by
  simp only [lpuartWrite, hreg, State.pending_eq, State.txPending, State.rxPending, State.idlePending,
    State.breakPending]
  grind

/-- What a silent event does to what is pending. -/
theorem pending_step_iff (fb : Flatbuffers) (s : State H) {event : Event} (hevent : event.isSilent = true) :
    (step fb s event).1.pending = s.pending ↔ Harmless s event := by
  cases event with
  | read offset =>
    have hreg : registerAt offset = .data := of_decide_eq_true hevent
    have hread : (lpuartRead offset s).2 = (readData s).2 := by simp only [lpuartRead, hreg]
    change (lpuartRead offset s).2.pending = s.pending ↔ (registerAt offset = .data → _)
    rw [hread, pending_readData_iff]
    exact ⟨fun h _ => h, fun h => h hreg⟩
  | write now offset value =>
    change (lpuartWrite now offset value s).pending = s.pending ↔
      (registerAt offset = .stat → _) ∧ (registerAt offset = .baud → _)
    have hreg : registerAt offset = .stat ∨ registerAt offset = .baud := of_decide_eq_true hevent
    rcases hreg with hreg | hreg
    · rw [pending_writeStat_iff now s hreg]
      refine ⟨fun h => ⟨fun _ => h, fun hbaud => ?_⟩, fun h => h.1 hreg⟩
      cases hreg.symm.trans hbaud
    · rw [pending_writeBaud_iff now s hreg]
      refine ⟨fun h => ⟨fun hstat => ?_, fun _ => h⟩, fun h => h.2 hreg⟩
      cases hreg.symm.trans hstat
  | txTimer now | rxTimer now | message data => cases hevent
  | reset =>
    have hreset : (lpuartReset s).pending = false := by
      show isPending 0 0xC0000000 0x0F000004 = false
      decide
    change (lpuartReset s).pending = s.pending ↔ s.pending = false
    rw [hreset]
    exact eq_comm

theorem harmless_of_not_silent {s : State H} {event : Event} (hevent : event.isSilent = false) :
    Harmless s event := by
  cases event with
  | read offset => exact fun hreg => absurd hreg (of_decide_eq_false hevent)
  | write now offset value =>
    have hreg := not_or.mp (of_decide_eq_false hevent)
    exact ⟨fun h => absurd h hreg.1, fun h => absurd h hreg.2⟩
  | reset => cases hevent
  | _ => trivial

theorem mirrors_step_iff (fb : Flatbuffers) (s : State H) (event : Event) (hs : s.Mirrors) :
    (step fb s event).1.Mirrors ↔ Harmless s event := by
  cases hevent : event.isSilent with
  | false => exact iff_of_true (mirrors_step fb hs hevent) (harmless_of_not_silent hevent)
  | true =>
    unfold State.Mirrors at hs ⊢
    rw [irq_step fb s hevent, hs, ← pending_step_iff fb s hevent, eq_comm]

theorem mirrors_initial (H : LinHeap) : (initial H).Mirrors := by
  show false = isPending 0 (statTdre ||| statTc) 0x0F000004
  decide

/-- **When the interrupt line follows the registers**: exactly if every read of DATA, write of STAT or BAUD,
and reset finds the registers so that it does not matter. -/
theorem mirrors_iff (fb : Flatbuffers) (events : List Event) :
    (∀ entry ∈ entries (step fb) (initial H) events, entry.after.Mirrors) ↔
      ∀ entry ∈ entries (step fb) (initial H) events, Harmless entry.before entry.input :=
  forall_entries_iff (step fb) (I := fun _ => True)
    (Q := fun entry => Harmless entry.before entry.input) (fun _ _ _ => trivial)
    (fun s event _ hs => mirrors_step_iff fb s event hs) trivial (mirrors_initial H) events

/-! ## A line that stays up -/

/-- The guest turns the receiver and its interrupt on, and a byte arrives. -/
def receiving : List Event :=
  [.write 0 0x18 0x240000, .message (leBytes 8 100 ++ [0, 65]), .rxTimer 100]

/-- A heap that is a list. -/
def plainHeap : LinHeap := listQueue OrderedLinFrame.key

/-- **The guest reads the byte and the line stays up**: RDRF is cleared, and nothing is pending. After a
reset it still is. -/
theorem not_mirrors_read : let run := finalState (step plainFlatbuffers) (initial plainHeap)
    (run receiving).irq = true ∧
      (run (receiving ++ [.read 0x1C])).pending = false ∧
      (run (receiving ++ [.read 0x1C])).irq = true ∧
      ¬ (run (receiving ++ [.read 0x1C])).Mirrors ∧
      ¬ (run (receiving ++ [.read 0x1C, .reset])).Mirrors := by
  decide +kernel

end Virtmcu.Mcu.Lpuart
