import Virtmcu.Comms.RxQueue
import Virtmcu.Devices.Frames
import Virtmcu.Foundations.ByteMemory

/-! # The FlexRay controller

The registers of `flexray`, its message RAM and its two timers. The guest reaches the RAM through two
buffers: a command in IBCR copies the input buffer WRDS into the RAM, a command in OBCR copies from the
RAM into the output buffer ORDS. The cycle timer publishes a frame for every slot that has a frame id; the
receive timer shows what was received in the input buffer. -/

namespace Virtmcu.FlexRay

open Devices Comms

/-- `FlexRayMsgHeader`. -/
structure MsgHeader where
  frameId : UInt16
  cycleCount : UInt8
  payloadLength : UInt8
  config : UInt32
  deriving DecidableEq, Repr

/-- The 64 words of a buffer. -/
abbrev Buffer := Fin 64 → UInt32

/-- `FlexRay` with its `FlexRayState`. -/
structure State where
  vrc : UInt32
  succ1 : UInt32
  succ2 : UInt32
  succ3 : UInt32
  ccrr : UInt32
  ccsv : UInt32
  /-- `gtuc1` to `gtuc11`. -/
  gtuc : Fin 11 → UInt32
  wrhs1 : UInt32
  wrhs2 : UInt32
  wrhs3 : UInt32
  wrds : Buffer
  ibcr : UInt32
  orhs1 : UInt32
  orhs2 : UInt32
  orhs3 : UInt32
  ords : Buffer
  obcr : UInt32
  msgRamHeaders : Fin 128 → MsgHeader
  /-- `msg_ram_data`, at the addresses below 8192. -/
  msgRamData : ByteMemory
  cycleTimer : Option ℕ
  rxTimer : Option ℕ
  /-- `rx_receiver`, which holds 100 packets. -/
  channel : List FlexRayFrame
  pendingPacket : Option FlexRayFrame
  currentCycle : ℕ
  /-- What was published. -/
  published : List FlexRayFrame

/-- `flexray_instance_init` and `flexray_init_internal` at time `now`. QEMU clears the object first. -/
def initial (now : ℕ) : State where
  vrc := 1
  succ1 := 0
  succ2 := 0
  succ3 := 0
  ccrr := 0
  ccsv := 0
  gtuc := fun _ => 0
  wrhs1 := 0
  wrhs2 := 0
  wrhs3 := 0
  wrds := fun _ => 0
  ibcr := 0
  orhs1 := 0
  orhs2 := 0
  orhs3 := 0
  ords := fun _ => 0
  obcr := 0
  msgRamHeaders := fun _ => ⟨0, 0, 0, 0⟩
  msgRamData := fun _ => 0
  cycleTimer := some (now + 5000000)
  rxTimer := none
  channel := []
  pendingPacket := none
  currentCycle := 0
  published := []

/-! ## Registers -/

inductive Register
  | vrc
  | succ1
  | succ2
  | succ3
  | gtuc (i : Fin 11)
  | ccrr
  | ccsv
  | wrhs1
  | wrhs2
  | wrhs3
  | wrds (i : Fin 64)
  | ibcr
  | orhs1
  | orhs2
  | orhs3
  | ords (i : Fin 64)
  | obcr
  | unhandled
  deriving DecidableEq, Repr

def registerAt (addr : ℕ) : Register :=
  if addr = 0x00 then .vrc
  else if addr = 0x04 then .succ1
  else if addr = 0x08 then .succ2
  else if addr = 0x0C then .succ3
  else if h : 0x10 ≤ addr ∧ addr ≤ 0x38 then .gtuc ⟨(addr - 0x10) / 4, by omega⟩
  else if addr = 0x80 then .ccrr
  else if addr = 0x84 then .ccsv
  else if addr = 0x400 then .wrhs1
  else if addr = 0x404 then .wrhs2
  else if addr = 0x408 then .wrhs3
  -- the range ends before the last four words of the buffer
  else if h : 0x410 ≤ addr ∧ addr ≤ 0x4FF then .wrds ⟨(addr - 0x410) / 4, by omega⟩
  else if addr = 0x500 then .ibcr
  else if addr = 0x600 then .orhs1
  else if addr = 0x604 then .orhs2
  else if addr = 0x608 then .orhs3
  else if h : 0x610 ≤ addr ∧ addr ≤ 0x6FF then .ords ⟨(addr - 0x610) / 4, by omega⟩
  else if addr = 0x700 then .obcr
  else .unhandled

/-- `flexray_read`. -/
def flexrayRead (addr : UInt64) (s : State) : UInt32 :=
  match registerAt addr.toNat with
  | .vrc => s.vrc
  | .succ1 => s.succ1
  | .succ2 => s.succ2
  | .succ3 => s.succ3
  | .gtuc i => s.gtuc i
  | .ccrr => s.ccrr
  | .ccsv => s.ccsv
  | .wrhs1 => s.wrhs1
  | .wrhs2 => s.wrhs2
  | .wrhs3 => s.wrhs3
  | .wrds i => s.wrds i
  | .ibcr => s.ibcr
  | .orhs1 => s.orhs1
  | .orhs2 => s.orhs2
  | .orhs3 => s.orhs3
  | .ords i => s.ords i
  | .obcr => s.obcr
  | .unhandled => 0

/-! ## Message RAM -/

/-- `(data & 0x7F) as usize`. -/
def slotOf (data : UInt64) : Fin 128 :=
  ⟨(data &&& 0x7F).toNat, by
    rw [UInt64.toNat_and]
    exact Nat.and_lt_two_pow data.toNat (by decide : (0x7F : UInt64).toNat < 2 ^ 7)⟩

/-- The words go into the RAM one after the other, as far as there is room. -/
def storeWords : (offset : ℕ) → List UInt32 → ByteMemory → ByteMemory
  | _, [], ram => ram
  | offset, word :: words, ram =>
      storeWords (offset + 4) words
        (if offset + 3 < 8192 then ram.write offset (leBytes 4 word.toNat) else ram)

/-- A write of IBCR. -/
def writeIbcr (data : UInt64) (s : State) : State :=
  let slot := slotOf data
  { s with
    ibcr := data.toUInt32
    msgRamHeaders := Function.update s.msgRamHeaders slot
      { s.msgRamHeaders slot with frameId := s.wrhs1.toUInt16, config := s.wrhs2 }
    msgRamData := storeWords (slot.val * 64) (List.ofFn s.wrds) s.msgRamData }

/-- The word at an address. -/
def loadWord (ram : ByteMemory) (offset : ℕ) : UInt32 := (leNat (ram.read offset 4)).toUInt32

/-- A write of OBCR. -/
def writeObcr (data : UInt64) (s : State) : State :=
  let slot := slotOf data
  { s with
    obcr := data.toUInt32
    orhs1 := (s.msgRamHeaders slot).frameId.toUInt32
    orhs2 := (s.msgRamHeaders slot).config
    orhs3 := 0
    ords := fun i =>
      if slot.val * 64 + i.val * 4 + 3 < 8192 then loadWord s.msgRamData (slot.val * 64 + i.val * 4)
      else s.ords i }

/-- `handle_command`. -/
def handleCommand (cmd : UInt32) (s : State) : State := if cmd = 0x01 then { s with ccsv := 0x2 } else s

/-- `flexray_write`. -/
def flexrayWrite (now : ℕ) (addr data : UInt64) (s : State) : State :=
  match registerAt addr.toNat with
  | .vrc =>
      -- the controller is enabled
      if data &&& 0x1 ≠ 0 then { s with vrc := data.toUInt32, cycleTimer := some (now + 5000000) }
      else { s with vrc := data.toUInt32 }
  | .succ1 => { s with succ1 := data.toUInt32 }
  | .succ2 => { s with succ2 := data.toUInt32 }
  | .succ3 => { s with succ3 := data.toUInt32 }
  | .gtuc i => { s with gtuc := Function.update s.gtuc i data.toUInt32 }
  | .ccrr => handleCommand data.toUInt32 { s with ccrr := data.toUInt32 }
  | .wrhs1 => { s with wrhs1 := data.toUInt32 }
  | .wrhs2 => { s with wrhs2 := data.toUInt32 }
  | .wrhs3 => { s with wrhs3 := data.toUInt32 }
  | .wrds i => { s with wrds := Function.update s.wrds i data.toUInt32 }
  | .ibcr => writeIbcr data s
  | .obcr => writeObcr data s
  | _ => s

/-! ## Timers -/

/-- `flexray_send_frame`. -/
def frameOf (now : ℕ) (s : State) (slot : Fin 128) : FlexRayFrame where
  deliveryVtimeNs := now.toUInt64
  frameId := (s.msgRamHeaders slot).frameId
  cycleCount := s.currentCycle.toUInt8
  channel := 0
  flags := 0
  data := some (s.msgRamData.read (slot.val * 64) 64)

/-- The slots that have a frame id. -/
def configuredSlots (s : State) : List (Fin 128) :=
  (List.finRange 128).filter fun slot => decide ((s.msgRamHeaders slot).frameId ≠ 0)

/-- `flexray_cycle_timer_cb`. -/
def flexrayCycleTimerCb (now : ℕ) (s : State) : State :=
  -- the frames carry the number of the next cycle
  let t := { s with currentCycle := s.currentCycle + 1 }
  { t with
    published := t.published ++ (configuredSlots t).map (frameOf now t)
    cycleTimer := some (now + 5000000) }

/-- The first word of a packet. -/
def dataWord (data : List UInt8) : UInt32 := if 4 ≤ data.length then (leNat (data.take 4)).toUInt32 else 0

/-- A packet whose time has come is shown in the input buffer, once for each slot with its frame id. -/
def receivePacket (s : State) (packet : FlexRayFrame) : State :=
  (List.finRange 128).foldl
    (fun s slot =>
      if (s.msgRamHeaders slot).frameId = packet.frameId then
        { s with wrhs3 := s.wrhs3 ||| 1, wrds := Function.update s.wrds 0 (dataWord (packet.data.getD [])) }
      else s) s

/-- The loop of `flexray_rx_timer_cb` over the packet that was put back and those in the channel. -/
def receivePackets (now : ℕ) : List FlexRayFrame → State → State
  | [], s => s
  | packet :: packets, s =>
      if packet.deliveryVtimeNs.toInt64.toInt ≤ now then receivePackets now packets (receivePacket s packet)
      else
        { s with
          pendingPacket := some packet
          channel := packets
          rxTimer := some (expiryOf packet.deliveryVtimeNs) }

/-- `flexray_rx_timer_cb`. -/
def flexrayRxTimerCb (now : ℕ) (s : State) : State :=
  receivePackets now (s.pendingPacket.toList ++ s.channel) { s with pendingPacket := none, channel := [] }

/-- The subscription callback, with a frame that could be read. While the channel is full it waits. -/
def subCallback (frame : FlexRayFrame) (s : State) : State :=
  if s.channel.length < 100 then { s with channel := s.channel ++ [frame], rxTimer := some 0 } else s

/-! ## Steps -/

inductive Event
  | read (addr : UInt64)
  | write (now : ℕ) (addr data : UInt64)
  | cycleTimer (now : ℕ)
  | rxTimer (now : ℕ)
  | frame (frame : FlexRayFrame)
  deriving DecidableEq, Repr

/-- An event, with the value that is read. A timer that is not due does not fire. -/
def step (s : State) : Event → State × Option UInt32
  | .read addr => (s, some (flexrayRead addr s))
  | .write now addr data => (flexrayWrite now addr data s, none)
  | .cycleTimer now =>
      (if isExpired s.cycleTimer now then flexrayCycleTimerCb now { s with cycleTimer := none } else s,
        none)
  | .rxTimer now =>
      (if isExpired s.rxTimer now then flexrayRxTimerCb now { s with rxTimer := none } else s, none)
  | .frame frame => (subCallback frame s, none)

end Virtmcu.FlexRay
