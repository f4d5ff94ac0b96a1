import Virtmcu.Foundations.Framing
import Virtmcu.Foundations.LittleEndian

/-! # Remote Port packets

The packets of the Remote Port protocol as the `remote-port` bridge writes and reads them: the
request for a bus access (`RpTransport::send_request`), the cut of the receive buffer into packets
(`run_rx_loop`) and what a packet causes (`handle_packet`). All numbers are big-endian. -/

namespace Virtmcu.CoSim

/-! ## Headers -/

/-- `RpCmd`. -/
inductive RpCmd
  | nop
  | hello
  | cfg
  | read
  | write
  | interrupt
  | sync
  | atsReq
  | atsInv
  deriving DecidableEq, Repr

/-- `cmd as u32`. -/
def RpCmd.toUInt32 : RpCmd → UInt32
  | .nop => 0
  | .hello => 1
  | .cfg => 2
  | .read => 3
  | .write => 4
  | .interrupt => 5
  | .sync => 6
  | .atsReq => 7
  | .atsInv => 8

/-- `RpPktHdr`. -/
structure RpPktHdr where
  cmd : UInt32
  len : UInt32
  id : UInt32
  flags : UInt32
  dev : UInt32
  deriving DecidableEq, Repr

/-- `size_of::<RpPktHdr>()`. -/
def hdrSize : ℕ := 20

/-- `RpPktHdr::pack_be`. -/
def RpPktHdr.packBe (hdr : RpPktHdr) : List UInt8 :=
  beBytes 4 hdr.cmd.toNat ++ beBytes 4 hdr.len.toNat ++ beBytes 4 hdr.id.toNat ++
    beBytes 4 hdr.flags.toNat ++ beBytes 4 hdr.dev.toNat

/-- The number in `width` bytes from `offset` on. -/
def beAt (data : List UInt8) (offset width : ℕ) : ℕ := beNat ((data.drop offset).take width)

/-- `RpPktHdr::from_be` of the bytes at the front. -/
def RpPktHdr.fromBe (data : List UInt8) : RpPktHdr where
  cmd := (beAt data 0 4).toUInt32
  len := (beAt data 4 4).toUInt32
  id := (beAt data 8 4).toUInt32
  flags := (beAt data 12 4).toUInt32
  dev := (beAt data 16 4).toUInt32

/-- The cut of the receive buffer: `pkt_len = size_of::<RpPktHdr>() + hdr.len`. -/
def rpFraming : Framing UInt8 where
  headerLen := hdrSize
  packetLen header := hdrSize + (RpPktHdr.fromBe header).len.toNat
  headerLen_pos := by decide

/-! ## Bus accesses -/

/-- `RpPktBusaccess`. -/
structure RpPktBusaccess where
  hdr : RpPktHdr
  timestamp : UInt64
  attributes : UInt64
  addr : UInt64
  len : UInt32
  width : UInt32
  streamWidth : UInt32
  masterId : UInt16
  deriving DecidableEq, Repr

/-- `size_of::<RpPktBusaccess>()`. -/
def busaccessSize : ℕ := 58

/-- `bus_hdr_len`. -/
def busHdrLen : ℕ := busaccessSize - hdrSize

/-- `RpPktBusaccess::pack_be`. -/
def RpPktBusaccess.packBe (pkt : RpPktBusaccess) : List UInt8 :=
  pkt.hdr.packBe ++ beBytes 8 pkt.timestamp.toNat ++ beBytes 8 pkt.attributes.toNat ++
    beBytes 8 pkt.addr.toNat ++ beBytes 4 pkt.len.toNat ++ beBytes 4 pkt.width.toNat ++
    beBytes 4 pkt.streamWidth.toNat ++ beBytes 2 pkt.masterId.toNat

/-- `RpPktBusaccess::from_be` of the bytes at the front. -/
def RpPktBusaccess.fromBe (data : List UInt8) : RpPktBusaccess where
  hdr := RpPktHdr.fromBe data
  timestamp := (beAt data 20 8).toUInt64
  attributes := (beAt data 28 8).toUInt64
  addr := (beAt data 36 8).toUInt64
  len := (beAt data 44 4).toUInt32
  width := (beAt data 48 4).toUInt32
  streamWidth := (beAt data 52 4).toUInt32
  masterId := (beAt data 56 2).toUInt16

/-- `RpRequest`. -/
structure RpRequest where
  cmd : RpCmd
  addr : UInt64
  size : UInt32
  data : Option (List UInt8)
  dataLen : UInt32
  deriving DecidableEq, Repr

/-- The packet that `send_request` builds. -/
def RpRequest.packet (req : RpRequest) (id : UInt32) : RpPktBusaccess where
  hdr := ⟨req.cmd.toUInt32, busHdrLen.toUInt32 + req.dataLen, id, 0, 0⟩
  timestamp := 0
  attributes := 0
  addr := req.addr
  len := req.size
  width := req.size
  streamWidth := req.size
  masterId := 0

/-- The bytes that `send_request` writes. -/
def RpRequest.bytes (req : RpRequest) (id : UInt32) : List UInt8 :=
  (req.packet id).packBe ++
    match req.data with
    | none => []
    | some data => data.take req.dataLen.toNat

/-! ## Received packets -/

/-- `RpResponse`. -/
structure RpResponse where
  pkt : RpPktBusaccess
  data : List UInt8
  deriving DecidableEq, Repr

/-- What `handle_packet` does with a packet. -/
inductive PacketEffect
  /-- `qemu_set_irq`. -/
  | setIrq (line : UInt32) (level : Bool)
  /-- `ctx.dispatch_response`. -/
  | dispatch (resp : RpResponse)
  | ignored
  deriving DecidableEq, Repr

/-- `size_of::<RpPktInterrupt>()`. -/
def interruptSize : ℕ := 41

/-- `resp_data`: up to eight bytes of payload, the rest zero. A longer payload is left out. -/
def respData (data : List UInt8) (payloadLen : ℕ) : List UInt8 :=
  if 0 < payloadLen ∧ payloadLen ≤ 8 then
    (data.drop busaccessSize).take payloadLen ++ List.replicate (8 - payloadLen) 0
  else List.replicate 8 0

/-- `RpTransport::handle_packet`. The identifier of the packet is not looked at. -/
def handlePacket (data : List UInt8) (hdr : RpPktHdr) : PacketEffect :=
  if hdr.cmd = RpCmd.interrupt.toUInt32 then
    if interruptSize ≤ data.length then
      let line := (beAt data 36 4).toUInt32
      if line < 32 then .setIrq line (beAt data 40 1 != 0) else .ignored
    else .ignored
  else if (hdr.cmd = RpCmd.read.toUInt32 ∨ hdr.cmd = RpCmd.write.toUInt32) ∧
      busaccessSize ≤ data.length then
    .dispatch ⟨RpPktBusaccess.fromBe data, respData data (hdr.len.toNat - busHdrLen)⟩
  else .ignored

/-- The response that a packet is taken for, if it is taken for one. -/
def responseOf (packet : List UInt8) : Option RpResponse :=
  match handlePacket packet (RpPktHdr.fromBe packet) with
  | .dispatch resp => some resp
  | _ => none

end Virtmcu.CoSim
