import Virtmcu.DeterministicCoordinator.Wire

/-! # Frames of the devices

What the device crates put on their TX topics and what they read on their RX topics. A sender embeds
the virtual time of the transmission in its frame; how depends on the device: in a `ZenohFrameHeader`
(network card, character device, SystemC adapter), in an `Rf802154Header` (radio), or in the flatbuffer
that is the frame (LIN, CAN FD, FlexRay). -/

namespace Virtmcu.Devices

open DeterministicCoordinator List Option

/-! ## Flatbuffers -/

/-- The table `Rf802154Header`. -/
structure Rf802154Header where
  deliveryVtimeNs : UInt64
  sequenceNumber : UInt64
  size : UInt32
  rssi : Int8
  lqi : UInt8
  deriving DecidableEq, Repr

/-- The table `LinFrame`. -/
structure LinFrame where
  deliveryVtimeNs : UInt64
  type : UInt8
  data : Option (List UInt8)
  deriving DecidableEq, Repr

/-- The table `CanFdFrame`. -/
structure CanFdFrame where
  deliveryVtimeNs : UInt64
  sequenceNumber : UInt64
  canId : UInt32
  flags : UInt32
  data : Option (List UInt8)
  deriving DecidableEq, Repr

/-- The table `FlexRayFrame`. -/
structure FlexRayFrame where
  deliveryVtimeNs : UInt64
  frameId : UInt16
  cycleCount : UInt8
  channel : UInt8
  flags : UInt16
  data : Option (List UInt8)
  deriving DecidableEq, Repr

/-- The flatbuffers crate, as far as frames need it: readers for the four tables and a builder for the
radio header, with the law that the readers read back what the builder wrote. -/
structure Flatbuffers where
  rf802154Builder : Rf802154HeaderBuilder
  /-- `flatbuffers::root::<Rf802154Header>`. -/
  rf802154Header : List UInt8 → Option Rf802154Header
  /-- `size_prefixed_root_as_rf_802154_header`. -/
  sizePrefixedRf802154Header : List UInt8 → Option Rf802154Header
  /-- `root_as_lin_frame`. -/
  linFrame : List UInt8 → Option LinFrame
  /-- `flatbuffers::root::<CanFdFrame>`. -/
  canFdFrame : List UInt8 → Option CanFdFrame
  /-- `flatbuffers::root::<FlexRayFrame>`. -/
  flexRayFrame : List UInt8 → Option FlexRayFrame
  /-- The builder writes the length of a small table and the table. -/
  rf802154_roundTrip : ∀ vtime seq size rssi lqi, ∃ table,
    0 < table.length ∧ table.length ≤ 1024 ∧
    rf802154Builder vtime seq size rssi lqi = leBytes 4 table.length ++ table ∧
    rf802154Header table = some ⟨vtime, seq, size, rssi, lqi⟩ ∧
    ∀ rest, sizePrefixedRf802154Header (rf802154Builder vtime seq size rssi lqi ++ rest) =
      some ⟨vtime, seq, size, rssi, lqi⟩

/-! ## Frames -/

/-- The devices that exchange frames. The SPI device queries its peer and has no frames of its own; for
SPI topics the frame functions of `virtmcu-api` stand in. -/
inductive Device
  | netdev
  | chardev
  | spi
  | systemc
  | radio
  | lpuart
  | canHost
  | flexRay
  deriving DecidableEq, Repr

/-- The protocol a frame of the device belongs to. A character device carries a UART or a Bluetooth
HCI; the coordinator treats SystemC frames as Ethernet. -/
def Device.Speaks : Device → Protocol → Prop
  | .netdev, p => p = .ethernet
  | .chardev, p => p = .uart ∨ p = .rfHci
  | .spi, p => p = .spi
  | .systemc, p => p = .ethernet
  | .radio, p => p = .rf802154
  | .lpuart, p => p = .lin
  | .canHost, p => p = .canFd
  | .flexRay, p => p = .flexRay

/-- What a frame is about, apart from time and sequence number. -/
inductive Content
  | bytes (data : List UInt8)
  | canLite (canId canData : UInt32)
  | lin (msgType : UInt8) (data : List UInt8)
  | can (canId : UInt32) (flags : UInt8) (data : List UInt8)
  | flexRay (frameId : UInt16) (cycleCount channel : UInt8) (flags : UInt16) (data : List UInt8)
  deriving DecidableEq, Repr

/-- A frame as a device hands it on: SystemC, LIN and FlexRay receivers keep no sequence number. -/
structure Frame where
  vtime : UInt64
  sequence : Option UInt64
  content : Content
  deriving DecidableEq, Repr

/-! ## Receivers -/

/-- The receive callback of `netdev`: everything behind the header is data. -/
def netdevRx (data : List UInt8) : Option Frame :=
  (ZenohFrameHeader.unpackSlice data).map fun header =>
    ⟨header.deliveryVtimeNs, some header.sequenceNumber, .bytes (data.drop zenohFrameHeaderSize)⟩

/-- The receive callback of `chardev`: the header says how much of the rest is data. -/
def chardevRx (data : List UInt8) : Option Frame :=
  (ZenohFrameHeader.unpackSlice data).map fun header =>
    ⟨header.deliveryVtimeNs, some header.sequenceNumber,
      .bytes ((data.drop zenohFrameHeaderSize).take header.size.toNat)⟩

/-- `decode_frame` of `virtmcu-api`. -/
def decodeFrame (data : List UInt8) : Option (ZenohFrameHeader × List UInt8) :=
  (ZenohFrameHeader.unpackSlice data).map fun header => (header, data.drop zenohFrameHeaderSize)

/-- `on_zenoh_rx` of the SystemC adapter: a header and two words. -/
def systemcRx (data : List UInt8) : Option Frame :=
  if data.length < zenohFrameHeaderSize + 8 then none
  else (ZenohFrameHeader.unpackSlice data).map fun header =>
    ⟨header.deliveryVtimeNs, none,
      .canLite (leNat ((data.drop 24).take 4)).toUInt32 (leNat ((data.drop 28).take 4)).toUInt32⟩

/-- `on_rx_frame` of the radio up to its address filter: the frame and its signal strength. -/
def onRxFrame (fb : Flatbuffers) (data : List UInt8) : Option (Frame × Int8) :=
  if data.length < 4 then none
  else (fb.sizePrefixedRf802154Header data).bind fun header =>
    let size := header.size.toNat
    let hdrLen := 4 + leNat (data.take 4)
    if 128 < size ∨ data.length < hdrLen + size then none
    else some (⟨header.deliveryVtimeNs, some header.sequenceNumber,
      .bytes ((data.drop hdrLen).take size)⟩, header.rssi)

/-- The subscription callback of the LPUART. -/
def lpuartRx (fb : Flatbuffers) (data : List UInt8) : Option Frame :=
  (fb.linFrame data).map fun frame =>
    ⟨frame.deliveryVtimeNs, none, .lin frame.type (frame.data.getD [])⟩

/-- The subscription callback of the CAN host: at most 64 bytes, and the low byte of the flags. -/
def canHostRx (fb : Flatbuffers) (data : List UInt8) : Option Frame :=
  (fb.canFdFrame data).map fun frame =>
    ⟨frame.deliveryVtimeNs, some frame.sequenceNumber,
      .can frame.canId frame.flags.toUInt8 ((frame.data.getD []).take 64)⟩

/-- The subscription callback of FlexRay; a payload it cannot read ends the process. -/
def flexRayRx (fb : Flatbuffers) (data : List UInt8) : Option Frame :=
  (fb.flexRayFrame data).map fun frame =>
    ⟨frame.deliveryVtimeNs, none,
      .flexRay frame.frameId frame.cycleCount frame.channel frame.flags (frame.data.getD [])⟩

/-- The decoder of a device for what arrives on its RX topic. -/
def Device.decode (fb : Flatbuffers) : Device → List UInt8 → Option Frame
  | .netdev => netdevRx
  | .chardev => chardevRx
  | .spi => fun data => (decodeFrame data).map fun (header, rest) =>
      ⟨header.deliveryVtimeNs, some header.sequenceNumber, .bytes rest⟩
  | .systemc => systemcRx
  | .radio => fun data => (onRxFrame fb data).map Prod.fst
  | .lpuart => lpuartRx fb
  | .canHost => canHostRx fb
  | .flexRay => flexRayRx fb

/-! ## Senders -/

/-- The devices whose frame is a flatbuffer as a whole. -/
def Device.isFlatbuffer : Device → Bool
  | .lpuart | .canHost | .flexRay => true
  | _ => false

/-- `bytes` is a well-formed frame of the device, embedding what `frame` says. -/
inductive WellFormed (fb : Flatbuffers) : Device → Frame → List UInt8 → Prop
  /-- `start_tx_thread` of `netdev`, which refuses data too long for the size field. -/
  | netdev {vtime seq data} (hsize : data.length < 2 ^ 32) :
      WellFormed fb .netdev ⟨vtime, some seq, .bytes data⟩ (encodeFrame vtime seq data)
  /-- `send_packet` of `chardev`. -/
  | chardev {vtime seq data} (hsize : data.length < 2 ^ 32) :
      WellFormed fb .chardev ⟨vtime, some seq, .bytes data⟩ (encodeFrame vtime seq data)
  /-- `encode_frame` of `virtmcu-api`. -/
  | spi {vtime seq data} (hsize : data.length < 2 ^ 32) :
      WellFormed fb .spi ⟨vtime, some seq, .bytes data⟩ (encodeFrame vtime seq data)
  /-- `transmit` of the SystemC adapter. -/
  | systemc {vtime} {canId canData : UInt32} :
      WellFormed fb .systemc ⟨vtime, none, .canLite canId canData⟩
        (encodeFrame vtime 0 (leBytes 4 canId.toNat ++ leBytes 4 canData.toNat))
  /-- `tx_real` of the radio, whose FIFO holds 128 bytes. -/
  | radio {vtime seq data rssi lqi} (hsize : data.length ≤ 128) :
      WellFormed fb .radio ⟨vtime, some seq, .bytes data⟩
        (encodeRf802154Frame fb.rf802154Builder vtime seq data rssi lqi)
  /-- A flatbuffer that verifies. -/
  | flatbuffer {d frame bytes} (hd : d.isFlatbuffer = true) (hread : d.decode fb bytes = some frame) :
      WellFormed fb d frame bytes

/-- A well-formed frame on a TX topic. -/
structure TxFrame (fb : Flatbuffers) (d : Device) where
  bytes : List UInt8
  frame : Frame
  wellFormed : WellFormed fb d frame bytes

/-! ## What is sent is what is read -/

section

variable {fb : Flatbuffers} {vtime seq : UInt64} {data : List UInt8}

/-- A radio frame: the length of the header table, the table, the data. Coordinator and radio read the
same header in it. -/
theorem encodeRf802154Frame_eq (vtime seq : UInt64) (data : List UInt8) (rssi : Int8) (lqi : UInt8) :
    ∃ table : List UInt8, 0 < table.length ∧ table.length ≤ 1024 ∧
      encodeRf802154Frame fb.rf802154Builder vtime seq data rssi lqi =
        leBytes 4 table.length ++ (table ++ data) ∧
      fb.rf802154Header table = some ⟨vtime, seq, data.length.toUInt32, rssi, lqi⟩ ∧
      fb.sizePrefixedRf802154Header (encodeRf802154Frame fb.rf802154Builder vtime seq data rssi lqi) =
        some ⟨vtime, seq, data.length.toUInt32, rssi, lqi⟩ := by
  obtain ⟨table, hpos, hle, hbuilt, hread, hprefixed⟩ :=
    fb.rf802154_roundTrip vtime seq data.length.toUInt32 rssi lqi
  refine ⟨table, hpos, hle, ?_, hread, hprefixed data⟩
  rw [encodeRf802154Frame, hbuilt, append_assoc]

theorem toNat_length_toUInt32 (h : data.length < 2 ^ 32) : data.length.toUInt32.toNat = data.length :=
  Nat.mod_eq_of_lt h

/-- The radio reads what a radio sent. -/
theorem onRxFrame_encodeRf802154Frame (hsize : data.length ≤ 128) (rssi : Int8) (lqi : UInt8) :
    onRxFrame fb (encodeRf802154Frame fb.rf802154Builder vtime seq data rssi lqi) =
      some (⟨vtime, some seq, .bytes data⟩, rssi) := by
  obtain ⟨table, -, hle, hframe, -, hread⟩ :=
    @encodeRf802154Frame_eq fb vtime seq data rssi lqi
  have hlen : leNat (leBytes 4 table.length) = table.length := leNat_leBytes_of_lt (by omega)
  have hdrop : (leBytes 4 table.length ++ (table ++ data)).drop (4 + table.length) = data := by
    rw [← drop_drop, drop_leBytes_append, drop_left]
  have hfits : ¬ (128 < data.length ∨
      (leBytes 4 table.length ++ (table ++ data)).length < 4 + table.length + data.length) := by
    simp only [length_append, length_leBytes]
    omega
  rw [onRxFrame, if_neg (by simp [hframe]), hread, bind_some]
  simp only [toNat_length_toUInt32 (by omega : data.length < 2 ^ 32)]
  rw [hframe, take_leBytes_append, hlen, if_neg hfits, hdrop, take_length]

/-- **Every device reads what its like sent.** -/
theorem WellFormed.decode {d : Device} {frame : Frame} {bytes : List UInt8}
    (h : WellFormed fb d frame bytes) : d.decode fb bytes = some frame := by
  cases h with
  | netdev hsize =>
    rw [Device.decode, netdevRx, unpackSlice_encodeFrame, zenohFrameHeaderSize, drop_encodeFrame]
    rfl
  | chardev hsize =>
    rw [Device.decode, chardevRx, unpackSlice_encodeFrame, zenohFrameHeaderSize, drop_encodeFrame]
    simp only [map_some, toNat_length_toUInt32 hsize, take_length]
  | spi hsize =>
    simp only [Device.decode, decodeFrame, unpackSlice_encodeFrame, zenohFrameHeaderSize,
      drop_encodeFrame, map_some]
  | @systemc vtime canId canData =>
    have hlen : ¬ (encodeFrame vtime 0
        (leBytes 4 canId.toNat ++ leBytes 4 canData.toNat)).length < zenohFrameHeaderSize + 8 := by
      simp [length_encodeFrame, zenohFrameHeaderSize]
    have hdrop : (encodeFrame vtime 0 (leBytes 4 canId.toNat ++ leBytes 4 canData.toNat)).drop 28 =
        leBytes 4 canData.toNat := by
      rw [show 28 = 24 + 4 from rfl, ← drop_drop, drop_encodeFrame, drop_leBytes_append]
    have htake : (leBytes 4 canData.toNat).take 4 = leBytes 4 canData.toNat :=
      take_of_length_le (by simp)
    rw [Device.decode, systemcRx, if_neg hlen, unpackSlice_encodeFrame, hdrop, drop_encodeFrame,
      take_leBytes_append, htake, toUInt32_leNat_leBytes, toUInt32_leNat_leBytes, map_some]
  | radio hsize =>
    simp only [Device.decode, onRxFrame_encodeRf802154Frame hsize, map_some]
  | flatbuffer hd hread => exact hread

end

/-! ## A layout -/

/-- A table as its fields one behind the other. -/
def readRf802154Table (table : List UInt8) : Option Rf802154Header :=
  match table.drop 20 with
  | rssi :: lqi :: _ => some ⟨(leNat (table.take 8)).toUInt64, (leNat ((table.drop 8).take 8)).toUInt64,
      (leNat ((table.drop 16).take 4)).toUInt32, rssi.toInt8, lqi⟩
  | _ => none

/-- The fields one behind the other. -/
def rf802154Table (vtime seq : UInt64) (size : UInt32) (rssi : Int8) (lqi : UInt8) : List UInt8 :=
  leBytes 8 vtime.toNat ++ (leBytes 8 seq.toNat ++ (leBytes 4 size.toNat ++ [rssi.toUInt8, lqi]))

theorem readRf802154Table_append (vtime seq : UInt64) (size : UInt32) (rssi : Int8) (lqi : UInt8)
    (rest : List UInt8) : readRf802154Table (rf802154Table vtime seq size rssi lqi ++ rest) =
      some ⟨vtime, seq, size, rssi, lqi⟩ := by
  have hfields : rf802154Table vtime seq size rssi lqi ++ rest = leBytes 8 vtime.toNat ++
      (leBytes 8 seq.toNat ++ (leBytes 4 size.toNat ++ (rssi.toUInt8 :: lqi :: rest))) := by
    simp [rf802154Table]
  have hdrop16 : (rf802154Table vtime seq size rssi lqi ++ rest).drop 16 =
      leBytes 4 size.toNat ++ (rssi.toUInt8 :: lqi :: rest) := by
    rw [hfields, show 16 = 8 + 8 from rfl, ← drop_drop, drop_leBytes_append, drop_leBytes_append]
  have hdrop20 : (rf802154Table vtime seq size rssi lqi ++ rest).drop 20 =
      rssi.toUInt8 :: lqi :: rest := by
    rw [show 20 = 16 + 4 from rfl, ← drop_drop, hdrop16, drop_leBytes_append]
  rw [readRf802154Table, hdrop20, hdrop16, hfields]
  simp only [take_leBytes_append, drop_leBytes_append, toUInt64_leNat_leBytes,
    toUInt32_leNat_leBytes, Int8.toInt8_toUInt8]

/-- The simplest flatbuffers: every table is its fields one behind the other, little-endian. -/
def plainFlatbuffers : Flatbuffers where
  rf802154Builder vtime seq size rssi lqi := leBytes 4 22 ++ rf802154Table vtime seq size rssi lqi
  rf802154Header := readRf802154Table
  sizePrefixedRf802154Header data := readRf802154Table (data.drop 4)
  linFrame data := if data.length < 9 then none else
    some ⟨(leNat (data.take 8)).toUInt64, (leNat ((data.drop 8).take 1)).toUInt8, some (data.drop 9)⟩
  canFdFrame data := if data.length < 24 then none else
    some ⟨(leNat (data.take 8)).toUInt64, (leNat ((data.drop 8).take 8)).toUInt64,
      (leNat ((data.drop 16).take 4)).toUInt32, (leNat ((data.drop 20).take 4)).toUInt32,
      some (data.drop 24)⟩
  flexRayFrame data := if data.length < 14 then none else
    some ⟨(leNat (data.take 8)).toUInt64, (leNat ((data.drop 8).take 2)).toUInt16,
      (leNat ((data.drop 10).take 1)).toUInt8, (leNat ((data.drop 11).take 1)).toUInt8,
      (leNat ((data.drop 12).take 2)).toUInt16, some (data.drop 14)⟩
  rf802154_roundTrip := by
    intro vtime seq size rssi lqi
    have hlen : (rf802154Table vtime seq size rssi lqi).length = 22 := by simp [rf802154Table]
    refine ⟨rf802154Table vtime seq size rssi lqi, by omega, by omega, by rw [hlen], ?_, ?_⟩
    · have hread := readRf802154Table_append vtime seq size rssi lqi []
      rwa [List.append_nil] at hread
    · intro rest
      rw [List.append_assoc, drop_leBytes_append]
      exact readRf802154Table_append vtime seq size rssi lqi rest

end Virtmcu.Devices
