import Virtmcu.DeterministicCoordinator.Message
import Virtmcu.Foundations.LittleEndian

/-! # Bytes on the wire and in the log

The encodings the coordinator reads and writes: batched messages (`decode_batch`, `encode_message`),
frames of devices (`ZenohFrameHeader`, `encode_frame`, `encode_rf802154_frame`) and records of the
PCAP log (`write_message`). A short `read_exact` on a cursor fails and consumes what is left. -/

namespace Virtmcu.DeterministicCoordinator

/-! ## Protocol numbers -/

/-- `parse_protocol`. -/
def parseProtocol (p : UInt8) : Protocol :=
  match p with
  | 0 => .ethernet
  | 1 => .uart
  | 2 => .spi
  | 3 => .canFd
  | 4 => .flexRay
  | 5 => .lin
  | 6 => .rf802154
  | 7 => .rfHci
  | _ => .ethernet

/-- `serialize_protocol`. -/
def serializeProtocol : Protocol → UInt8
  | .ethernet => 0
  | .uart => 1
  | .spi => 2
  | .canFd => 3
  | .flexRay => 4
  | .lin => 5
  | .rf802154 => 6
  | .rfHci => 7
  | .control => 8

/-! ## Reading through a cursor -/

/-- A read of the bytes behind a cursor: the value, if there were enough bytes, and the bytes left. -/
abbrev CursorRead (α : Type) := List UInt8 → Option α × List UInt8

/-- `read_exact` into a buffer of `len` bytes. -/
def readExact (len : Nat) : CursorRead (List UInt8) := fun rest =>
  if len ≤ rest.length then (some (rest.take len), rest.drop len) else (none, [])

/-- `read_u8`. -/
def readU8 : CursorRead UInt8 := fun rest =>
  let (bytes, rest) := readExact 1 rest
  (bytes.map fun b => (leNat b).toUInt8, rest)

/-- `read_u32::<LittleEndian>`. -/
def readU32 : CursorRead UInt32 := fun rest =>
  let (bytes, rest) := readExact 4 rest
  (bytes.map fun b => (leNat b).toUInt32, rest)

/-- `read_u64::<LittleEndian>`. -/
def readU64 : CursorRead UInt64 := fun rest =>
  let (bytes, rest) := readExact 8 rest
  (bytes.map fun b => (leNat b).toUInt64, rest)

/-! ## Batched messages -/

/-- One record of `decode_batch`. All six header reads are made before the result is looked at, so
after a failed one the cursor is at the end. -/
def decodeRecord : CursorRead CoordMessage := fun rest =>
  let (src, rest) := readU32 rest
  let (dst, rest) := readU32 rest
  let (vtime, rest) := readU64 rest
  let (seq, rest) := readU64 rest
  let (proto, rest) := readU8 rest
  let (len, rest) := readU32 rest
  match src, dst, vtime, seq, proto, len with
  | some src, some dst, some vtime, some seq, some proto, some len =>
      let (data, rest) := readExact len.toNat rest
      (data.map fun data => ⟨src, dst, vtime, seq, parseProtocol proto, data, none⟩, rest)
  | _, _, _, _, _, _ => (none, rest)

/-- The loop of `decode_batch`: a record that cannot be read is passed over. -/
def decodeRecords : (numMsgs : Nat) → List UInt8 → List CoordMessage
  | 0, _ => []
  | numMsgs + 1, rest =>
      -- the announced number of records is tried even when the bytes have run out
      let (msg, rest) := decodeRecord rest
      msg.toList ++ decodeRecords numMsgs rest

/-- `decode_batch`. -/
def decodeBatch (payload : List UInt8) : List CoordMessage :=
  match readU32 payload with
  | (some numMsgs, rest) => decodeRecords numMsgs.toNat rest
  | (none, _) => []

/-- `encode_message`. The length field is `payload.len() as u32`. -/
def encodeMessage (msg : CoordMessage) : List UInt8 :=
  leBytes 4 msg.srcNodeId.toNat ++ leBytes 4 msg.dstNodeId.toNat ++
    leBytes 8 msg.deliveryVtimeNs.toNat ++ leBytes 8 msg.sequenceNumber.toNat ++
    [serializeProtocol msg.protocol] ++ leBytes 4 msg.payload.length ++ msg.payload

/-! ## Frames of devices -/

/-- `ZenohFrameHeader`: a 24-byte struct with four bytes of padding at its end. -/
structure ZenohFrameHeader where
  deliveryVtimeNs : UInt64
  sequenceNumber : UInt64
  size : UInt32
  deriving DecidableEq, Repr

/-- `ZENOH_FRAME_HEADER_SIZE`. -/
def zenohFrameHeaderSize : Nat := 24

/-- `ZenohFrameHeader::new`, as bytes. -/
def ZenohFrameHeader.bytes (h : ZenohFrameHeader) : List UInt8 :=
  leBytes 8 h.deliveryVtimeNs.toNat ++ leBytes 8 h.sequenceNumber.toNat ++
    leBytes 4 h.size.toNat ++ leBytes 4 0

/-- `ZenohFrameHeader::unpack_slice`. -/
def ZenohFrameHeader.unpackSlice (data : List UInt8) : Option ZenohFrameHeader :=
  if data.length < zenohFrameHeaderSize then none
  else some ⟨(leNat (data.take 8)).toUInt64, (leNat ((data.drop 8).take 8)).toUInt64,
    (leNat ((data.drop 16).take 4)).toUInt32⟩

/-- `encode_frame`. -/
def encodeFrame (deliveryVtimeNs sequenceNumber : UInt64) (payload : List UInt8) : List UInt8 :=
  (ZenohFrameHeader.mk deliveryVtimeNs sequenceNumber payload.length.toUInt32).bytes ++ payload

/-- The size-prefixed flatbuffer of an `Rf802154Header`, from delivery time, sequence number, size,
RSSI and LQI. Building it is the flatbuffers crate's part. -/
abbrev Rf802154HeaderBuilder := UInt64 → UInt64 → UInt32 → Int8 → UInt8 → List UInt8

/-- `encode_rf802154_frame`. -/
def encodeRf802154Frame (builder : Rf802154HeaderBuilder) (deliveryVtimeNs sequenceNumber : UInt64)
    (payload : List UInt8) (rssi : Int8) (lqi : UInt8) : List UInt8 :=
  builder deliveryVtimeNs sequenceNumber payload.length.toUInt32 rssi lqi ++ payload

section

variable (vtime seq : UInt64) (payload : List UInt8)

@[simp] theorem ZenohFrameHeader.length_bytes (h : ZenohFrameHeader) : h.bytes.length = 24 := by
  simp [ZenohFrameHeader.bytes]

/-- The payload stands behind the header. -/
theorem drop_encodeFrame : (encodeFrame vtime seq payload).drop 24 = payload := by
  unfold encodeFrame
  exact List.drop_left' (ZenohFrameHeader.length_bytes _)

theorem length_encodeFrame : (encodeFrame vtime seq payload).length = 24 + payload.length := by
  simp [encodeFrame]

/-- The header is read back. -/
theorem unpackSlice_encodeFrame : ZenohFrameHeader.unpackSlice (encodeFrame vtime seq payload) =
    some ⟨vtime, seq, payload.length.toUInt32⟩ := by
  have hlen : ¬ (encodeFrame vtime seq payload).length < zenohFrameHeaderSize := by
    rw [length_encodeFrame, zenohFrameHeaderSize]
    omega
  -- the three fields stand one behind the other
  have hfields : encodeFrame vtime seq payload = leBytes 8 vtime.toNat ++ (leBytes 8 seq.toNat ++
      (leBytes 4 payload.length.toUInt32.toNat ++ (leBytes 4 0 ++ payload))) := by
    simp only [encodeFrame, ZenohFrameHeader.bytes, List.append_assoc]
  have hdrop : (encodeFrame vtime seq payload).drop 16 =
      ((encodeFrame vtime seq payload).drop 8).drop 8 := by rw [List.drop_drop]
  rw [ZenohFrameHeader.unpackSlice, if_neg hlen, hdrop, hfields]
  simp only [take_leBytes_append, drop_leBytes_append, toUInt64_leNat_leBytes, toUInt32_leNat_leBytes]

end

/-! ## The PCAP log -/

namespace MessageLog

/-- `pcap_protocol_id`. -/
def pcapProtocolId : Protocol → Nat
  | .ethernet => 1
  | .uart => 2
  | .rf802154 => 3
  | .canFd => 4
  | .flexRay => 5
  | _ => 255

/-- The bytes `write_message` appends. Seconds and lengths are cast to `u32`, that is truncated. -/
def writeMessage (msg : CoordMessage) : List UInt8 :=
  let tsSec := msg.deliveryVtimeNs.toNat / 1000000000
  let tsUsec := msg.deliveryVtimeNs.toNat % 1000000000 / 1000
  let inclLen := msg.payload.length + 10
  leBytes 4 tsSec ++ leBytes 4 tsUsec ++ leBytes 4 inclLen ++ leBytes 4 inclLen ++
    leBytes 4 msg.srcNodeId.toNat ++ leBytes 4 msg.dstNodeId.toNat ++
    leBytes 2 (pcapProtocolId msg.protocol) ++ msg.payload

end MessageLog

end Virtmcu.DeterministicCoordinator
