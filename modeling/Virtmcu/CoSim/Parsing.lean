import Virtmcu.CoSim.Bridge
import Virtmcu.Foundations.Panic

/-! # The receive loop of the Remote Port transport

`RpTransport::run_rx_loop` as a program over the bytes it reads, with every slice, subtraction and copy
checked: `none` is an access out of range. The inner loop is the split of the receive buffer into packets
(`parseLoop_eq`), so what is handled on a connection depends on its bytes alone and not on the reads that
brought them (`readLoop_eq`). The buffer is declared outside the loop over the connections and is not
cleared, so a connection that ends within a packet spoils the next (`isolated_iff_splitCarrying`). -/

namespace Virtmcu.CoSim

open List

/-! ## `handle_packet` -/

/-- The length of `RemotePortBridgeQEMU::irqs`. -/
def irqCount : ℕ := 32

/-- `resp_data` with the payload copied in. -/
def copyPayload (data : List UInt8) (payloadLen : ℕ) : Option (List UInt8) :=
  if 0 < payloadLen ∧ payloadLen ≤ 8 then
    match slice data busaccessSize (busaccessSize + payloadLen) with
    | none => none
    | some payload => copyFront (List.replicate 8 0) payloadLen payload
  else some (List.replicate 8 0)

/-- The branch of `handle_packet` for interrupts. -/
def handleInterrupt (data : List UInt8) : Option PacketEffect :=
  -- `ptr::read_unaligned`
  match slice data 0 interruptSize with
  | none => none
  | some pktBe =>
      let line := (beAt pktBe 36 4).toUInt32
      if line < 32 then
        if line.toNat < irqCount then some (.setIrq line (beAt pktBe 40 1 != 0)) else none
      else some .ignored

/-- The branch of `handle_packet` for responses. -/
def handleBusaccess (data : List UInt8) (hdr : RpPktHdr) : Option PacketEffect :=
  match slice data 0 busaccessSize, checkedSub hdr.len.toNat busHdrLen with
  | some pktBe, some payloadLen =>
      (copyPayload data payloadLen).map fun respData =>
        .dispatch ⟨RpPktBusaccess.fromBe pktBe, respData⟩
  | _, _ => none

/-- `RpTransport::handle_packet` with its accesses checked. -/
def handlePacketChecked (data : List UInt8) (hdr : RpPktHdr) : Option PacketEffect :=
  if hdr.cmd = RpCmd.interrupt.toUInt32 then
    if interruptSize ≤ data.length then handleInterrupt data else some .ignored
  else if (hdr.cmd = RpCmd.read.toUInt32 ∨ hdr.cmd = RpCmd.write.toUInt32) ∧
      busaccessSize ≤ data.length then
    handleBusaccess data hdr
  else some .ignored

variable {data : List UInt8}

/-- A number is read from the front of the data alone. -/
theorem beAt_take {offset width k : ℕ} (h : offset + width ≤ k) :
    beAt (data.take k) offset width = beAt data offset width := by
  unfold beAt
  rw [drop_take, take_take, Nat.min_eq_left (by omega)]

theorem fromBe_take {k : ℕ} (h : hdrSize ≤ k) : RpPktHdr.fromBe (data.take k) = RpPktHdr.fromBe data := by
  have hk : 20 ≤ k := h
  unfold RpPktHdr.fromBe
  rw [beAt_take (by omega), beAt_take (by omega), beAt_take (by omega), beAt_take (by omega),
    beAt_take (by omega)]

theorem busaccess_fromBe_take (data : List UInt8) :
    RpPktBusaccess.fromBe (data.take busaccessSize) = RpPktBusaccess.fromBe data := by
  unfold RpPktBusaccess.fromBe
  rw [fromBe_take (by decide), beAt_take (by decide), beAt_take (by decide), beAt_take (by decide),
    beAt_take (by decide), beAt_take (by decide), beAt_take (by decide), beAt_take (by decide)]

/-- The copy of a payload that the packet has. -/
theorem copyPayload_eq {payloadLen : ℕ} (h : busaccessSize + payloadLen ≤ data.length) :
    copyPayload data payloadLen = some (respData data payloadLen) := by
  unfold copyPayload respData
  by_cases hlen : 0 < payloadLen ∧ payloadLen ≤ 8
  · rw [if_pos hlen, if_pos hlen, slice_eq_some (Nat.le_add_right _ _) h, Nat.add_sub_cancel_left]
    have hsrc : ((data.drop busaccessSize).take payloadLen).length = payloadLen := by
      rw [length_take, length_drop]
      omega
    rw [← drop_replicate]
    exact copyFront_eq_some (by rw [length_replicate]; exact hlen.2) hsrc
  · rw [if_neg hlen, if_neg hlen]

theorem handleInterrupt_eq (h : interruptSize ≤ data.length) : handleInterrupt data =
      some (if (beAt data 36 4).toUInt32 < 32 then
        .setIrq (beAt data 36 4).toUInt32 (beAt data 40 1 != 0) else .ignored) := by
  unfold handleInterrupt
  rw [slice_zero h]
  dsimp only
  rw [beAt_take (by decide), beAt_take (by decide)]
  by_cases hline : (beAt data 36 4).toUInt32 < 32
  · have hcount : (beAt data 36 4).toUInt32.toNat < irqCount := UInt32.lt_iff_toNat_lt.mp hline
    rw [if_pos hline, if_pos hline, if_pos hcount]
  · rw [if_neg hline, if_neg hline]

/-- A whole packet has the payload that its header announces. -/
theorem handleBusaccess_eq {packet : List UInt8} (hpacket : rpFraming.IsPacket packet)
    (h : busaccessSize ≤ packet.length) : handleBusaccess packet (RpPktHdr.fromBe packet) =
      some (.dispatch ⟨RpPktBusaccess.fromBe packet,
        respData packet ((RpPktHdr.fromBe packet).len.toNat - busHdrLen)⟩) := by
  have hlen : hdrSize + (RpPktHdr.fromBe (packet.take hdrSize)).len.toNat = packet.length := hpacket.2
  rw [fromBe_take (Nat.le_refl _)] at hlen
  have hbus : busHdrLen = busaccessSize - hdrSize := rfl
  have hsizes : hdrSize < busaccessSize := by decide
  unfold handleBusaccess
  rw [slice_zero h, checkedSub_eq_some (by omega)]
  dsimp only
  rw [copyPayload_eq (by omega), busaccess_fromBe_take, Option.map_some]

/-- **No access of `handle_packet` is out of range**, for any header. -/
theorem handlePacketChecked_eq {packet : List UInt8} (hpacket : rpFraming.IsPacket packet) :
    handlePacketChecked packet (RpPktHdr.fromBe packet) =
      some (handlePacket packet (RpPktHdr.fromBe packet)) := by
  unfold handlePacketChecked handlePacket
  split
  · split
    · rename_i hlong
      exact handleInterrupt_eq hlong
    · rfl
  · split
    · rename_i hbus
      exact handleBusaccess_eq hpacket hbus.2
    · rfl

/-! ## One read -/

/-- A call of `handle_packet` and what came of it. -/
structure Handled where
  data : List UInt8
  hdr : RpPktHdr
  effect : PacketEffect
  deriving DecidableEq, Repr

/-- The call for a packet. -/
def handled (packet : List UInt8) : Handled :=
  ⟨packet, RpPktHdr.fromBe packet, handlePacket packet (RpPktHdr.fromBe packet)⟩

theorem handled_injective : Function.Injective handled :=
  fun _ _ h => congrArg Handled.data h

/-- One round of the loop that takes packets off `rx_buf`: the call and what is left, or `some none` when
the loop ends. -/
def parseStep (rxBuf : List UInt8) : Option (Option (Handled × List UInt8)) :=
  if hdrSize ≤ rxBuf.length then
    match slice rxBuf 0 hdrSize with
    | none => none
    | some hdrBe =>
        let hdr := RpPktHdr.fromBe hdrBe
        let pktLen := hdrSize + hdr.len.toNat
        if rxBuf.length < pktLen then some none
        else
          match slice rxBuf 0 pktLen, drainFront rxBuf pktLen with
          | some data, some rest =>
              (handlePacketChecked data hdr).map fun effect => some (⟨data, hdr, effect⟩, rest)
          | _, _ => none
  else some none

/-- The loop that takes packets off `rx_buf`. -/
def parseLoop : (fuel : ℕ) → List UInt8 → Option (List Handled × List UInt8)
  | 0, _ => none
  | fuel + 1, rxBuf =>
      match parseStep rxBuf with
      | none => none
      | some none => some ([], rxBuf)
      | some (some (call, rest)) => (parseLoop fuel rest).map fun r => (call :: r.1, r.2)

/-- No packet is shorter than its header. -/
theorem rpFraming_le (header : List UInt8) : rpFraming.headerLen ≤ rpFraming.packetLen header :=
  Nat.le_add_right _ _

/-- A round of the loop takes off the next packet. -/
theorem parseStep_eq (rxBuf : List UInt8) : parseStep rxBuf =
      some ((rpFraming.next rxBuf).map fun taken => (handled taken.1, taken.2)) := by
  unfold parseStep
  by_cases hheader : hdrSize ≤ rxBuf.length
  · have hnext := rpFraming.next_of_header hheader
    change rpFraming.next rxBuf =
      if rxBuf.length < hdrSize + (RpPktHdr.fromBe (rxBuf.take hdrSize)).len.toNat then none
      else some (rxBuf.take (hdrSize + (RpPktHdr.fromBe (rxBuf.take hdrSize)).len.toNat),
        rxBuf.drop (hdrSize + (RpPktHdr.fromBe (rxBuf.take hdrSize)).len.toNat)) at hnext
    rw [if_pos hheader, slice_zero hheader]
    dsimp only
    generalize hk : hdrSize + (RpPktHdr.fromBe (rxBuf.take hdrSize)).len.toNat = pktLen at hnext ⊢
    by_cases hlen : rxBuf.length < pktLen
    · rw [if_pos hlen] at hnext
      rw [if_pos hlen, hnext, Option.map_none]
    · rw [if_neg hlen] at hnext
      have hpacket := Framing.isPacket_of_next rpFraming_le hnext
      -- the header of the buffer is the header of the packet
      have hhdr : RpPktHdr.fromBe (rxBuf.take hdrSize) = RpPktHdr.fromBe (rxBuf.take pktLen) := by
        rw [fromBe_take (Nat.le_refl _), fromBe_take (by omega)]
      rw [if_neg hlen, hnext, slice_zero (Nat.not_lt.mp hlen), drainFront_eq_some (Nat.not_lt.mp hlen)]
      dsimp only
      rw [hhdr, handlePacketChecked_eq hpacket]
      rfl
  · have hnext : rpFraming.next rxBuf = none := if_pos (Nat.not_le.mp hheader)
    rw [if_neg hheader, hnext, Option.map_none]

/-- **The loop splits the buffer** and ends. -/
theorem parseLoop_eq {rxBuf rest : List UInt8} {packets : List (List UInt8)}
    (h : rpFraming.IsSplit rxBuf packets rest) {fuel : ℕ} (hfuel : packets.length < fuel) :
    parseLoop fuel rxBuf = some (packets.map handled, rest) := by
  induction packets generalizing rxBuf fuel with
  | nil =>
    obtain ⟨fuel, rfl⟩ := Nat.exists_eq_succ_of_ne_zero (Nat.ne_of_gt hfuel)
    have hrest : rest = rxBuf := h.flatten_append
    rw [parseLoop, parseStep_eq, ← hrest, h.next_rest]
    rfl
  | cons p packets ih =>
    obtain ⟨fuel, rfl⟩ := Nat.exists_eq_succ_of_ne_zero (Nat.ne_of_gt (Nat.zero_lt_of_lt hfuel))
    have hlater : rpFraming.IsSplit (packets.flatten ++ rest) packets rest :=
      ⟨fun q hq => h.isPacket q (mem_cons_of_mem p hq), rfl, h.next_rest⟩
    have hnext := rpFraming.next_append (h.isPacket p mem_cons_self) (packets.flatten ++ rest)
    rw [← append_assoc, ← flatten_cons, h.flatten_append] at hnext
    rw [parseLoop, parseStep_eq, hnext]
    simp only [Option.map_some]
    rw [ih hlater (Nat.lt_of_succ_lt_succ hfuel)]
    rfl

/-! ## One connection -/

/-- What one `read` puts into `temp_buf`. A read of nothing is the end of the stream. -/
structure Read where
  bytes : List UInt8
  ne_nil : bytes ≠ []
  length_le : bytes.length ≤ tempBufLen

/-- The bytes that the reads bring. -/
def streamOf (reads : List Read) : List UInt8 := (reads.map Read.bytes).flatten

@[simp] theorem streamOf_nil : streamOf [] = [] := rfl

@[simp] theorem streamOf_cons (r : Read) (reads : List Read) :
    streamOf (r :: reads) = r.bytes ++ streamOf reads := rfl

/-- The loop that reads from the connection until the end of the stream or an error. -/
def readLoop : (tempBuf rxBuf : List UInt8) → List Read → Option (List Handled × List UInt8)
  | _, rxBuf, [] => some ([], rxBuf)
  | tempBuf, rxBuf, r :: reads =>
      -- `read` overwrites the front of `temp_buf`
      let tempBuf := r.bytes ++ tempBuf.drop r.bytes.length
      match slice tempBuf 0 r.bytes.length with
      | none => none
      | some chunk =>
          match parseLoop ((rxBuf ++ chunk).length + 1) (rxBuf ++ chunk) with
          | none => none
          | some (calls, rest) => (readLoop tempBuf rest reads).map fun r => (calls ++ r.1, r.2)

/-- The reads of a connection, after whatever is in the buffer. -/
theorem readLoop_of_isSplit (tempBuf : List UInt8) {rxBuf : List UInt8}
    (hbuf : rpFraming.next rxBuf = none) (reads : List Read) {packets : List (List UInt8)}
    {rest : List UInt8} (h : rpFraming.IsSplit (rxBuf ++ streamOf reads) packets rest) :
    readLoop tempBuf rxBuf reads = some (packets.map handled, rest) := by
  induction reads generalizing tempBuf rxBuf packets with
  | nil =>
    rw [streamOf_nil, append_nil] at h
    obtain ⟨rfl, rfl⟩ := (Framing.IsSplit.nil hbuf).unique h
    rfl
  | cons r reads ih =>
    have hfirst := Framing.isSplit_split rpFraming_le (rxBuf ++ r.bytes)
    have hlater := Framing.isSplit_split rpFraming_le
      ((rpFraming.split (rxBuf ++ r.bytes)).2 ++ streamOf reads)
    rw [streamOf_cons, ← append_assoc] at h
    obtain ⟨rfl, rfl⟩ := (hfirst.append hlater).unique h
    have hchunk : slice (r.bytes ++ tempBuf.drop r.bytes.length) 0 r.bytes.length = some r.bytes := by
      rw [slice_zero (by rw [length_append]; omega), take_left]
    rw [readLoop, hchunk]
    dsimp only
    rw [parseLoop_eq hfirst (Nat.lt_succ_of_le hfirst.length_le)]
    dsimp only
    rw [ih _ hfirst.next_rest hlater, Option.map_some, map_append]

/-- `temp_buf` as it is declared. -/
def zeroBuf : List UInt8 := List.replicate tempBufLen 0

/-- **Parsing does not depend on the reads.** For every stream there are the packets of its split, and
however the stream is cut into reads, `handle_packet` is called for these, one after the other, with no
access out of range. Whole packets that the stream begins with are the first of them, so it is the
longest split, and the only one. -/
theorem readLoop_eq (stream : List UInt8) : ∃ packets rest, rpFraming.IsSplit stream packets rest ∧
      (∀ ps, (∀ p ∈ ps, rpFraming.IsPacket p) → ps.flatten <+: stream → ps <+: packets) ∧
      ∀ reads, streamOf reads = stream → readLoop zeroBuf [] reads = some (packets.map handled, rest) := by
  have hsplit := Framing.isSplit_split rpFraming_le stream
  refine ⟨_, _, hsplit, fun ps hps hprefix => hsplit.longest hps hprefix, ?_⟩
  rintro reads rfl
  exact readLoop_of_isSplit zeroBuf (if_pos (by decide)) reads hsplit

/-! ## One connection after another -/

/-- How a round of the loop over the connections goes. -/
inductive Round
  /-- `ctx.is_running()` is `false`. -/
  | stopped
  /-- `UnixStream::connect` fails. -/
  | connectFails
  /-- The hello is not written, or the stream not cloned. -/
  | helloFails
  /-- The connection is made, and its reads end in the end of the stream or an error. -/
  | connection (reads : List Read)

/-- `RpTransport::run_rx_loop`: the calls of `handle_packet` on each connection. -/
def runRxLoop (reconnectMs : UInt32) : (rxBuf : List UInt8) → List Round →
    Option (List (List Handled))
  | _, [] => some []
  | _, .stopped :: _ => some []
  | rxBuf, .connectFails :: rounds =>
      if 0 < reconnectMs then runRxLoop reconnectMs rxBuf rounds else some []
  | rxBuf, .helloFails :: rounds => runRxLoop reconnectMs rxBuf rounds
  | rxBuf, .connection reads :: rounds =>
      match readLoop zeroBuf rxBuf reads with
      | none => none
      | some (calls, rest) =>
          if reconnectMs = 0 then some [calls]
          else (runRxLoop reconnectMs rest rounds).map (calls :: ·)

/-- The bytes of each connection that the loop makes. -/
def connections (reconnectMs : UInt32) : List Round → List (List UInt8)
  | [] => []
  | .stopped :: _ => []
  | .connectFails :: rounds => if 0 < reconnectMs then connections reconnectMs rounds else []
  | .helloFails :: rounds => connections reconnectMs rounds
  | .connection reads :: rounds =>
      streamOf reads :: if reconnectMs = 0 then [] else connections reconnectMs rounds

/-- The calls that a connection's own bytes ask for, parsed from the first one. -/
def ownCalls (stream : List UInt8) : List Handled := (rpFraming.split stream).1.map handled

/-- **Isolation**: on each connection the calls are those of its own bytes. -/
def Isolated (reconnectMs : UInt32) (rounds : List Round) : Prop :=
  runRxLoop reconnectMs [] rounds = some ((connections reconnectMs rounds).map ownCalls)

instance (reconnectMs : UInt32) (rounds : List Round) : Decidable (Isolated reconnectMs rounds) :=
  inferInstanceAs (Decidable (_ = _))

/-- The loop parses each connection behind what the one before it left in the buffer. -/
theorem runRxLoop_eq (reconnectMs : UInt32) {rxBuf : List UInt8}
    (hbuf : rpFraming.next rxBuf = none) (rounds : List Round) : runRxLoop reconnectMs rxBuf rounds =
      some ((rpFraming.splitCarrying rxBuf (connections reconnectMs rounds)).map (List.map handled)) := by
  induction rounds generalizing rxBuf with
  | nil => rfl
  | cons round rounds ih =>
    cases round with
    | stopped => rfl
    | connectFails =>
      rw [runRxLoop, connections]
      split
      · exact ih hbuf
      · rfl
    | helloFails => exact ih hbuf
    | connection reads =>
      have hsplit := Framing.isSplit_split rpFraming_le (rxBuf ++ streamOf reads)
      rw [runRxLoop, connections, readLoop_of_isSplit zeroBuf hbuf reads hsplit]
      dsimp only
      split
      · rfl
      · rw [ih hsplit.next_rest]
        rfl

theorem next_nil : rpFraming.next [] = none := if_pos (by decide)

theorem isolated_iff_splitCarrying (reconnectMs : UInt32) (rounds : List Round) :
    Isolated reconnectMs rounds ↔ rpFraming.splitCarrying [] (connections reconnectMs rounds) =
        (connections reconnectMs rounds).map fun stream => (rpFraming.split stream).1 := by
  have hown : (connections reconnectMs rounds).map ownCalls =
      ((connections reconnectMs rounds).map fun stream => (rpFraming.split stream).1).map
        (List.map handled) := by
    rw [map_map]
    rfl
  unfold Isolated
  rw [runRxLoop_eq reconnectMs next_nil, hown, Option.some.injEq]
  exact (map_injective_iff.mpr (map_injective_iff.mpr handled_injective)).eq_iff

/-- A read that brings one packet, a nop. -/
def nopRead : Read where
  bytes := List.replicate hdrSize 0
  ne_nil := List.cons_ne_nil _ _
  length_le := Nat.le_of_ble_eq_true rfl

/-- A read that brings one byte of a header. -/
def byteRead : Read where
  bytes := [0]
  ne_nil := List.cons_ne_nil _ _
  length_le := Nat.le_of_ble_eq_true rfl

/-- A read that brings an interrupt: line 0 goes up. -/
def interruptRead : Read where
  bytes := [0, 0, 0, 5, 0, 0, 0, 21] ++ List.replicate 32 0 ++ [1]
  ne_nil := List.cons_ne_nil _ _
  length_le := Nat.le_of_ble_eq_true rfl

/-- **Connections that end behind a packet are isolated.** Only the last one may end within a packet. -/
theorem isolated_of_boundaries (reconnectMs : UInt32) (rounds : List Round)
    (h : ∀ stream ∈ (connections reconnectMs rounds).dropLast, (rpFraming.split stream).2 = []) :
    Isolated reconnectMs rounds :=
  (isolated_iff_splitCarrying reconnectMs rounds).mpr (Framing.splitCarrying_eq_map h)

/-- A connection that ends behind a packet, and one that ends within the next. -/
theorem isolated_of_boundaries_two :
    Isolated 1 [.connection [interruptRead, nopRead], .helloFails, .connection [nopRead, byteRead]] :=
  isolated_of_boundaries 1 _ (by decide +kernel)

/-- **A connection that ends within a packet spoils the next**: after one byte of a header, the interrupt
that comes on the second connection is not raised. -/
theorem not_isolated_byte : ¬ Isolated 1 [.connection [byteRead], .connection [interruptRead]] := by
  decide +kernel

/-! ## What was packed is what is handled -/

theorem length_beBytes (width value : ℕ) : (beBytes width value).length = width := by simp [beBytes]

theorem drop_beBytes_append {width n : ℕ} (h : width ≤ n) (value : ℕ) (rest : List UInt8) :
    (beBytes width value ++ rest).drop n = rest.drop (n - width) := by
  rw [drop_append, length_beBytes, drop_eq_nil_of_le (by rwa [length_beBytes]), nil_append]

theorem beNat_take_beBytes_append (width value : ℕ) (rest : List UInt8) :
    beNat ((beBytes width value ++ rest).take width) = value % 256 ^ width := by
  rw [take_left' (length_beBytes width value), beNat, beBytes, reverse_reverse, leNat_leBytes]

/-- **A packet is read as it was packed**, whatever follows it. -/
theorem fromBe_packBe (pkt : RpPktBusaccess) (rest : List UInt8) :
    RpPktBusaccess.fromBe (pkt.packBe ++ rest) = pkt := by
  simp (disch := omega) [RpPktBusaccess.fromBe, RpPktHdr.fromBe, RpPktBusaccess.packBe,
    RpPktHdr.packBe, beAt, drop_beBytes_append, beNat_take_beBytes_append]

/-- The answer to a bus access, as a peer writes it. -/
structure Reply where
  pkt : RpPktBusaccess
  payload : List UInt8
  isAccess : pkt.hdr.cmd = RpCmd.read.toUInt32 ∨ pkt.hdr.cmd = RpCmd.write.toUInt32
  length_payload : payload.length ≤ 8
  len_eq : pkt.hdr.len.toNat = busHdrLen + payload.length

namespace Reply

def bytes (r : Reply) : List UInt8 := r.pkt.packBe ++ r.payload

/-- The payload in a field of eight bytes. -/
def response (r : Reply) : RpResponse := ⟨r.pkt, r.payload ++ replicate (8 - r.payload.length) 0⟩

theorem length_packBe (pkt : RpPktBusaccess) : pkt.packBe.length = busaccessSize := by
  simp [RpPktBusaccess.packBe, RpPktHdr.packBe, length_beBytes, busaccessSize]

theorem fromBe_bytes (r : Reply) : RpPktHdr.fromBe r.bytes = r.pkt.hdr :=
  congrArg RpPktBusaccess.hdr (fromBe_packBe r.pkt r.payload)

theorem length_bytes (r : Reply) : r.bytes.length = busaccessSize + r.payload.length := by
  rw [bytes, length_append, length_packBe]

theorem isPacket (r : Reply) : rpFraming.IsPacket r.bytes := by
  rw [Framing.IsPacket, length_bytes]
  refine ⟨Nat.le_add_right_of_le (by decide), ?_⟩
  show hdrSize + (RpPktHdr.fromBe (r.bytes.take hdrSize)).len.toNat = _
  rw [fromBe_take (Nat.le_refl _), fromBe_bytes, r.len_eq, ← Nat.add_assoc]
  rfl

theorem effect_handled (r : Reply) : (handled r.bytes).effect = .dispatch r.response := by
  have hcmd : r.pkt.hdr.cmd ≠ RpCmd.interrupt.toUInt32 := by
    rcases r.isAccess with h | h <;> rw [h] <;> decide
  have hsize : busaccessSize ≤ r.bytes.length := by
    rw [length_bytes]
    exact Nat.le_add_right _ _
  have hdata : respData r.bytes r.payload.length = r.response.data := by
    rw [respData, bytes, drop_left' (length_packBe r.pkt), take_length]
    split
    · rfl
    · rename_i hpayload
      have hnil : r.payload = [] := by
        have hle := r.length_payload
        exact length_eq_zero_iff.mp (by omega)
      rw [response, hnil]
      rfl
  rw [handled, handlePacket, fromBe_bytes, if_neg hcmd, if_pos ⟨r.isAccess, hsize⟩, r.len_eq,
    Nat.add_sub_cancel_left, hdata, bytes, fromBe_packBe]
  rfl

end Reply

/-- **Answers arrive as they were packed**: however the stream is cut into reads, each of them is dispatched
once, in the order in which they were written, and nothing is left over. -/
theorem readLoop_replies (replies : List Reply) (reads : List Read)
    (hstream : streamOf reads = replies.flatMap Reply.bytes) :
    ∃ calls, readLoop zeroBuf [] reads = some (calls, []) ∧
      calls.map Handled.effect = replies.map fun r => .dispatch r.response := by
  have hsplit : rpFraming.IsSplit ([] ++ streamOf reads) (replies.map Reply.bytes) [] := by
    refine ⟨?_, ?_, if_pos (by decide)⟩
    · intro p hp
      obtain ⟨r, -, rfl⟩ := mem_map.mp hp
      exact r.isPacket
    · rw [hstream, append_nil, nil_append, flatMap_def]
  refine ⟨_, readLoop_of_isSplit zeroBuf (if_pos (by decide)) reads hsplit, ?_⟩
  rw [map_map, map_map]
  exact map_congr_left fun r _ => r.effect_handled

/-- The answer to a read, with one byte. -/
def oneByte : Reply where
  pkt := ⟨⟨RpCmd.read.toUInt32, 39, 5, 2, 0⟩, 0, 0, 16, 4, 4, 4, 0⟩
  payload := [7]
  isAccess := .inl rfl
  length_payload := by decide
  len_eq := rfl

/-- Its header comes with another read than the rest. -/
theorem readLoop_replies_oneByte : ∃ calls,
    readLoop zeroBuf [] [⟨oneByte.bytes.take 20, by decide, by decide⟩,
      ⟨oneByte.bytes.drop 20, by decide, by decide⟩] = some (calls, []) ∧
    calls.map Handled.effect = [.dispatch oneByte.response] :=
  readLoop_replies [oneByte] _ (by decide)

end Virtmcu.CoSim
