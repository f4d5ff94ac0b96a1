import Virtmcu.DeterministicCoordinator.DeliveryOrder
import Virtmcu.DeterministicCoordinator.EventLoop
import Virtmcu.Devices.Frames

/-! # Device frames through the coordinator

A device frame is opened on arrival, delayed, sorted with its batch and put into a frame again. CAN FD
and FlexRay frames are not opened: they count as sent at time 0 and are sorted by their bytes. LIN
frames are opened, but like the other two they are passed on as they came, with the time the sender
wrote. `framesInOrder_iff` says when the frames of one sender reach its receivers in the order of their
times, `linkDelay_iff` when a receiver reads the delayed time. -/

namespace Virtmcu.DeterministicCoordinator

open Devices List Option

/-- The coordinator's readers, from the same flatbuffers crate as the devices use. -/
def flatbufferExternals (fb : Flatbuffers) (jsonFromStr : String → Option JsonValue)
    (coordDoneReq : List UInt8 → Option CoordDoneReq) (seenOrder : IterationOrder UInt32) :
    Externals where
  jsonFromStr := jsonFromStr
  rf802154Header table :=
    (fb.rf802154Header table).map fun header => (header.deliveryVtimeNs, header.sequenceNumber)
  linFrame payload := (fb.linFrame payload).map LinFrame.deliveryVtimeNs
  coordDoneReq := coordDoneReq
  rf802154Builder := fb.rf802154Builder
  seenOrder := seenOrder

/-! ## What the coordinator makes of a frame -/

/-- The protocols whose frames are opened. -/
def Protocol.isOpened : Protocol → Bool
  | .canFd | .flexRay => false
  | _ => true

/-- The delivery time the coordinator reads in a frame. -/
def readVtime (p : Protocol) (frame : Frame) : UInt64 := if p.isOpened then frame.vtime else 0

/-- The sequence number the coordinator reads in a frame. -/
def readSeq (d : Device) (frame : Frame) : UInt64 :=
  if d.isFlatbuffer then 0 else frame.sequence.getD 0

/-- The data the coordinator takes out of a frame. -/
def readData (frame : Frame) (bytes : List UInt8) : List UInt8 :=
  match frame.content with
  | .bytes data => data
  | .canLite canId canData => leBytes 4 canId.toNat ++ leBytes 4 canData.toNat
  | _ => bytes

section

variable {fb : Flatbuffers} {jsonFromStr : String → Option JsonValue}
  {coordDoneReq : List UInt8 → Option CoordDoneReq} {seenOrder : IterationOrder UInt32}
  {d : Device} {p : Protocol} {frame : Frame} {bytes : List UInt8}

/-- A frame with a `ZenohFrameHeader`. -/
theorem decodeTx_encodeFrame (env : Externals) (hp : p ≠ .rf802154) (hraw : isRaw p = false)
    {vtime seq : UInt64} {data : List UInt8} (hsize : data.length < 2 ^ 32) :
    decodeTx env p (encodeFrame vtime seq data) = some (vtime, seq, data) := by
  have hlen : zenohFrameHeaderSize + data.length.toUInt32.toNat ≤
      (encodeFrame vtime seq data).length := by
    rw [length_encodeFrame, toNat_length_toUInt32 hsize, zenohFrameHeaderSize]
  simp only [decodeTx, hp, false_and, if_false, hraw, Bool.false_eq_true, unpackSlice_encodeFrame]
  rw [if_pos hlen, zenohFrameHeaderSize, drop_encodeFrame, toNat_length_toUInt32 hsize, take_length]

/-- A frame with an `Rf802154Header`. -/
theorem decodeTx_encodeRf802154Frame (vtime seq : UInt64) (data : List UInt8) (rssi : Int8) (lqi : UInt8) :
    decodeTx (flatbufferExternals fb jsonFromStr coordDoneReq seenOrder) .rf802154
        (encodeRf802154Frame fb.rf802154Builder vtime seq data rssi lqi) = some (vtime, seq, data) := by
  obtain ⟨table, hpos, hle, hframe, hread, -⟩ :=
    @encodeRf802154Frame_eq fb vtime seq data rssi lqi
  have hlen : leNat (leBytes 4 table.length) = table.length := leNat_leBytes_of_lt (by omega)
  have hdrop : (leBytes 4 table.length ++ (table ++ data)).drop (4 + table.length) = data := by
    rw [← drop_drop, drop_leBytes_append, drop_left]
  simp only [decodeTx, hframe, take_leBytes_append, hlen, drop_leBytes_append, take_left, hdrop]
  rw [if_pos ⟨trivial, by simp, hpos, hle, by simp⟩]
  simp only [flatbufferExternals, hread, map_some]

/-- **What the coordinator reads in a well-formed frame.** -/
theorem decodeTx_wellFormed (hd : d.Speaks p) (h : WellFormed fb d frame bytes) :
    decodeTx (flatbufferExternals fb jsonFromStr coordDoneReq seenOrder) p bytes =
      some (readVtime p frame, readSeq d frame, readData frame bytes) := by
  cases h with
  | netdev hsize | spi hsize =>
    cases hd
    exact decodeTx_encodeFrame _ (by decide) rfl hsize
  | chardev hsize =>
    rcases hd with rfl | rfl
    · exact decodeTx_encodeFrame _ (by decide) rfl hsize
    · exact decodeTx_encodeFrame _ (by decide) rfl hsize
  | systemc =>
    cases hd
    exact decodeTx_encodeFrame _ (by decide) rfl (by simp)
  | radio hsize =>
    cases hd
    exact decodeTx_encodeRf802154Frame _ _ _ _ _
  | flatbuffer hflat hread =>
    cases d with
    | lpuart =>
      cases hd
      rw [Device.decode, lpuartRx, map_eq_some_iff] at hread
      obtain ⟨lin, hlin, rfl⟩ := hread
      simp [decodeTx, isRaw, flatbufferExternals, hlin, readVtime, Protocol.isOpened, readSeq,
        Device.isFlatbuffer, readData]
    | canHost =>
      cases hd
      rw [Device.decode, canHostRx, map_eq_some_iff] at hread
      obtain ⟨can, -, rfl⟩ := hread
      simp [decodeTx, isRaw, readVtime, Protocol.isOpened, readSeq, Device.isFlatbuffer, readData]
    | flexRay =>
      cases hd
      rw [Device.decode, flexRayRx, map_eq_some_iff] at hread
      obtain ⟨flexRay, -, rfl⟩ := hread
      simp [decodeTx, isRaw, readVtime, Protocol.isOpened, readSeq, Device.isFlatbuffer, readData]
    | netdev | chardev | spi | systemc | radio => cases hflat

end

/-! ## Publications of one node -/

/-- A well-formed frame of protocol `p` that node `i` publishes on one of its TX topics. -/
structure Publication (fb : Flatbuffers) (p : Protocol) (i : UInt32) where
  topic : String
  base : String
  device : Device
  tx : TxFrame fb device
  parsed : parseLegacyTopic topic = some (p, i, base)
  speaks : device.Speaks p

namespace Publication

variable {fb : Flatbuffers} {p : Protocol} {i : UInt32}

/-- The delivery time the sender embedded. -/
def vtime (f : Publication fb p i) : UInt64 := f.tx.frame.vtime

/-- What the comparator looks at when the delivery times of two frames of one sender are equal:
sequence number, base topic and data. -/
def tieCmp (f f' : Publication fb p i) : Ordering :=
  (compare (readSeq f.device f.tx.frame) (readSeq f'.device f'.tx.frame)).then <|
  (compare f.base f'.base).then <|
  compare (readData f.tx.frame f.tx.bytes) (readData f'.tx.frame f'.tx.bytes)

/-- The coordinator keeps the order of two frames, the first one sent earlier: it reads their times and
the first one, delayed, lies below the largest time there is, or the tie is broken that way. -/
def KeepsOrder (delayNs : UInt64) (f f' : Publication fb p i) : Prop :=
  (p.isOpened = true ∧ f.vtime.toNat + delayNs.toNat < 2 ^ 64 - 1) ∨ (f.tieCmp f').isLE = true

end Publication

/-- The messages the loop makes of publications, in the order of publication. -/
def publishedMessages {fb : Flatbuffers} {p : Protocol} {i : UInt32} (args : Args) (env : Externals)
    (pubs : List (Publication fb p i)) : List CoordMessage :=
  pubs.filterMap fun f => (txMessage args env f.topic f.tx.bytes).bind Prod.snd

/-- The receivers of what node `i` broadcasts. -/
def broadcastTargets (g : TopologyGraph) (seenNodes : List UInt32) (i : UInt32) (p : Protocol) :
    List UInt32 :=
  targetNodes g seenNodes ⟨i, broadcast, 0, 0, p, [], none⟩

/-- Of the messages `ms`, none is sent before an earlier one. -/
def SentInOrder (ms sent : List CoordMessage) : Prop :=
  ms.Pairwise fun m m' => m ≠ m' → ¬ List.Sublist [m', m] sent

instance (ms sent : List CoordMessage) : Decidable (SentInOrder ms sent) :=
  inferInstanceAs (Decidable (List.Pairwise _ ms))

/-! ## Sending order -/

section

variable {g : TopologyGraph} {seenNodes : List UInt32} {batch : List CoordMessage}
  {m m' : CoordMessage}

/-- Two messages with the same receivers are sent in order exactly when the comparator has them in
order or nobody receives them. -/
theorem sentBefore_iff (hm : m ∈ batch) (hm' : m' ∈ batch)
    (htargets : targetNodes g seenNodes m' = targetNodes g seenNodes m) :
    (∀ r, m ≠ m' → ¬ List.Sublist [m', m] (sentTo g seenNodes r (sort batch))) ↔
      targetNodes g seenNodes m = [] ∨ CmpLe CoordMessage.cmp m m' := by
  constructor
  · intro h
    by_contra hnot
    rw [not_or] at hnot
    obtain ⟨r, hr⟩ := exists_mem_of_ne_nil _ hnot.1
    have hne : m ≠ m' := by
      rintro rfl
      exact hnot.2 ((cmpLe_total CoordMessage.cmp m m).elim id id)
    refine h r hne (pair_sublist_sentTo (htargets ▸ hr) hr ?_)
    exact pair_sublist_sortBy _ hm' hm hnot.2
  · rintro (hnone | hle) r hne hsub
    · have hmem : m ∈ sentTo g seenNodes r (sort batch) := hsub.subset (by simp)
      rw [mem_sentTo, hnone] at hmem
      exact absurd hmem.2 not_mem_nil
    · -- what is sent is in comparator order, so the other order means equality
      have hsorted : (sentTo g seenNodes r (sort batch)).Pairwise (CmpLe CoordMessage.cmp) :=
        pairwise_sentTo (fun m => (cmpLe_total CoordMessage.cmp m m).elim id id)
          ((pairwise_sort batch).imp fun hle _ _ => hle)
      have hge := pairwise_iff_forall_sublist.mp hsorted hsub
      exact hne (cmpLe_antisymm CoordMessage.cmp hle hge)

/-- The receivers of a broadcast depend on source and protocol only. -/
theorem targetNodes_eq_broadcastTargets (hm : m.dstNodeId = broadcast) :
    targetNodes g seenNodes m = broadcastTargets g seenNodes m.srcNodeId m.protocol := by
  simp only [broadcastTargets, targetNodes, hm]

end

theorem toNat_saturatingAdd (a b : UInt64) :
    (saturatingAdd a b).toNat = min (a.toNat + b.toNat) (2 ^ 64 - 1) := by
  unfold saturatingAdd
  split
  · rename_i h
    rw [UInt64.toNat_add, Nat.mod_eq_of_lt h]
    omega
  · show 2 ^ 64 - 1 = _
    omega

section

variable {fb : Flatbuffers} {p : Protocol} {i : UInt32} {args : Args}
  {jsonFromStr : String → Option JsonValue} {coordDoneReq : List UInt8 → Option CoordDoneReq}
  {seenOrder : IterationOrder UInt32}

/-- The message of a publication. -/
def Publication.message (args : Args) (f : Publication fb p i) : CoordMessage :=
  ⟨i, broadcast, saturatingAdd (readVtime p f.tx.frame) args.delayNs, readSeq f.device f.tx.frame, p,
    readData f.tx.frame f.tx.bytes, some f.base⟩

theorem Publication.txMessage_eq (f : Publication fb p i) :
    txMessage args (flatbufferExternals fb jsonFromStr coordDoneReq seenOrder) f.topic f.tx.bytes =
      some (i, some (f.message args)) := by
  simp only [txMessage, f.parsed, decodeTx_wellFormed f.speaks f.tx.wellFormed, map_some,
    Publication.message]

theorem publishedMessages_eq (pubs : List (Publication fb p i)) :
    publishedMessages args (flatbufferExternals fb jsonFromStr coordDoneReq seenOrder) pubs =
      pubs.map (Publication.message args) := by
  unfold publishedMessages
  rw [← filterMap_eq_map]
  congr 1
  funext f
  rw [f.txMessage_eq]
  rfl

/-- Two publications of one sender in comparator order: the first delivery time is smaller, or the
tie-break decides. -/
theorem Publication.cmpLe_message_iff (f f' : Publication fb p i) :
    CmpLe CoordMessage.cmp (f.message args) (f'.message args) ↔
      (f.message args).deliveryVtimeNs < (f'.message args).deliveryVtimeNs ∨
      (f.message args).deliveryVtimeNs = (f'.message args).deliveryVtimeNs ∧ (f.tieCmp f').isLE = true := by
  have hbase : compare (some f.base) (some f'.base) = compare f.base f'.base := rfl
  unfold CmpLe CoordMessage.cmp
  rw [Ordering.isLE_then_iff_or, Std.compare_eq_lt, Std.compare_eq_iff_eq]
  simp only [Publication.message, Std.compare_self, Ordering.eq_then, hbase, Publication.tieCmp]

/-- So the comparator agrees with the embedded times exactly when the order is kept. -/
theorem Publication.cmpLe_iff_keepsOrder {f f' : Publication fb p i} (h : f.vtime < f'.vtime) :
    CmpLe CoordMessage.cmp (f.message args) (f'.message args) ↔ f.KeepsOrder args.delayNs f' := by
  rw [Publication.cmpLe_message_iff, UInt64.lt_iff_toNat_lt, ← UInt64.toNat_inj]
  simp only [Publication.message, toNat_saturatingAdd, Publication.KeepsOrder]
  have hlt : f.tx.frame.vtime.toNat < f'.tx.frame.vtime.toNat := UInt64.lt_iff_toNat_lt.mp h
  have hvtime : f.vtime = f.tx.frame.vtime := rfl
  cases hopen : p.isOpened with
  | true =>
    simp only [readVtime, hopen, if_true, true_and, hvtime]
    by_cases hsum : f.tx.frame.vtime.toNat + args.delayNs.toNat < 2 ^ 64 - 1
    · constructor
      · exact fun _ => .inl hsum
      · exact fun _ => .inl (by omega)
    · -- both times have reached the largest one
      have heq : min (f.tx.frame.vtime.toNat + args.delayNs.toNat) (2 ^ 64 - 1) =
          min (f'.tx.frame.vtime.toNat + args.delayNs.toNat) (2 ^ 64 - 1) := by omega
      simp only [heq, lt_irrefl, false_or, true_and, hsum]
  | false => simp [readVtime, hopen]

/-- The publications reach a set of receivers in order exactly when the coordinator keeps the order of
any two, or there is no receiver. -/
theorem sentInOrder_iff {g : TopologyGraph} {seenNodes : List UInt32} {batch : List CoordMessage}
    (pubs : List (Publication fb p i)) (htimes : pubs.Pairwise fun f f' => f.vtime < f'.vtime)
    (hbatch : ∀ f ∈ pubs, f.message args ∈ batch) :
    (∀ r, SentInOrder (pubs.map (Publication.message args)) (sentTo g seenNodes r (sort batch))) ↔
      broadcastTargets g seenNodes i p = [] ∨ pubs.Pairwise (Publication.KeepsOrder args.delayNs) := by
  have htargets : ∀ f : Publication fb p i,
      targetNodes g seenNodes (f.message args) = broadcastTargets g seenNodes i p :=
    fun f => targetNodes_eq_broadcastTargets rfl
  -- two frames of the list, the earlier one first
  have hpair : ∀ f f' : Publication fb p i, List.Sublist [f, f'] pubs →
      ((∀ r, f.message args ≠ f'.message args →
          ¬ List.Sublist [f'.message args, f.message args] (sentTo g seenNodes r (sort batch))) ↔
        broadcastTargets g seenNodes i p = [] ∨ f.KeepsOrder args.delayNs f') := by
    intro f f' hsub
    rw [sentBefore_iff (hbatch f (hsub.subset (by simp))) (hbatch f' (hsub.subset (by simp)))
      (by rw [htargets, htargets]), htargets,
      Publication.cmpLe_iff_keepsOrder (pairwise_iff_forall_sublist.mp htimes hsub)]
  simp only [SentInOrder, pairwise_map]
  simp only [pairwise_iff_forall_sublist]
  constructor
  · intro h
    by_cases hnone : broadcastTargets g seenNodes i p = []
    · exact .inl hnone
    · refine .inr fun {f f'} hsub => ?_
      exact ((hpair f f' hsub).mp fun r => h r hsub).resolve_left hnone
  · intro h r f f' hsub
    refine (hpair f f' hsub).mpr ?_ r
    exact h.imp id fun hkeeps => hkeeps hsub

end

/-- **Exactly when the frames of a sender arrive in order.** Take any run of the loop and a turn of it
that releases a batch, and in that batch the messages of well-formed frames of one node and protocol,
published in the order of their embedded delivery times. The turn sends these messages to every
receiver in the order of publication if and only if nobody receives them or, for any two of them, the
coordinator reads delivery times of the protocol and the first one, delayed, is below `u64::MAX`, or
else the tie-break by sequence number, base topic and bytes happens to agree. -/
theorem framesInOrder_iff (fb : Flatbuffers) (jsonFromStr : String → Option JsonValue)
    (coordDoneReq : List UInt8 → Option CoordDoneReq) (seenOrder : IterationOrder UInt32)
    (args : Args) (topo : TopologyGraph) {env : Externals}
    (henv : env = flatbufferExternals fb jsonFromStr coordDoneReq seenOrder)
    (samples : List Sample) (x : Sample) {batch : List CoordMessage}
    (hrelease : releaseOf args env (loopAfter args env topo samples) x = some batch)
    {p : Protocol} {i : UInt32} (pubs : List (Publication fb p i))
    (htimes : pubs.Pairwise fun f f' => f.vtime < f'.vtime)
    (hbatch : ∀ m ∈ publishedMessages args env pubs, m ∈ batch) :
    ∃ seenNodes, (loopStep args env (loopAfter args env topo samples) x).2 =
        deliverBatch env.rf802154Builder args.pcapLog (loopAfter args env topo samples).topo seenNodes
          (sort batch) ++ (if args.pcapLog then [.flush] else []) ++
          startEffects args.nodes ((loopAfter args env topo samples).currentQuantum + 1) ∧
      ((∀ r, SentInOrder (publishedMessages args env pubs)
          (sentTo (loopAfter args env topo samples).topo seenNodes r (sort batch))) ↔
        broadcastTargets (loopAfter args env topo samples).topo seenNodes i p = [] ∨
          pubs.Pairwise (Publication.KeepsOrder args.delayNs)) := by
  obtain ⟨-, heffects⟩ := loopStep_of_release hrelease
  refine ⟨_, heffects, ?_⟩
  subst henv
  rw [publishedMessages_eq] at hbatch ⊢
  refine sentInOrder_iff pubs htimes fun f hf => hbatch _ ?_
  exact List.mem_map_of_mem hf

/-- A coordinator whose flatbuffers have their fields one behind the other. -/
def plainFrameExternals : Externals :=
  flatbufferExternals plainFlatbuffers (fun _ => none) (fun _ => none) (.insertion _)

/-- Two nodes, the default link delay of one millisecond, no log. -/
def pairArgs : Args := ⟨2, false, 1000000, false⟩

/-- The report of a node for quantum 1, with a limit of two milliseconds. -/
def pairDone (nodeId : String) : Sample :=
  .done (Templates.coordDone nodeId) (leBytes 8 1 ++ leBytes 8 2000000)

/-- A UART frame of node 0 with one byte. -/
def uartPublication (vtime seq : UInt64) (byte : UInt8) : Publication plainFlatbuffers .uart 0 where
  topic := "sim/uart/0/tx"
  base := "sim/uart"
  device := .chardev
  tx := ⟨encodeFrame vtime seq [byte], ⟨vtime, some seq, .bytes [byte]⟩, .chardev (by simp)⟩
  parsed := by decide +kernel
  speaks := Or.inl rfl

/-- Two UART frames of node 0 in one quantum. -/
def uartFrames : List (Publication plainFlatbuffers .uart 0) :=
  [uartPublication 255 1 9, uartPublication 256 2 7]

/-- Their batch. -/
def uartBatch : List CoordMessage :=
  [⟨0, broadcast, 1000255, 1, .uart, [9], some "sim/uart"⟩,
   ⟨0, broadcast, 1000256, 2, .uart, [7], some "sim/uart"⟩]

/-- The samples of a quantum of two nodes up to the last report: the frames of node 0 and its report. -/
def framesOf {p : Protocol} (pubs : List (Publication plainFlatbuffers p 0)) : List Sample :=
  pubs.map (fun f => .tx f.topic f.tx.bytes) ++ [pairDone "0"]

theorem releaseOf_uartFrames : releaseOf pairArgs plainFrameExternals
    (loopAfter pairArgs plainFrameExternals TopologyGraph.default (framesOf uartFrames))
    (pairDone "1") = some uartBatch := by
  decide +kernel

/-- The two UART frames are sent in order. -/
theorem framesInOrder_uart : ∃ seenNodes, ∀ r,
    SentInOrder (publishedMessages pairArgs plainFrameExternals uartFrames)
      (sentTo TopologyGraph.default seenNodes r (sort uartBatch)) := by
  obtain ⟨seenNodes, -, hiff⟩ := framesInOrder_iff plainFlatbuffers (fun _ => none) (fun _ => none)
    (.insertion _) pairArgs TopologyGraph.default rfl (framesOf uartFrames) (pairDone "1")
    releaseOf_uartFrames uartFrames (List.pairwise_pair.mpr (by decide)) (by decide +kernel)
  exact ⟨seenNodes, hiff.mpr (Or.inr (List.pairwise_pair.mpr (Or.inl ⟨rfl, by decide⟩)))⟩

/-- A CAN FD frame in the simplest layout, with the same number as time and sequence number. -/
def canBytes (n : UInt64) : List UInt8 :=
  leBytes 8 n.toNat ++ leBytes 8 n.toNat ++ leBytes 4 1 ++ leBytes 4 0 ++ [7]

/-- The CAN FD frame published by node 0. -/
def canPublication (n : UInt64)
    (hread : canHostRx plainFlatbuffers (canBytes n) = some ⟨n, some n, .can 1 0 [7]⟩) :
    Publication plainFlatbuffers .canFd 0 where
  topic := "sim/can/0/tx"
  base := "sim/can"
  device := .canHost
  tx := ⟨canBytes n, ⟨n, some n, .can 1 0 [7]⟩, .flatbuffer rfl hread⟩
  parsed := by decide +kernel
  speaks := rfl

/-- Two CAN FD frames of node 0 in one quantum, for the times 255 and 256. -/
def canFrames : List (Publication plainFlatbuffers .canFd 0) :=
  [canPublication 255 (by decide +kernel), canPublication 256 (by decide +kernel)]

/-- Their batch: both count as sent at time 0, and the bytes of 256 come before those of 255. -/
def canBatch : List CoordMessage :=
  [⟨0, broadcast, 1000000, 0, .canFd, canBytes 256, some "sim/can"⟩,
   ⟨0, broadcast, 1000000, 0, .canFd, canBytes 255, some "sim/can"⟩]

/-- Node 1 is sent the later CAN FD frame first. -/
theorem not_framesInOrder_can : canFrames.Pairwise (fun f f' => f.vtime < f'.vtime) ∧
    releaseOf pairArgs plainFrameExternals
      (loopAfter pairArgs plainFrameExternals TopologyGraph.default (framesOf canFrames))
      (pairDone "1") = some canBatch ∧
    (loopStep pairArgs plainFrameExternals
      (loopAfter pairArgs plainFrameExternals TopologyGraph.default (framesOf canFrames))
      (pairDone "1")).2 =
      deliverBatch plainFlatbuffers.rf802154Builder false TopologyGraph.default [0, 1] (sort canBatch) ++
        startEffects 2 2 ∧ publishedMessages pairArgs plainFrameExternals canFrames = canBatch.reverse ∧
    sentTo TopologyGraph.default [0, 1] 1 (sort canBatch) = canBatch ∧
    ¬ SentInOrder (publishedMessages pairArgs plainFrameExternals canFrames)
      (sentTo TopologyGraph.default [0, 1] 1 (sort canBatch)) := by
  refine ⟨List.pairwise_pair.mpr (by decide), ?_, ?_, ?_, ?_, ?_⟩ <;> decide +kernel

/-! ## The delay on the wire -/

section

variable {fb : Flatbuffers} {p : Protocol} {i : UInt32} {args : Args}

/-- A frame that is a flatbuffer is passed on as it came. -/
theorem Publication.legacyPayload_of_flatbuffer (f : Publication fb p i)
    (hflat : f.device.isFlatbuffer = true) (builder : Rf802154HeaderBuilder) :
    legacyPayload builder (f.message args) = f.tx.bytes := by
  obtain ⟨topic, base, device, ⟨bytes, frame, hwell⟩, parsed, speaks⟩ := f
  cases hwell with
  | flatbuffer _ hread =>
    cases device with
    | lpuart =>
      cases speaks
      obtain ⟨lin, -, rfl⟩ := map_eq_some_iff.mp hread
      rfl
    | canHost =>
      cases speaks
      obtain ⟨can, -, rfl⟩ := map_eq_some_iff.mp hread
      rfl
    | flexRay =>
      cases speaks
      obtain ⟨flexRay, -, rfl⟩ := map_eq_some_iff.mp hread
      rfl
    | netdev | chardev | spi | systemc | radio => cases hflat
  | netdev | chardev | spi | systemc | radio => cases hflat

/-- Any other frame is put together again, well-formed, with the delayed time. -/
theorem Publication.wellFormed_legacyPayload (f : Publication fb p i)
    (hflat : f.device.isFlatbuffer = false) :
    WellFormed fb f.device { f.tx.frame with vtime := saturatingAdd f.vtime args.delayNs }
      (legacyPayload fb.rf802154Builder (f.message args)) := by
  obtain ⟨topic, base, device, ⟨bytes, frame, hwell⟩, parsed, speaks⟩ := f
  cases hwell with
  | netdev hsize =>
    cases speaks
    exact .netdev hsize
  | chardev hsize => rcases speaks with rfl | rfl <;> exact .chardev hsize
  | spi hsize =>
    cases speaks
    exact .spi hsize
  | systemc =>
    cases speaks
    exact .systemc
  | radio hsize =>
    cases speaks
    exact .radio hsize
  | flatbuffer hd _ => exact absurd (hd.symm.trans hflat) (by decide)

theorem saturatingAdd_of_lt {a b : UInt64} (h : a.toNat + b.toNat < 2 ^ 64) :
    saturatingAdd a b = a + b := if_pos h

/-- The receiver reads the delayed time unless the frame is a flatbuffer and there is a delay. -/
theorem Publication.decode_legacyPayload_iff (f : Publication fb p i)
    (hsum : f.vtime.toNat + args.delayNs.toNat < 2 ^ 64) :
    f.device.decode fb (legacyPayload fb.rf802154Builder (f.message args)) =
        some { f.tx.frame with vtime := f.vtime + args.delayNs } ↔
      (f.device.isFlatbuffer = true → args.delayNs = 0) := by
  cases hflat : f.device.isFlatbuffer with
  | false =>
    have hdecode := (@Publication.wellFormed_legacyPayload _ _ _ args f hflat).decode
    rw [saturatingAdd_of_lt hsum] at hdecode
    simp [hdecode]
  | true =>
    rw [f.legacyPayload_of_flatbuffer hflat, f.tx.wellFormed.decode]
    -- the receiver reads the time the sender wrote
    have hframe : f.tx.frame = { f.tx.frame with vtime := f.vtime + args.delayNs } ↔
        f.vtime = f.vtime + args.delayNs := by
      constructor
      · exact fun h => congrArg Frame.vtime h
      · intro h
        rw [← h]
        rfl
    rw [Option.some.injEq, hframe, eq_comm, UInt64.add_eq_left]
    simp

end

/-- **Exactly when the link delay is on the wire.** Take a well-formed frame of any device on any TX
topic, with an embedded time that does not overflow under the delay. Whatever the topology, every
receiver it is routed to gets a put on its legacy RX topic, and what that receiver's decoder reads there
is the frame of the sender with the delayed time if and only if the frame is not a flatbuffer of its own
(LIN, CAN FD, FlexRay) or the delay is zero. -/
theorem linkDelay_iff (fb : Flatbuffers) (jsonFromStr : String → Option JsonValue)
    (coordDoneReq : List UInt8 → Option CoordDoneReq) (seenOrder : IterationOrder UInt32)
    (args : Args) {p : Protocol} {i : UInt32} (f : Publication fb p i)
    (hsum : f.vtime.toNat + args.delayNs.toNat < 2 ^ 64) :
    ∃ m, txMessage args (flatbufferExternals fb jsonFromStr coordDoneReq seenOrder) f.topic
        f.tx.bytes = some (i, some m) ∧ ∀ g seenNodes, ∀ t ∈ targetNodes g seenNodes m,
        Effect.put (f.base ++ "/" ++ nodeIdString t ++ "/rx") (legacyPayload fb.rf802154Builder m) ∈
          deliverMessage fb.rf802154Builder args.pcapLog g seenNodes m ∧
        (f.device.decode fb (legacyPayload fb.rf802154Builder m) =
            some { f.tx.frame with vtime := f.vtime + args.delayNs } ↔
          (f.device.isFlatbuffer = true → args.delayNs = 0)) := by
  refine ⟨f.message args, f.txMessage_eq, fun g seenNodes t ht => ⟨?_, ?_⟩⟩
  · rw [deliverMessage_eq, List.mem_flatMap]
    refine ⟨t, ht, List.mem_append_right _ ?_⟩
    exact List.mem_cons_of_mem _ (List.mem_singleton_self _)
  · exact f.decode_legacyPayload_iff hsum

/-- A UART frame for time 255 arrives with time 1000255. -/
theorem linkDelay_uart : ∃ m,
    txMessage pairArgs plainFrameExternals "sim/uart/0/tx" (encodeFrame 255 1 [9]) =
      some (0, some m) ∧ 1 ∈ targetNodes TopologyGraph.default [0, 1] m ∧
    chardevRx (legacyPayload plainFlatbuffers.rf802154Builder m) = some ⟨1000255, some 1, .bytes [9]⟩ := by
  obtain ⟨m, hm, hroutes⟩ := linkDelay_iff plainFlatbuffers (fun _ => none) (fun _ => none)
    (.insertion _) pairArgs (uartPublication 255 1 9) (by decide)
  have hread : txMessage pairArgs plainFrameExternals "sim/uart/0/tx" (encodeFrame 255 1 [9]) =
      some (0, some ⟨0, broadcast, 1000255, 1, .uart, [9], some "sim/uart"⟩) := by decide +kernel
  cases hm.symm.trans hread
  have htarget : 1 ∈ targetNodes TopologyGraph.default [0, 1]
      ⟨0, broadcast, 1000255, 1, .uart, [9], some "sim/uart"⟩ := by decide
  exact ⟨_, hread, htarget, (hroutes _ _ _ htarget).2.mpr (by decide)⟩

/-- A LIN frame in the simplest layout, for time 255. -/
def linBytes : List UInt8 := leBytes 8 255 ++ [0, 7]

/-- The message of the LIN frame. -/
def linMessage : CoordMessage := ⟨0, broadcast, 1000255, 0, .lin, linBytes, some "sim/lin"⟩

/-- A LIN frame for time 255 is routed to node 1 with a delay of one millisecond, and node 1 reads
time 255. -/
theorem not_linkDelay_lin : WellFormed plainFlatbuffers .lpuart ⟨255, none, .lin 0 [7]⟩ linBytes ∧
    txMessage pairArgs plainFrameExternals "sim/lin/0/tx" linBytes = some (0, some linMessage) ∧
    1 ∈ targetNodes TopologyGraph.default [0, 1] linMessage ∧
    Effect.put "sim/lin/1/rx" linBytes ∈ deliverMessage plainFlatbuffers.rf802154Builder
      pairArgs.pcapLog TopologyGraph.default [0, 1] linMessage ∧
    lpuartRx plainFlatbuffers linBytes = some ⟨255, none, .lin 0 [7]⟩ ∧
    lpuartRx plainFlatbuffers linBytes ≠ some ⟨255 + pairArgs.delayNs, none, .lin 0 [7]⟩ := by
  refine ⟨.flatbuffer rfl (by decide +kernel), ?_, ?_, ?_, ?_, ?_⟩ <;> decide +kernel

end Virtmcu.DeterministicCoordinator
