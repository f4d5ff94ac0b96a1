import Virtmcu.DeterministicCoordinator.Broadcast
import Virtmcu.Foundations.BufWriter
import Virtmcu.Foundations.Framing

/-! # The PCAP log of a run

`MessageLog` writes a file header and then one record for each target of each delivered message, through a
`BufWriter`. A reader that knows only the format (`readPcap`: skip the file header, then go from record to
record by the length in each record header) gets back the deliveries of the whole run in order, as long as
the casts of `write_message` to `u32` lose nothing and nothing is held back. The loop flushes the log when it
has released a quantum, and at no other time (`pcapLog_faithful_iff`). -/

namespace Virtmcu.DeterministicCoordinator

namespace MessageLog

/-! ## The file -/

/-- The size of the buffer of a `BufWriter::new`. -/
def bufSize : Nat := 8192

/-- The global header, write by write: magic number, version, time zone, accuracy, snap length, link
type. -/
def globalHeader : List (List UInt8) :=
  [leBytes 4 0xa1b2c3d4, leBytes 2 2, leBytes 2 4, leBytes 4 0, leBytes 4 0, leBytes 4 65535, leBytes 4 147]

/-- The log that `create` opens. -/
def create : BufWriter UInt8 := globalHeader.foldl (BufWriter.writeAll bufSize) {}

/-- The writes of `write_message`: six fields of four bytes, the protocol and the payload. -/
def recordWrites (record : List UInt8) : List (List UInt8) :=
  (List.range 6).map (fun i => (record.drop (4 * i)).take 4) ++ [(record.drop 24).take 2, record.drop 26]

/-- What an effect does to the log. -/
def perform (w : BufWriter UInt8) : Effect → BufWriter UInt8
  | .pcap record => (recordWrites record).foldl (BufWriter.writeAll bufSize) w
  | .flush => w.flush
  | .put _ _ => w

/-- The log after the effects. -/
def logAfter (effects : List Effect) : BufWriter UInt8 := effects.foldl perform create

/-- The records among the effects. -/
def logged (effects : List Effect) : List (List UInt8) :=
  effects.filterMap fun effect => match effect with
    | .pcap record => some record
    | _ => none

/-! ## A reader of the format -/

/-- A record as a reader of the format presents it, with its time in microseconds. -/
structure PcapRecord where
  timeMicros : Nat
  srcNodeId : UInt32
  dstNodeId : UInt32
  protocolId : Nat
  payload : List UInt8
  deriving DecidableEq, Repr

/-- A record header has 16 bytes; the captured length is the third of its four fields. -/
def recordFraming : Framing UInt8 where
  headerLen := 16
  packetLen header := 16 + leNat ((header.drop 8).take 4)
  headerLen_pos := by decide

/-- The fields of a record, behind each other. -/
def parseRecord (record : List UInt8) : PcapRecord where
  timeMicros := leNat (record.take 4) * 1000000 + leNat ((record.drop 4).take 4)
  srcNodeId := (leNat ((record.drop 16).take 4)).toUInt32
  dstNodeId := (leNat ((record.drop 20).take 4)).toUInt32
  protocolId := leNat ((record.drop 24).take 2)
  payload := record.drop 26

/-- The records of a file. -/
def readPcap (bytes : List UInt8) : Option (List PcapRecord) :=
  if bytes.take 24 = globalHeader.flatten then (recordFraming.packets (bytes.drop 24)).map fun ps => ps.map parseRecord
  else none

/-! ## One record -/

/-- The casts to `u32` lose nothing: the payload is shorter than `2 ^ 32 - 10` bytes and the delivery
time is below `2 ^ 32` seconds. -/
def IsLoggable (msg : CoordMessage) : Prop :=
  msg.payload.length < 2 ^ 32 - 10 ∧ msg.deliveryVtimeNs.toNat < 2 ^ 32 * 1000000000

instance (msg : CoordMessage) : Decidable (IsLoggable msg) := inferInstanceAs (Decidable (_ ∧ _))

/-- The record of a message for a target. -/
def recordOf (target : UInt32) (msg : CoordMessage) : PcapRecord :=
  ⟨msg.deliveryVtimeNs.toNat / 1000, msg.srcNodeId, target, pcapProtocolId msg.protocol, msg.payload⟩

/-- A record as its fields, behind each other. -/
theorem writeMessage_eq (msg : CoordMessage) : writeMessage msg =
    leBytes 4 (msg.deliveryVtimeNs.toNat / 1000000000) ++
      (leBytes 4 (msg.deliveryVtimeNs.toNat % 1000000000 / 1000) ++
        (leBytes 4 (msg.payload.length + 10) ++ (leBytes 4 (msg.payload.length + 10) ++
          (leBytes 4 msg.srcNodeId.toNat ++ (leBytes 4 msg.dstNodeId.toNat ++
            (leBytes 2 (pcapProtocolId msg.protocol) ++ msg.payload)))))) := by
  simp only [writeMessage, List.append_assoc]

theorem length_writeMessage (msg : CoordMessage) : (writeMessage msg).length = 26 + msg.payload.length := by
  rw [writeMessage_eq]
  simp only [List.length_append, length_leBytes]
  omega

/-- A loggable message makes a whole record. -/
theorem isPacket_writeMessage {msg : CoordMessage} (h : IsLoggable msg) :
    recordFraming.IsPacket (writeMessage msg) := by
  have hlen := length_writeMessage msg
  have hpayload : msg.payload.length + 10 < 256 ^ 4 := by
    have hlt := h.1
    omega
  have hheader : 16 ≤ (writeMessage msg).length := by omega
  refine ⟨hheader, ?_⟩
  have hfield : (((writeMessage msg).take 16).drop 8).take 4 =
      leBytes 4 (msg.payload.length + 10) := by
    rw [List.drop_take, List.take_take, Nat.min_eq_left (by decide), writeMessage_eq]
    simp (disch := decide) only [drop_leBytes_append_of_le, take_leBytes_append, Nat.reduceSub,
      List.drop_zero]
  show 16 + leNat ((((writeMessage msg).take 16).drop 8).take 4) = _
  rw [hfield, leNat_leBytes_of_lt hpayload, hlen]
  omega

/-- **A record is read back**, its time rounded down to microseconds. -/
theorem parseRecord_writeMessage {msg : CoordMessage} (h : IsLoggable msg) (target : UInt32) :
    parseRecord (writeMessage { msg with dstNodeId := target }) = recordOf target msg := by
  obtain ⟨-, htime⟩ := h
  have hsec : msg.deliveryVtimeNs.toNat / 1000000000 < 256 ^ 4 := by omega
  have husec : msg.deliveryVtimeNs.toNat % 1000000000 / 1000 < 256 ^ 4 := by omega
  have hproto : pcapProtocolId msg.protocol < 256 ^ 2 := by cases msg.protocol <;> decide
  have hmicros : msg.deliveryVtimeNs.toNat / 1000000000 * 1000000 +
      msg.deliveryVtimeNs.toNat % 1000000000 / 1000 = msg.deliveryVtimeNs.toNat / 1000 := by omega
  rw [writeMessage_eq, parseRecord, recordOf]
  -- field after field is skipped
  simp (disch := decide) only [drop_leBytes_append_of_le, take_leBytes_append, Nat.reduceSub,
    List.drop_zero, toUInt32_leNat_leBytes, leNat_leBytes_of_lt hsec, leNat_leBytes_of_lt husec,
    leNat_leBytes_of_lt hproto, hmicros]

/-! ## The log of a list of deliveries -/

theorem flatten_recordWrites (record : List UInt8) : (recordWrites record).flatten = record := by
  have h (n k : ℕ) : (record.drop n).take k ++ record.drop (n + k) = record.drop n := by
    rw [← List.drop_drop, List.take_append_drop]
  show record.take 4 ++ ((record.drop 4).take 4 ++ ((record.drop 8).take 4 ++ ((record.drop 12).take 4 ++
    ((record.drop 16).take 4 ++ ((record.drop 20).take 4 ++ ((record.drop 24).take 2 ++
      (record.drop 26 ++ []))))))) = record
  rw [List.append_nil, h, h, h, h, h, h, List.take_append_drop]

/-- All records get into the log, in order. -/
theorem content_foldl_perform (effects : List Effect) (w : BufWriter UInt8) :
    (effects.foldl perform w).content = w.content ++ (logged effects).flatten := by
  induction effects generalizing w with
  | nil => simp [logged]
  | cons effect effects ih =>
    rw [List.foldl_cons, ih]
    cases effect with
    | pcap record => simp [perform, logged, BufWriter.content_foldl_writeAll, flatten_recordWrites]
    | flush => simp [perform, logged, BufWriter.flush, BufWriter.content]
    | put topic payload => rfl

/-- A record is held back, at least in part, unless its payload is as large as the buffer. -/
theorem perform_pcap_buf_eq_nil_iff (w : BufWriter UInt8) (msg : CoordMessage) :
    (perform w (.pcap (writeMessage msg))).buf = [] ↔ bufSize ≤ msg.payload.length := by
  have hlen := length_writeMessage msg
  have hproto : (((writeMessage msg).drop 24).take 2).length = 2 := by
    rw [List.length_take, List.length_drop]
    omega
  have hpayload : ((writeMessage msg).drop 26).length = msg.payload.length := by
    rw [List.length_drop]
    omega
  rw [perform, recordWrites, List.foldl_append, List.foldl_cons, List.foldl_cons, List.foldl_nil,
    BufWriter.writeAll_buf_eq_nil_iff (by decide), BufWriter.writeAll_buf_eq_nil_iff (by decide), hproto,
    hpayload, ← List.length_eq_zero_iff, ← List.length_eq_zero_iff, hproto]
  simp [bufSize]

/-- **A log of loggable messages is read back**, one record per delivery and in order, exactly if nothing of
it is held back. -/
theorem readPcap_iff {w : BufWriter UInt8} {ds : List (UInt32 × CoordMessage)}
    (h : ∀ d ∈ ds, IsLoggable d.2) (hw : w.content = globalHeader.flatten ++
      (ds.map fun d => writeMessage { d.2 with dstNodeId := d.1 }).flatten) :
    readPcap w.file = some (ds.map fun d => recordOf d.1 d.2) ↔ w.buf = [] := by
  have hpackets : ∀ p ∈ ds.map fun d => writeMessage { d.2 with dstNodeId := d.1 },
      recordFraming.IsPacket p := by
    intro p hp
    obtain ⟨d, hd, rfl⟩ := List.mem_map.mp hp
    exact isPacket_writeMessage (h d hd)
  have hlen : globalHeader.flatten.length = 24 := by decide
  constructor
  · intro hread
    rw [readPcap] at hread
    split at hread
    · rename_i hheader
      obtain ⟨ps, hps, hrecords⟩ := Option.map_eq_some_iff.mp hread
      obtain ⟨hall, hflat⟩ := Framing.packetsUpTo_eq_some (fun _ => Nat.le_add_right _ _) hps
      -- the file ends behind a record, and it has as many of them as the log
      rw [BufWriter.content, ← List.take_append_drop 24 w.file, hheader, ← hflat, List.append_assoc,
        List.append_right_inj] at hw
      have hsplit := Framing.IsSplit.longest ⟨hpackets, List.append_nil _, rfl⟩ hall ⟨w.buf, hw⟩
      have hcount := congrArg List.length hrecords
      rw [List.length_map, List.length_map] at hcount
      rw [hsplit.eq_of_length (by rw [List.length_map, hcount])] at hw
      exact List.append_right_eq_self.mp hw
    · cases hread
  · intro hbuf
    rw [BufWriter.content, hbuf, List.append_nil] at hw
    rw [hw, readPcap, List.take_left' hlen, if_pos rfl, List.drop_left' hlen,
      recordFraming.packets_flatten hpackets, Option.map_some, List.map_map]
    refine congrArg some (List.map_congr_left fun d hd => ?_)
    exact parseRecord_writeMessage (h d hd) d.1

/-! ## What the loop logs -/

theorem logged_append (effects effects' : List Effect) :
    logged (effects ++ effects') = logged effects ++ logged effects' :=
  List.filterMap_append

theorem logged_flatMap {α : Type*} (l : List α) (f : α → List Effect) :
    logged (l.flatMap f) = l.flatMap fun a => logged (f a) := by
  induction l with
  | nil => rfl
  | cons a l ih => rw [List.flatMap_cons, List.flatMap_cons, logged_append, ih]

/-- A batch logs its deliveries, one record each. -/
theorem logged_deliverBatch (builder : Rf802154HeaderBuilder) (g : TopologyGraph)
    (seenNodes : List UInt32) (msgs : List CoordMessage) :
    logged (deliverBatch builder true g seenNodes msgs) =
      (deliveries g seenNodes msgs).map fun d => writeMessage { d.2 with dstNodeId := d.1 } := by
  rw [deliverBatch_eq, logged_flatMap]
  exact List.flatMap_pure_eq_map _ _

/-- Flushing and starting log nothing. -/
theorem logged_afterDelivery (args : Args) (env : Externals) (s : LoopState args.nodes) (x : Sample) :
    logged (afterDelivery args env s x) = [] := by
  have hstart : ∀ q, logged (startEffects args.nodes q) = [] := by
    intro q
    refine List.filterMap_eq_nil_iff.mpr fun effect heffect => ?_
    obtain ⟨i, -, rfl⟩ := List.mem_map.mp heffect
    rfl
  unfold afterDelivery
  split
  · rw [logged_append, hstart]
    cases args.pcapLog <;> rfl
  · rfl

end MessageLog

open MessageLog

section Run

variable (args : Args) (env : Externals) (topo : TopologyGraph)

/-- The deliveries of a turn: receivers and messages, in order. -/
def turnDeliveries (e : LoopEntry args) : List (UInt32 × CoordMessage) :=
  deliveries e.before.topo (env.seenOrder.visit e.after.seenNodes.toList)
    (handedOver args env e.before e.input)

/-- The deliveries of a run, in order. -/
def loopDeliveries (samples : List Sample) : List (UInt32 × CoordMessage) :=
  (loopRun args env topo samples).flatMap (turnDeliveries args env)

/-- The run logs its deliveries. -/
theorem logged_loopEffects (hlog : args.pcapLog = true) (samples : List Sample) :
    logged (loopEffects args env topo samples) =
      (loopDeliveries args env topo samples).map fun d => writeMessage { d.2 with dstNodeId := d.1 } := by
  rw [loopEffects, loopDeliveries, logged_flatMap, List.map_flatMap]
  refine List.flatMap_congr fun e he => ?_
  obtain ⟨pre, x, post, -, rfl⟩ := (mem_entries _).mp he
  rw [entryAt_output, loopStep_output, logged_append, logged_afterDelivery, List.append_nil, hlog,
    logged_deliverBatch]
  rfl

/-- What a turn hands over is in order of delivery time. -/
theorem pairwise_handedOver (s : LoopState args.nodes) (x : Sample) :
    (handedOver args env s x).Pairwise fun m m' => m.deliveryVtimeNs ≤ m'.deliveryVtimeNs := by
  unfold handedOver
  split
  · -- one frame at most
    split
    · cases (txMessage args env _ _).bind Prod.snd with
      | none => exact List.Pairwise.nil
      | some m => exact List.pairwise_singleton _ m
    · exact List.Pairwise.nil
  · exact List.Pairwise.nil
  · cases releaseOf args env s _ with
    | none => exact List.Pairwise.nil
    | some batch =>
      refine (pairwise_sortBy CoordMessage.cmp batch).imp fun {m m'} hle => ?_
      rcases cmpLe_lexicographic hle with hlt | ⟨heq, -⟩
      · exact UInt64.le_of_lt hlt
      · exact heq ▸ UInt64.le_refl _

/-- So the record times of a turn never decrease. -/
theorem pairwise_timeMicros (e : LoopEntry args) :
    ((turnDeliveries args env e).map fun d => (recordOf d.1 d.2).timeMicros).Pairwise (· ≤ ·) := by
  rw [List.pairwise_map, turnDeliveries, deliveries, List.pairwise_flatMap]
  refine ⟨?_, ?_⟩
  · -- the targets of one message
    intro m _
    rw [List.pairwise_map]
    exact List.pairwise_of_forall fun _ _ => Nat.le_refl _
  · refine (pairwise_handedOver args env e.before e.input).imp fun {m m'} hle d hd d' hd' => ?_
    obtain ⟨t, -, rfl⟩ := List.mem_map.mp hd
    obtain ⟨t', -, rfl⟩ := List.mem_map.mp hd'
    exact Nat.div_le_div_right (UInt64.le_iff_toNat_le.mp hle)

/-- What a turn means for the log: a released quantum has it flushed; a frame that is delivered without a
quantum stays in the buffer if it fits. Other turns leave it as it is. -/
def saves (e : LoopEntry args) : Option Bool :=
  if (releaseOf args env e.before e.input).isSome then some true
  else (turnDeliveries args env e).getLast?.map fun d => bufSize ≤ d.2.payload.length

/-- The last turn that released a quantum or delivered something left nothing in the buffer. -/
def Saved (samples : List Sample) : Prop :=
  ((loopRun args env topo samples).filterMap (saves args env)).getLast? = some true

/-- What the effects of a turn leave in the buffer. -/
theorem foldl_perform_buf_eq_nil_iff (hlog : args.pcapLog = true) (s : LoopState args.nodes) (x : Sample)
    (w : BufWriter UInt8) : ((loopStep args env s x).2.foldl perform w).buf = [] ↔
      (saves args env (entryAt (loopStep args env) s x)).getD (w.buf = []) = true := by
  have hstart (q : UInt64) (w : BufWriter UInt8) : (startEffects args.nodes q).foldl perform w = w := by
    rw [startEffects, List.foldl_map]
    exact List.foldl_fixed _
  have hput (w : BufWriter UInt8) (topic : String) (payload : List UInt8) :
      perform w (.put topic payload) = w := rfl
  rw [loopStep_output, List.foldl_append, afterDelivery, saves, entryAt_before, entryAt_input]
  cases releaseOf args env s x with
  | some batch => simp [hlog, hstart, perform, BufWriter.flush]
  | none =>
    rw [deliverBatch_eq, hlog]
    show _ ↔ (((turnDeliveries args env (entryAt (loopStep args env) s x)).getLast?.map _).getD _) = true
    rw [turnDeliveries, entryAt_before, entryAt_input, entryAt_after]
    generalize deliveries s.topo _ (handedOver args env s x) = ds
    -- only the last delivery counts
    induction ds using List.reverseRecOn with
    | nil => simp
    | append_singleton ds d _ =>
      rw [List.flatMap_append, List.foldl_append, List.getLast?_concat]
      simp only [List.foldl_nil, List.flatMap_singleton, deliverTo, if_true, List.singleton_append,
        List.foldl_cons, hput, Option.map_some, Option.getD_some, decide_eq_true_eq]
      exact perform_pcap_buf_eq_nil_iff _ _

/-- The buffer of the log along a run. -/
theorem logAfter_buf_eq_nil_iff (hlog : args.pcapLog = true) (samples : List Sample) :
    (logAfter (loopEffects args env topo samples)).buf = [] ↔ Saved args env topo samples := by
  induction samples using List.reverseRecOn with
  | nil => exact iff_of_false (by decide : create.buf ≠ []) nofun
  | append_singleton samples x ih =>
    rw [loopEffects_concat, logAfter, List.foldl_append, ← logAfter,
      foldl_perform_buf_eq_nil_iff args env hlog, Saved, loopRun, entries_concat, List.filterMap_append,
      ← loopRun]
    simp only [List.filterMap_cons, List.filterMap_nil]
    cases hsaves : saves args env (entryAt (loopStep args env) (loopAfter args env topo samples) x) with
    | none =>
      rw [loopAfter] at hsaves
      rw [hsaves, List.append_nil, Option.getD_none, decide_eq_true_eq, ih, Saved]
    | some b =>
      rw [loopAfter] at hsaves
      rw [hsaves, List.getLast?_concat, Option.getD_some, Option.some.injEq]

/-- The puts of a turn are those of its deliveries, and then the START messages of a released quantum. -/
theorem filter_isPut_loopStep (s : LoopState args.nodes) (x : Sample) :
    (loopStep args env s x).2.filter Effect.isPut =
      (turnDeliveries args env (entryAt (loopStep args env) s x)).flatMap
          (fun d => putsTo env.rf802154Builder d.2 d.1) ++
        if (releaseOf args env s x).isSome then startEffects args.nodes (s.currentQuantum + 1) else [] := by
  have hstart (q : UInt64) : (startEffects args.nodes q).filter Effect.isPut = startEffects args.nodes q := by
    rw [List.filter_eq_self]
    intro effect heffect
    obtain ⟨i, -, rfl⟩ := List.mem_map.mp heffect
    rfl
  rw [loopStep_output, List.filter_append, filter_isPut_deliverBatch, turnDeliveries, deliveries,
    List.flatMap_assoc, batchPuts, afterDelivery]
  simp only [List.flatMap_map]
  congr 1
  cases releaseOf args env s x with
  | none => rfl
  | some batch =>
    rw [List.filter_append, hstart]
    cases args.pcapLog <;> rfl

/-- **When the PCAP log is faithful.** In every run with a log whose messages are loggable: reading the file by
its record headers yields one record per delivered pair of message and target, in delivery order, with
source, target, protocol, payload and the delivery time rounded down to microseconds, exactly if the last turn
that released a quantum or delivered something left nothing in the buffer. These pairs are what is put, turn
by turn, and the record times of a released quantum never decrease. -/
theorem pcapLog_faithful_iff (hlog : args.pcapLog = true) (samples : List Sample)
    (hloggable : ∀ e ∈ loopRun args env topo samples, ∀ m ∈ handedOver args env e.before e.input,
      IsLoggable m) : (readPcap (logAfter (loopEffects args env topo samples)).file =
        some ((loopDeliveries args env topo samples).map fun d => recordOf d.1 d.2) ↔
      Saved args env topo samples) ∧ ∀ e ∈ loopRun args env topo samples,
      (e.output.filter Effect.isPut = (turnDeliveries args env e).flatMap
          (fun d => putsTo env.rf802154Builder d.2 d.1) ++
        if (releaseOf args env e.before e.input).isSome then
          startEffects args.nodes (e.before.currentQuantum + 1) else []) ∧
      ((releaseOf args env e.before e.input).isSome = true →
        ((turnDeliveries args env e).map fun d => (recordOf d.1 d.2).timeMicros).Pairwise (· ≤ ·)) := by
  constructor
  · rw [← logAfter_buf_eq_nil_iff args env topo hlog]
    refine readPcap_iff (fun d hd => ?_) ?_
    · obtain ⟨e, he, hd⟩ := List.mem_flatMap.mp hd
      obtain ⟨m, hm, hd⟩ := List.mem_flatMap.mp hd
      obtain ⟨t, -, rfl⟩ := List.mem_map.mp hd
      exact hloggable e he m hm
    · rw [logAfter, content_foldl_perform, logged_loopEffects args env topo hlog, create,
        BufWriter.content_foldl_writeAll]
      rfl
  · intro e he
    obtain ⟨pre, x, post, -, rfl⟩ := (mem_entries _).mp he
    exact ⟨filter_isPut_loopStep args env _ x, fun _ => pairwise_timeMicros args env _⟩

end Run

/-- Two coordinated nodes with a log. -/
def loggedArgs : Args := ⟨2, false, 1000000, true⟩

/-- The report of a node that it is done with the first quantum. -/
def firstDone (topic : String) : Sample := .done topic (leBytes 8 1 ++ leBytes 8 2000000)

/-- A frame of node 0. -/
def loggedFrame : Sample := .tx "sim/uart/0/tx" (encodeFrame 500999 1 [7])

/-- A quantum in which node 0 sends one frame. -/
def loggedQuantum : List Sample :=
  [loggedFrame, firstDone "sim/coord/0/done", firstDone "sim/coord/1/done"]

/-- The frame is logged once, for node 1, at 1.500999 ms rounded down. -/
theorem pcapLog_faithful_quantum :
    readPcap (logAfter (loopEffects loggedArgs plainExternals TopologyGraph.default loggedQuantum)).file =
      some [⟨1500, 0, 1, 2, [7]⟩] := by
  have hread := (pcapLog_faithful_iff loggedArgs plainExternals TopologyGraph.default rfl loggedQuantum
    (by decide +kernel)).1.mpr (by unfold Saved; decide +kernel)
  rw [hread]
  decide +kernel

/-- The same frame without coordination is put to node 1, and the file stays empty. -/
theorem pcapLog_unflushed :
    let effects := loopEffects { loggedArgs with noPdes := true } plainExternals TopologyGraph.default
      [loggedFrame]
    (effects.filter Effect.isPut).length = 2 ∧ (logAfter effects).file = [] ∧
      readPcap (logAfter effects).file = none := by
  decide +kernel

end Virtmcu.DeterministicCoordinator
