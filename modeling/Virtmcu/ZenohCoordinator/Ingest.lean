import Virtmcu.ZenohCoordinator.Topology
import Virtmcu.DeterministicCoordinator.EventLoop
import Virtmcu.Devices.Frames

/-! # From samples to messages

The handlers of the Zenoh coordinator: each takes a sample of one TX subscription and makes a message
for every destination. They share their frame (parse the topic, remember the sender, find the
destinations) and differ in how they read the payload, in whether they test the link again, and in
whether they inject the faults a link is configured with:

* `handleFrameMsg` is the body of `handle_eth_msg` and `handle_uart_msg`, the two handlers that draw
  from the random generator;
* `handleLinMsg`, `handleSyscMsg` and `handleRfMsg` have bodies of their own;
* `decodeBatch` reads the batches of `sim/coord`.

A handler answers `none` where the source panics. Drop probabilities and random fractions are finite
doubles and are only compared, so they are rational numbers here; coordinates and signal levels are
IEEE numbers, and nothing proved here looks at their rounding. -/

namespace Virtmcu.ZenohCoordinator

open DeterministicCoordinator (saturatingAdd ZenohFrameHeader zenohFrameHeaderSize encodeFrame
  encodeRf802154Frame CursorRead readExact readU8 readU32 readU64)
open Devices (LinFrame Rf802154Header Flatbuffers)

/-! ## Topics -/

/-- The text ends with `pat`. -/
def endsWithStr (s pat : String) : Bool := decide (pat.toList <:+ s.toList)

/-- `parse_topic_with_prefix`: what stands before the first `sim` or `virtmcu` segment, the base topic
and the node. FlexRay topics are refused. -/
def parseTopicWithPrefix (topic : String) : Option (String × String × String) :=
  let parts := split '/' topic
  if containsStr topic "sim/flexray" then none
  else
    let px := match parts.findIdx? fun p => p = "sim" ∨ p = "virtmcu" with
      | some idx => "/".intercalate (parts.take idx)
      | none => ""
    if endsWithStr topic "/tx" ∧ 2 ≤ parts.length then
      some (px, "/".intercalate (parts.take (parts.length - 2)),
        (parts[parts.length - 2]?).getD "")
    else
      -- a topic without `/tx` is its own base, and its node has no name
      some (px, topic, "")

/-! ## What the loop remembers -/

/-- The nodes seen so far, by base topic. -/
abbrev Known := HashMap String (HashSet String)

/-- `known.entry(base).or_default().insert(src)`. -/
def Known.note (known : Known) (base src : String) : Known :=
  known.insert base (((known.get base).getD ⟨[], List.nodup_nil⟩).insert src)

/-- `LinkState`, without the collision flag that no handler reads. -/
structure LinkState where
  delayNs : UInt64
  dropProbability : Rat
  jitterNs : UInt64
  deriving DecidableEq, Repr

/-- The configured links, by topic part in front, source and destination. -/
abbrev Links := HashMap (String × String × String) LinkState

/-- The settings of a link; one that was never configured has the common delay and no faults. -/
def Links.state (links : Links) (delay : UInt64) (px src dst : String) : LinkState :=
  (links.get (px, src, dst)).getD ⟨delay, 0, 0⟩

/-- `ChaCha8Rng`: a seeded generator of fractions and of numbers up to a bound. -/
structure Rng (σ : Type) where
  seedFromU64 : UInt64 → σ
  /-- `gen::<f64>()`. -/
  genF64 : σ → Rat × σ
  /-- `gen_range(0..=hi)`. -/
  genRange : UInt64 → σ → UInt64 × σ
  genF64_mem : ∀ s, 0 ≤ (genF64 s).1 ∧ (genF64 s).1 < 1
  genRange_le : ∀ hi s, (genRange hi s).1 ≤ hi

/-- `TopologyUpdate`. -/
structure TopologyUpdate where
  fromNode : String
  toNode : String
  delayNs : Option UInt64
  dropProbability : Option Rat
  jitterNs : Option UInt64
  deriving DecidableEq, Repr

/-- The crates that read and build payloads. -/
structure Externals where
  flatbuffers : Flatbuffers
  /-- `LinFrame::create` and `finish`. -/
  createLinFrame : LinFrame → List UInt8
  /-- `from_utf8` and `serde_json::from_str::<TopologyUpdate>`. -/
  topologyUpdate : List UInt8 → Option TopologyUpdate
  /-- `from_utf8` and `serde_json::from_str::<PositionUpdate>`: the node and where it is now. -/
  positionUpdate : List UInt8 → Option (String × Position)

/-! ## Destinations -/

/-- The destination set of a wired frame: the peers on the wires of an explicit topology, and
otherwise every other node seen under the base topic. -/
def destNodes (tg : TopologyGraph) (known : Known) (base src : String) (protocol : Protocol) :
    HashSet String :=
  if tg.isExplicit then tg.getWirePeers src protocol
  else match known.get base with
    | some nodes => HashSet.ofList (nodes.toList.filter fun dst => dst ≠ src)
    | none => ⟨[], List.nodup_nil⟩

/-! ## Faults -/

/-- What a handler with faults decides for one destination. -/
inductive Fate
  /-- The topology forbids the link. -/
  | denied
  /-- The frame is dropped at random. -/
  | dropped
  /-- The frame goes out, delayed by the drawn jitter if the link has any. -/
  | passed (jitter : Option UInt64)
  deriving DecidableEq, Repr

/-- The random decisions for one destination. Nothing is drawn for a probability or a jitter of 0. -/
def Rng.fate {σ : Type} (rng : Rng σ) (link : LinkState) (s : σ) : Fate × σ :=
  let (isDropped, s) :=
    if 0 < link.dropProbability then
      (decide ((rng.genF64 s).1 < link.dropProbability), (rng.genF64 s).2)
    else (false, s)
  if isDropped then (.dropped, s)
  else if 0 < link.jitterNs then
    (.passed (some (rng.genRange link.jitterNs s).1), (rng.genRange link.jitterNs s).2)
  else (.passed none, s)

/-- One round of the loop over the destinations: a forbidden one is skipped before anything is drawn
for it. -/
def destFate {σ : Type} (rng : Rng σ) (isAllowed : String → Bool) (link : String → LinkState)
    (dst : String) (s : σ) : Fate × σ :=
  if isAllowed dst then rng.fate (link dst) s else (.denied, s)

/-- The loop over the destinations: the generator is handed from one to the next. -/
def fates {σ : Type} (rng : Rng σ) (isAllowed : String → Bool) (link : String → LinkState) :
    List String → σ → List (String × Fate) × σ
  | [], s => ([], s)
  | dst :: dsts, s =>
      let (fate, s) := destFate rng isAllowed link dst s
      let (rest, s) := fates rng isAllowed link dsts s
      ((dst, fate) :: rest, s)

/-- The actual delay of a frame that goes out. -/
def actualDelay (link : LinkState) : Option UInt64 → UInt64
  | some jitter => saturatingAdd link.delayNs jitter
  | none => link.delayNs

/-! ## Ethernet and UART -/

/-- What a handler leaves behind: the nodes it knows, the generator, its decisions and its messages. -/
structure Handled (σ : Type) where
  known : Known
  rng : σ
  fates : List (String × Fate)
  msgs : List CoordMessage

/-- How `handle_eth_msg` and `handle_uart_msg` read a payload: `none` is a panic, `some none` a return.
The data is cut out from byte **20** on, four bytes before the header ends. -/
def readFrame (p : List UInt8) : Option (Option (ZenohFrameHeader × List UInt8)) :=
  if p.length < 20 then some none
  else match ZenohFrameHeader.unpackSlice p with
    | none => none
    | some h =>
        if p.length < zenohFrameHeaderSize + h.size.toNat then some none
        else some (some (h, (p.drop 20).take (zenohFrameHeaderSize + h.size.toNat - 20)))

section Handlers

variable {σ : Type} (env : Externals) (rng : Rng σ) (tg : TopologyGraph) (links : Links)
  (delay : UInt64) (order : IterationOrder String) (known : Known)

/-- The message for one destination of an Ethernet or UART frame, if it goes out. -/
def frameMessage (protocol : Protocol) (px base src : String) (h : ZenohFrameHeader)
    (data : List UInt8) : String × Fate → Option CoordMessage
  | (dst, .passed jitter) =>
      let act := actualDelay (links.state delay px src dst) jitter
      some ⟨src, dst, base, saturatingAdd h.deliveryVtimeNs act, h.sequenceNumber, protocol, data⟩
  | (_, _) => none

/-- The common body of `handle_eth_msg` and `handle_uart_msg`. The loop visits the destination set in
the order `order`. -/
def handleFrameMsg (protocol : Protocol) (s : σ) (topic : String) (p : List UInt8) :
    Option (Handled σ) :=
  match parseTopicWithPrefix topic with
  | none => some ⟨known, s, [], []⟩
  | some (px, base, src) =>
      let known := known.note base src
      match readFrame p with
      | none => none
      | some none => some ⟨known, s, [], []⟩
      | some (some (h, data)) =>
          let dests := (destNodes tg known base src protocol).reorder order
          let (decisions, s) := fates rng (fun dst => tg.isLinkAllowed src dst protocol)
            (links.state delay px src) dests.toList s
          some ⟨known, s, decisions,
            decisions.filterMap (frameMessage links delay protocol px base src h data)⟩

variable {rng tg links delay order known} in
/-- The common body either returns early or runs the loop over the destinations. -/
theorem handleFrameMsg_cases {protocol : Protocol} {s : σ} {topic : String} {p : List UInt8}
    {r : Handled σ} (h : handleFrameMsg rng tg links delay order known protocol s topic p = some r) :
    (r.fates = [] ∧ r.msgs = [] ∧ r.rng = s ∧
      (parseTopicWithPrefix topic = none ∨ readFrame p = some none)) ∨
    ∃ px base src header data, parseTopicWithPrefix topic = some (px, base, src) ∧
      readFrame p = some (some (header, data)) ∧
      (r.fates, r.rng) = fates rng (fun dst => tg.isLinkAllowed src dst protocol) (links.state delay px src)
        ((destNodes tg (known.note base src) base src protocol).reorder order).toList s ∧
      r.msgs = r.fates.filterMap (frameMessage links delay protocol px base src header data) := by
  unfold handleFrameMsg at h
  split at h
  · next htopic =>
      obtain rfl := Option.some.inj h
      exact .inl ⟨rfl, rfl, rfl, .inl htopic⟩
  · next px base src htopic =>
      split at h
      · cases h
      · next hread =>
          obtain rfl := Option.some.inj h
          exact .inl ⟨rfl, rfl, rfl, .inr hread⟩
      · next header data hread =>
          obtain rfl := Option.some.inj h
          exact .inr ⟨px, base, src, header, data, htopic, hread, rfl, rfl⟩

/-- `handle_eth_msg`. -/
def handleEthMsg : σ → String → List UInt8 → Option (Handled σ) :=
  handleFrameMsg rng tg links delay order known .ethernet

/-- `handle_uart_msg`. -/
def handleUartMsg : σ → String → List UInt8 → Option (Handled σ) :=
  handleFrameMsg rng tg links delay order known .uart

/-! ## LIN and SystemC -/

/-- `handle_lin_msg`: the link is tested, faults are not injected, and the frame is built anew. -/
def handleLinMsg (topic : String) (p : List UInt8) : Known × List CoordMessage :=
  match parseTopicWithPrefix topic with
  | none => (known, [])
  | some (px, base, src) =>
      let known := known.note base src
      match env.flatbuffers.linFrame p with
      | none => (known, [])
      | some frame =>
          let dests := (destNodes tg known base src .lin).reorder order
          (known, (dests.toList.filter fun dst => tg.isLinkAllowed src dst .lin).map fun dst =>
            let vtime := saturatingAdd frame.deliveryVtimeNs (links.state delay px src dst).delayNs
            ⟨src, dst, base, vtime, 0, .lin, env.createLinFrame { frame with deliveryVtimeNs := vtime }⟩)

/-- `handle_sysc_msg`: destinations are looked up under SPI and **not** tested again, and the message
is labelled Ethernet. -/
def handleSyscMsg (topic : String) (p : List UInt8) : Known × List CoordMessage :=
  match parseTopicWithPrefix topic with
  | none => (known, [])
  | some (px, base, src) =>
      let known := known.note base src
      match ZenohFrameHeader.unpackSlice p with
      | none => (known, [])
      | some h =>
          if p.length < zenohFrameHeaderSize + h.size.toNat then (known, [])
          else
            -- here the data is cut out behind the whole header
            let data := (p.drop zenohFrameHeaderSize).take h.size.toNat
            let dests := (destNodes tg known base src .spi).reorder order
            (known, dests.toList.map fun dst =>
              ⟨src, dst, base, saturatingAdd h.deliveryVtimeNs (links.state delay px src dst).delayNs,
                h.sequenceNumber, .ethernet, data⟩)

end Handlers

/-! ## Radio -/

/-- `ObstacleBox`. -/
structure ObstacleBox where
  xMin : Float
  xMax : Float
  yMin : Float
  yMax : Float
  zMin : Float
  zMax : Float
  attenuationDb : Float
  deriving DecidableEq

/-- `f64::min`: a NaN gives way to the other number. -/
def f64Min (a b : Float) : Float :=
  if a.isNaN then b else if b.isNaN then a else if a ≤ b then a else b

/-- `f64::max`. -/
def f64Max (a b : Float) : Float :=
  if a.isNaN then b else if b.isNaN then a else if a ≤ b then b else a

/-- The loop of `ray_intersects_aabb` over the axes that are left, with the part of the ray that is
still inside. -/
def clipRay : List (Float × Float × Float × Float) → Float → Float → Bool
  | [], tMin, tMax => decide (tMin ≤ tMax)
  | (bMin, bMax, d, o) :: axes, tMin, tMax =>
      -- below `f64::EPSILON` the ray is parallel to the two faces
      if d.abs < 2.220446049250313e-16 then
        if o < bMin ∨ o > bMax then false else clipRay axes tMin tMax
      else
        let t1 := (bMin - o) / d
        let t2 := (bMax - o) / d
        let tMin := f64Max tMin (f64Min t1 t2)
        let tMax := f64Min tMax (f64Max t1 t2)
        if tMin > tMax then false else clipRay axes tMin tMax

/-- `ray_intersects_aabb`. -/
def rayIntersectsAabb (o t : Position) (obs : ObstacleBox) : Bool :=
  clipRay [(obs.xMin, obs.xMax, t.x - o.x, o.x), (obs.yMin, obs.yMax, t.y - o.y, o.y),
    (obs.zMin, obs.zMax, t.z - o.z, o.z)] 0.0 1.0

/-- The positions the coordinator tracks, by topic part in front and node. -/
abbrev NodePositions := HashMap (String × String) Position

/-- The grid cell of a position. -/
def gridCell (p : Position) : Int64 × Int64 × Int64 :=
  ((p.x / 500.0).floor.toInt64, (p.y / 500.0).floor.toInt64, (p.z / 500.0).floor.toInt64)

/-- `SpatialGrid::build` and `candidates`: the other nodes in the 27 cells around a position, cell by
cell, each cell in the order in which the loop over the positions fills it. -/
def gridCandidates (positions : NodePositions) (px : String) (at_ : Position) (sid : String) :
    List String :=
  let (cx, cy, cz) := gridCell at_
  let around : List Int64 := [-1, 0, 1]
  around.flatMap fun dx => around.flatMap fun dy => around.flatMap fun dz =>
    (positions.toList.filter fun e =>
      e.1.1 = px ∧ gridCell e.2 = (cx + dx, cy + dy, cz + dz) ∧ e.1.2 ≠ sid).map fun e => e.1.2

/-- `calculate_fspl`. -/
def calculateFspl (distM freqHz : Float) : Float :=
  if distM < 0.1 then 0.0
  else 20.0 * distM.log10 + 20.0 * freqHz.log10 +
    20.0 * (4.0 * 3.141592653589793 / 299792458.0).log10

/-- `f64::is_normal`. -/
def isNormal (x : Float) : Bool := x.isFinite && decide (x.abs ≥ 2.2250738585072014e-308)

/-- The radio settings of `Args`, and the obstacles. -/
structure RadioArgs where
  delayNs : UInt64
  txPower : Float32
  sensitivity : Float32
  obstacles : List ObstacleBox

/-- Signal strength and delay at a destination: free-space loss, obstacles and distance count when both
positions are known. -/
def radioLink (args : RadioArgs) (s r : Option Position) : Float32 × UInt64 :=
  match s, r with
  | some s, some r =>
      let dx := s.x - r.x
      let dy := s.y - r.y
      let dz := s.z - r.z
      let dist := (dx * dx + dy * dy + dz * dz).sqrt
      if isNormal dist || dist == 0.0 then
        let pl := calculateFspl dist 2.4e9
        let rssi := if pl.isNaN then args.txPower else args.txPower - pl.toFloat32
        let loss := ((args.obstacles.filter (rayIntersectsAabb s r)).map
          ObstacleBox.attenuationDb).foldl (· + ·) 0.0
        (rssi - loss.toFloat32, saturatingAdd args.delayNs (dist * 3.33).toUInt64)
      else (args.txPower, args.delayNs)
  | _, _ => (args.txPower, args.delayNs)

/-- `rssi.clamp(-128.0, 127.0) as i8`. -/
def clampRssi (rssi : Float32) : Int8 :=
  (if rssi < -128.0 then -128.0 else if rssi > 127.0 then 127.0 else rssi : Float32).toInt8

/-- How `handle_rf_msg` reads a payload: time, sequence number, size field, link quality and data. -/
def readRf (env : Externals) (hasHdr : Bool) (p : List UInt8) :
    Option (UInt64 × UInt64 × UInt32 × UInt8 × List UInt8) :=
  if hasHdr then
    match env.flatbuffers.sizePrefixedRf802154Header p with
    | none => none
    | some hdr =>
        if 4 ≤ p.length then
          let off := 4 + leNat (p.take 4)
          if p.length < off + hdr.size.toNat then none
          else some (hdr.deliveryVtimeNs, hdr.sequenceNumber, hdr.size, hdr.lqi,
            (p.drop off).take hdr.size.toNat)
        else none
  else if p.length < 12 then none
  else
    let vt := (leNat (p.take 8)).toUInt64
    let sz := (leNat ((p.drop 8).take 4)).toUInt32
    if p.length < 12 + sz.toNat then none
    else some (vt, 0, sz, 255, (p.drop 12).take sz.toNat)

/-- The candidates of `handle_rf_msg`: the nodes around a sender whose position is known, otherwise the
nodes seen under the base topic; in an explicit topology only radio neighbours remain. -/
def rfCandidates (tg : TopologyGraph) (positions : NodePositions) (order : IterationOrder String)
    (known : Known) (px base src : String) : List String :=
  let cands := match positions.get (px, src) with
    | some s => gridCandidates positions px s src
    | none => match known.get base with
        | none => []
        | some nodes => (nodes.reorder order).toList.filter fun id => id ≠ src
  if tg.isExplicit then
    if tg.hasWireless then cands.filter fun id => id ∈ (tg.rfNeighbors src).toList else []
  else cands

/-- `handle_rf_msg`. -/
def handleRfMsg (env : Externals) (args : RadioArgs) (tg : TopologyGraph)
    (positions : NodePositions) (order : IterationOrder String) (known : Known) (hasHdr : Bool)
    (topic : String) (p : List UInt8) : Known × List CoordMessage :=
  match parseTopicWithPrefix topic with
  | none => (known, [])
  | some (px, base, src) =>
      let known := known.note base src
      match readRf env hasHdr p with
      | none => (known, [])
      | some (vt, seq, sz, lqi, data) =>
          (known, (rfCandidates tg positions order known px base src).filterMap fun dst =>
            let (rssi, d) := radioLink args (positions.get (px, src)) (positions.get (px, dst))
            if rssi < args.sensitivity then none
            else
              let vt2 := saturatingAdd vt d
              let p2 := if hasHdr then
                  encodeRf802154Frame env.flatbuffers.rf802154Builder vt2 seq data (clampRssi rssi) lqi
                else leBytes 8 vt2.toNat ++ leBytes 4 sz.toNat ++ data
              some ⟨src, dst, base, vt2, seq, if hasHdr then .rf802154 else .rfHci, p2⟩)

/-! ## Batches of `sim/coord` -/

/-- `parse_protocol`. -/
def parseProtocol (p : UInt8) : Protocol :=
  match p with
  | 0 => .ethernet
  | 1 => .uart
  | 2 => .spi
  | 3 => .canFd
  | 4 => .flexRay
  | 5 => .lin
  | _ => .ethernet

/-- One record of `decode_batch`. -/
def decodeRecord : CursorRead CoordMessage := fun rest =>
  let (src, rest) := readU32 rest
  let (dst, rest) := readU32 rest
  let (vt, rest) := readU64 rest
  let (seq, rest) := readU64 rest
  let (pr, rest) := readU8 rest
  let (sz, rest) := readU32 rest
  match src, dst, vt, seq, pr, sz with
  | some src, some dst, some vt, some seq, some pr, some sz =>
      let (data, rest) := readExact sz.toNat rest
      (data.map fun data => ⟨toString src.toNat, toString dst.toNat, "sim/coord", vt, seq,
        parseProtocol pr, data⟩, rest)
  | _, _, _, _, _, _ => (none, rest)

/-- The loop of `decode_batch`. -/
def decodeRecords : (num : Nat) → List UInt8 → List CoordMessage
  | 0, _ => []
  | num + 1, rest =>
      let (msg, rest) := decodeRecord rest
      msg.toList ++ decodeRecords num rest

/-- `decode_batch`. -/
def decodeBatch (payload : List UInt8) : List CoordMessage :=
  match readU32 payload with
  | (some num, rest) => decodeRecords num.toNat rest
  | (none, _) => []

/-! ## Messages to samples -/

/-- `ZenohSPIHeader::new` with the chip select cleared, as bytes. -/
def spiHeaderBytes (vtime seq : UInt64) (size : UInt32) : List UInt8 :=
  leBytes 8 vtime.toNat ++ leBytes 8 seq.toNat ++ leBytes 4 size.toNat ++ [0] ++ [0] ++ leBytes 2 0

/-- `encode_protocol_msg`: the topic and the payload that are put. -/
def encodeProtocolMsg (msg : CoordMessage) : String × List UInt8 :=
  (msg.baseTopic ++ "/" ++ msg.dstNodeId ++ "/rx",
    match msg.protocol with
    | .lin | .flexRay | .canFd | .rf802154 => msg.payload
    | .spi =>
        spiHeaderBytes msg.deliveryVtimeNs msg.sequenceNumber msg.payload.length.toUInt32 ++
          msg.payload
    | .ethernet | .uart | .rfHci =>
        encodeFrame msg.deliveryVtimeNs msg.sequenceNumber msg.payload)

end Virtmcu.ZenohCoordinator
