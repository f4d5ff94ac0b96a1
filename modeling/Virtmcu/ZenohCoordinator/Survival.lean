import Virtmcu.Foundations.Panic
import Virtmcu.ZenohCoordinator.Enforcement

/-! # Handlers that may panic

The handlers of `Ingest` cut payloads and topics with total list operations. Here they stand once more
with the operations of the source: every slice and index can be out of range, an `expect` can meet a
`None`, and an `i64` sum overflows in a build with overflow checks. `none` is the panic, which aborts the
process in every build profile of the workspace.

Each of them is proved to be the handler of `Ingest` wherever it returns, and the inputs for which it
does return are characterised: an Ethernet or UART payload of **20 to 23** bytes panics, since the length
test is for 20 bytes and the header has 24. -/

namespace Virtmcu.ZenohCoordinator

open List Option

open DeterministicCoordinator (saturatingAdd ZenohFrameHeader zenohFrameHeaderSize
  encodeRf802154Frame)

namespace Checked

/-! ## Topics -/

/-- What stands before the first `sim` or `virtmcu` segment. -/
def segmentsBefore (parts : List String) : Option String :=
  match parts.findIdx? fun p => p = "sim" ∨ p = "virtmcu" with
  | some idx => (slice parts 0 idx).map "/".intercalate
  | none => some ""

/-- `parse_topic_with_prefix`, with its two slices and its index. -/
def parseTopicWithPrefix (topic : String) : Option (Option (String × String × String)) :=
  let parts := split '/' topic
  if containsStr topic "sim/flexray" then some none
  else do
    let px ← segmentsBefore parts
    if endsWithStr topic "/tx" ∧ 2 ≤ parts.length then
      let base ← slice parts 0 (parts.length - 2)
      let nid ← parts[parts.length - 2]?
      some (some (px, "/".intercalate base, nid))
    else some (some (px, topic, ""))

/-- The segment that is found is one of the segments. -/
theorem segmentsBefore_eq (parts : List String) :
    segmentsBefore parts = some (match parts.findIdx? fun p => p = "sim" ∨ p = "virtmcu" with
      | some idx => "/".intercalate (parts.take idx)
      | none => "") := by
  unfold segmentsBefore
  split
  · next idx hidx =>
      have hlt := (findIdx?_eq_some_iff_getElem.mp hidx).1
      rw [slice_zero (Nat.le_of_lt hlt), map_some]
  · rfl

/-- **No topic is sliced out of range.** -/
theorem parseTopicWithPrefix_eq (topic : String) :
    parseTopicWithPrefix topic = some (ZenohCoordinator.parseTopicWithPrefix topic) := by
  unfold parseTopicWithPrefix ZenohCoordinator.parseTopicWithPrefix
  simp only
  split
  · rfl
  · rw [segmentsBefore_eq, bind_eq_bind, bind_some]
    split
    · next htx =>
        have hlt : (split '/' topic).length - 2 < (split '/' topic).length := by omega
        rw [slice_zero (Nat.sub_le _ _), getElem?_eq_getElem hlt]
        rfl
    · rfl

/-! ## Ethernet and UART -/

/-- How `handle_eth_msg` and `handle_uart_msg` read a payload. The header is unpacked with `expect`. -/
def readFrame (p : List UInt8) : Option (Option (ZenohFrameHeader × List UInt8)) :=
  if p.length < 20 then some none
  else do
    let h ← ZenohFrameHeader.unpackSlice p
    if p.length < zenohFrameHeaderSize + h.size.toNat then some none
    else
      let data ← slice p 20 (zenohFrameHeaderSize + h.size.toNat)
      some (some (h, data))

/-- The slice of the data is in range: what can panic is the `expect`. -/
theorem readFrame_eq (p : List UInt8) : readFrame p = ZenohCoordinator.readFrame p := by
  unfold readFrame ZenohCoordinator.readFrame
  split
  · rfl
  · cases hh : ZenohFrameHeader.unpackSlice p with
    | none => rfl
    | some h =>
      simp only [bind_eq_bind, bind_some]
      split
      · rfl
      · next hlen =>
          have hlo : 20 ≤ zenohFrameHeaderSize + h.size.toNat := by
            rw [zenohFrameHeaderSize]
            omega
          rw [slice_eq_some hlo (Nat.le_of_not_lt hlen), bind_some]

section Handlers

variable {σ : Type} (env : Externals) (rng : Rng σ) (tg : TopologyGraph) (links : Links)
  (delay : UInt64) (order : IterationOrder String) (known : Known)

/-- The common body of `handle_eth_msg` and `handle_uart_msg`. -/
def handleFrameMsg (protocol : Protocol) (s : σ) (topic : String) (p : List UInt8) :
    Option (Handled σ) := do
  match ← parseTopicWithPrefix topic with
  | none => some ⟨known, s, [], []⟩
  | some (px, base, src) =>
      let known := known.note base src
      match ← readFrame p with
      | none => some ⟨known, s, [], []⟩
      | some (h, data) =>
          let dests := (destNodes tg known base src protocol).reorder order
          let (decisions, s) := fates rng (fun dst => tg.isLinkAllowed src dst protocol)
            (links.state delay px src) dests.toList s
          some ⟨known, s, decisions,
            decisions.filterMap (frameMessage links delay protocol px base src h data)⟩

/-- `handle_eth_msg`. -/
def handleEthMsg : σ → String → List UInt8 → Option (Handled σ) :=
  handleFrameMsg rng tg links delay order known .ethernet

/-- `handle_uart_msg`. -/
def handleUartMsg : σ → String → List UInt8 → Option (Handled σ) :=
  handleFrameMsg rng tg links delay order known .uart

/-- The common body is the one of `Ingest`. -/
theorem handleFrameMsg_eq (protocol : Protocol) (s : σ) (topic : String) (p : List UInt8) :
    handleFrameMsg rng tg links delay order known protocol s topic p =
      ZenohCoordinator.handleFrameMsg rng tg links delay order known protocol s topic p := by
  rw [handleFrameMsg, ZenohCoordinator.handleFrameMsg, parseTopicWithPrefix_eq, readFrame_eq,
    bind_eq_bind, bind_some]
  cases ZenohCoordinator.parseTopicWithPrefix topic with
  | none => rfl
  | some r =>
    cases ZenohCoordinator.readFrame p with
    | none => rfl
    | some read => cases read <;> rfl

/-! ## SystemC -/

/-- How `handle_sysc_msg` reads a payload: the whole header is tested for, and its absence is no panic. -/
def readSysc (p : List UInt8) : Option (Option (ZenohFrameHeader × List UInt8)) :=
  if p.length < zenohFrameHeaderSize then some none
  else match ZenohFrameHeader.unpackSlice p with
    | none => some none
    | some h =>
        if p.length < zenohFrameHeaderSize + h.size.toNat then some none
        else do
          let data ← slice p zenohFrameHeaderSize (zenohFrameHeaderSize + h.size.toNat)
          some (some (h, data))

/-- `handle_sysc_msg`. -/
def handleSyscMsg (topic : String) (p : List UInt8) : Option (Known × List CoordMessage) := do
  match ← parseTopicWithPrefix topic with
  | none => some (known, [])
  | some (px, base, src) =>
      let known := known.note base src
      match ← readSysc p with
      | none => some (known, [])
      | some (h, data) =>
          let dests := (destNodes tg known base src .spi).reorder order
          some (known, dests.toList.map fun dst =>
            ⟨src, dst, base, saturatingAdd h.deliveryVtimeNs (links.state delay px src dst).delayNs,
              h.sequenceNumber, .ethernet, data⟩)

/-- **The SystemC handler always returns**, with what the handler of `Ingest` computes. -/
theorem handleSyscMsg_eq (topic : String) (p : List UInt8) :
    handleSyscMsg tg links delay order known topic p =
      some (ZenohCoordinator.handleSyscMsg tg links delay order known topic p) := by
  rw [handleSyscMsg, ZenohCoordinator.handleSyscMsg, parseTopicWithPrefix_eq, bind_eq_bind, bind_some]
  cases ZenohCoordinator.parseTopicWithPrefix topic with
  | none => rfl
  | some r =>
    obtain ⟨px, base, src⟩ := r
    rw [readSysc]
    by_cases hlen : p.length < zenohFrameHeaderSize
    · rw [if_pos hlen, ZenohFrameHeader.unpackSlice, if_pos hlen]
      rfl
    · rw [if_neg hlen]
      cases hh : ZenohFrameHeader.unpackSlice p with
      | none => rfl
      | some h =>
        simp only
        by_cases hsize : p.length < zenohFrameHeaderSize + h.size.toNat
        · simp only [if_pos hsize, bind_eq_bind, bind_some]
        · simp only [if_neg hsize, slice_eq_some (Nat.le_add_right _ _) (Nat.le_of_not_lt hsize),
            bind_eq_bind, bind_some, Nat.add_sub_cancel_left]

end Handlers

/-! ## Radio -/

/-- How `handle_rf_msg` reads a payload. -/
def readRf (env : Externals) (hasHdr : Bool) (p : List UInt8) :
    Option (Option (UInt64 × UInt64 × UInt32 × UInt8 × List UInt8)) :=
  if hasHdr then
    match env.flatbuffers.sizePrefixedRf802154Header p with
    | none => some none
    | some hdr =>
        if 4 ≤ p.length then do
          let size ← slice p 0 4
          let off := 4 + leNat size
          if p.length < off + hdr.size.toNat then some none
          else
            let data ← slice p off (off + hdr.size.toNat)
            some (some (hdr.deliveryVtimeNs, hdr.sequenceNumber, hdr.size, hdr.lqi, data))
        else some none
  else if p.length < 12 then some none
  else
    let vt := (leNat (p.take 8)).toUInt64
    let sz := (leNat ((p.drop 8).take 4)).toUInt32
    if p.length < 12 + sz.toNat then some none
    else do
      let data ← slice p 12 (12 + sz.toNat)
      some (some (vt, 0, sz, 255, data))

/-- No radio payload is sliced out of range. -/
theorem readRf_eq (env : Externals) (hasHdr : Bool) (p : List UInt8) :
    readRf env hasHdr p = some (ZenohCoordinator.readRf env hasHdr p) := by
  -- both formats end with the same guarded slice
  have hdata : ∀ {off sz : Nat}, ¬ p.length < off + sz →
      slice p off (off + sz) = some ((p.drop off).take sz) := by
    intro off sz h
    rw [slice_eq_some (Nat.le_add_right _ _) (Nat.le_of_not_lt h), Nat.add_sub_cancel_left]
  unfold readRf ZenohCoordinator.readRf
  split
  · cases env.flatbuffers.sizePrefixedRf802154Header p with
    | none => rfl
    | some hdr =>
      simp only
      split
      · next h4 =>
          rw [slice_zero h4, bind_eq_bind, bind_some]
          split
          · rfl
          · next hlen => rw [hdata hlen, bind_some]
      · rfl
  · split
    · rfl
    · simp only
      split
      · rfl
      · next hlen => rw [hdata hlen, bind_eq_bind, bind_some]

/-- `SpatialGrid::candidates`, with the sums of its 27 lookups. -/
def gridCandidates (overflowChecks : Bool) (positions : NodePositions) (px : String) (at_ : Position)
    (sid : String) : Option (List String) :=
  let (cx, cy, cz) := gridCell at_
  let around : List Int64 := [-1, 0, 1]
  tryFlatMap (fun dx => tryFlatMap (fun dy => tryFlatMap (fun dz => do
    let x ← addI64 overflowChecks cx dx
    let y ← addI64 overflowChecks cy dy
    let z ← addI64 overflowChecks cz dz
    some ((positions.toList.filter fun e =>
      e.1.1 = px ∧ gridCell e.2 = (x, y, z) ∧ e.1.2 ≠ sid).map fun e => e.1.2)) around) around) around

/-- The neighbours of a cell coordinate are `i64` numbers. -/
def IsInner (c : Int64) : Prop := c ≠ Int64.minValue ∧ c ≠ Int64.maxValue

/-- All neighbours of a cell have `i64` coordinates. -/
def IsInnerCell (cell : Int64 × Int64 × Int64) : Prop :=
  IsInner cell.1 ∧ IsInner cell.2.1 ∧ IsInner cell.2.2

/-- An inner coordinate as a number. -/
theorem IsInner.toInt_mem {c : Int64} (hc : IsInner c) : -2 ^ 63 < c.toInt ∧ c.toInt < 2 ^ 63 - 1 := by
  have hmin : c.toInt ≠ -2 ^ 63 := fun h => hc.1 (Int64.toInt_inj.mp (h.trans (by decide)))
  have hmax : c.toInt ≠ 2 ^ 63 - 1 := fun h => hc.2 (Int64.toInt_inj.mp (h.trans (by decide)))
  have hlo := Int64.le_toInt c
  have hhi := Int64.toInt_lt c
  omega

/-- An offset of the loops as a number. -/
theorem toInt_offset_mem {d : Int64} (hd : d ∈ ([-1, 0, 1] : List Int64)) : -1 ≤ d.toInt ∧ d.toInt ≤ 1 := by
  simp only [mem_cons, not_mem_nil, or_false] at hd
  rcases hd with rfl | rfl | rfl <;> decide

/-- The sums of an inner coordinate are in range. -/
theorem toInt_add_mem {c d : Int64} (hc : IsInner c) (hd : d ∈ ([-1, 0, 1] : List Int64)) :
    -2 ^ 63 ≤ c.toInt + d.toInt ∧ c.toInt + d.toInt < 2 ^ 63 := by
  have hcell := hc.toInt_mem
  have hoffset := toInt_offset_mem hd
  omega

/-- The sums of an inner coordinate do not panic. -/
theorem addI64_of_isInner {overflowChecks : Bool} {c d : Int64} (hc : IsInner c)
    (hd : d ∈ ([-1, 0, 1] : List Int64)) : addI64 overflowChecks c d = some (c + d) :=
  addI64_of_mem (toInt_add_mem hc hd)

/-- One of the sums of any other coordinate is out of range. -/
theorem addI64_of_not_isInner {c : Int64} (hc : ¬ IsInner c) :
    ∃ d ∈ ([-1, 0, 1] : List Int64), addI64 true c d = none := by
  by_cases hmin : c = Int64.minValue
  · subst hmin
    exact ⟨-1, mem_cons_self, addI64_of_not_mem (by decide)⟩
  · obtain rfl : c = Int64.maxValue := not_not.mp fun hmax => hc ⟨hmin, hmax⟩
    exact ⟨1, mem_cons_of_mem _ (mem_cons_of_mem _ mem_cons_self), addI64_of_not_mem (by decide)⟩

/-- The lookup is the one of `Ingest` if its sums wrap around or are all in range. -/
theorem gridCandidates_eq_some {overflowChecks : Bool} {at_ : Position}
    (h : overflowChecks = true → IsInnerCell (gridCell at_)) (positions : NodePositions)
    (px sid : String) : gridCandidates overflowChecks positions px at_ sid =
      some (ZenohCoordinator.gridCandidates positions px at_ sid) := by
  rcases hcell : gridCell at_ with ⟨cx, cy, cz⟩
  rw [hcell] at h
  have hadd : ∀ c d, (IsInnerCell (cx, cy, cz) → IsInner c) → d ∈ ([-1, 0, 1] : List Int64) →
      addI64 overflowChecks c d = some (c + d) := by
    intro c d hc hd
    cases hchecks : overflowChecks with
    | false => exact addI64_unchecked c d
    | true => exact addI64_of_isInner (hc (h hchecks)) hd
  simp only [gridCandidates, ZenohCoordinator.gridCandidates, hcell]
  apply tryFlatMap_eq_some
  intro dx hdx
  apply tryFlatMap_eq_some
  intro dy hdy
  apply tryFlatMap_eq_some
  intro dz hdz
  rw [hadd cx dx (fun hi => hi.1) hdx, hadd cy dy (fun hi => hi.2.1) hdy, hadd cz dz (fun hi => hi.2.2) hdz]
  rfl

/-- The lookup panics on a cell at the end of the `i64` range if its sums are checked. -/
theorem gridCandidates_eq_none {at_ : Position} (h : ¬ IsInnerCell (gridCell at_))
    (positions : NodePositions) (px sid : String) : gridCandidates true positions px at_ sid = none := by
  rcases hcell : gridCell at_ with ⟨cx, cy, cz⟩
  rw [hcell] at h
  simp only [gridCandidates, hcell]
  have hzero : (0 : Int64) ∈ ([-1, 0, 1] : List Int64) := by decide
  -- the round that panics is found on the first axis whose coordinate is at the end
  by_cases hx : IsInner cx
  · by_cases hy : IsInner cy
    · have hz : ¬ IsInner cz := fun hz => h ⟨hx, hy, hz⟩
      obtain ⟨d, hd, hnone⟩ := addI64_of_not_isInner hz
      refine tryFlatMap_eq_none hzero (tryFlatMap_eq_none hzero (tryFlatMap_eq_none hd ?_))
      rw [addI64_of_isInner hx hzero, addI64_of_isInner hy hzero, hnone]
      rfl
    · obtain ⟨d, hd, hnone⟩ := addI64_of_not_isInner hy
      refine tryFlatMap_eq_none hzero (tryFlatMap_eq_none hd (tryFlatMap_eq_none hzero ?_))
      rw [addI64_of_isInner hx hzero, hnone]
      rfl
  · obtain ⟨d, hd, hnone⟩ := addI64_of_not_isInner hx
    refine tryFlatMap_eq_none hd (tryFlatMap_eq_none hzero (tryFlatMap_eq_none hzero ?_))
    rw [hnone]
    rfl

/-- The candidates of `handle_rf_msg`. -/
def rfCandidates (overflowChecks : Bool) (tg : TopologyGraph) (positions : NodePositions)
    (order : IterationOrder String) (known : Known) (px base src : String) : Option (List String) := do
  let cands ← match positions.get (px, src) with
    | some s => gridCandidates overflowChecks positions px s src
    | none => match known.get base with
        | none => some []
        | some nodes => some ((nodes.reorder order).toList.filter fun id => id ≠ src)
  if tg.isExplicit then
    if tg.hasWireless then some (cands.filter fun id => id ∈ (tg.rfNeighbors src).toList)
    else some []
  else some cands

/-- `handle_rf_msg`. -/
def handleRfMsg (overflowChecks : Bool) (env : Externals) (args : RadioArgs) (tg : TopologyGraph)
    (positions : NodePositions) (order : IterationOrder String) (known : Known) (hasHdr : Bool)
    (topic : String) (p : List UInt8) : Option (Known × List CoordMessage) := do
  match ← parseTopicWithPrefix topic with
  | none => some (known, [])
  | some (px, base, src) =>
      let known := known.note base src
      match ← readRf env hasHdr p with
      | none => some (known, [])
      | some (vt, seq, sz, lqi, data) =>
          let cands ← rfCandidates overflowChecks tg positions order known px base src
          some (known, cands.filterMap fun dst =>
            let (rssi, d) := radioLink args (positions.get (px, src)) (positions.get (px, dst))
            if rssi < args.sensitivity then none
            else
              let vt2 := saturatingAdd vt d
              let p2 := if hasHdr then
                  encodeRf802154Frame env.flatbuffers.rf802154Builder vt2 seq data (clampRssi rssi) lqi
                else leBytes 8 vt2.toNat ++ leBytes 4 sz.toNat ++ data
              some ⟨src, dst, base, vt2, seq, if hasHdr then .rf802154 else .rfHci, p2⟩)

section Rf

variable (overflowChecks : Bool) (env : Externals) (args : RadioArgs) (tg : TopologyGraph)
  (positions : NodePositions) (order : IterationOrder String) (known : Known)

/-- Looking around a sender panics in no build without overflow checks, and in one with them only at the
end of the `i64` range. -/
def CanLookAround (px src : String) : Prop :=
  overflowChecks = true → ∀ at_, positions.get (px, src) = some at_ → IsInnerCell (gridCell at_)

/-- The candidates are those of `Ingest` if looking around the sender does not panic. -/
theorem rfCandidates_eq_some {overflowChecks : Bool} {positions : NodePositions} {px src : String}
    (h : CanLookAround overflowChecks positions px src) (base : String) :
    rfCandidates overflowChecks tg positions order known px base src =
      some (ZenohCoordinator.rfCandidates tg positions order known px base src) := by
  have hretain : ∀ cands : List String,
      (if tg.isExplicit then
        if tg.hasWireless then some (cands.filter fun id => id ∈ (tg.rfNeighbors src).toList)
        else some []
      else some cands) =
      some (if tg.isExplicit then
        if tg.hasWireless then cands.filter fun id => id ∈ (tg.rfNeighbors src).toList else []
      else cands) := by
    intro cands
    split
    · split <;> rfl
    · rfl
  unfold rfCandidates ZenohCoordinator.rfCandidates
  simp only [← hretain]
  cases hpos : positions.get (px, src) with
  | none =>
    cases known.get base with
    | none | some nodes => rfl
  | some at_ =>
    simp only [gridCandidates_eq_some (fun hchecks => h hchecks at_ hpos), bind_eq_bind, bind_some]

/-- Otherwise they panic. -/
theorem rfCandidates_eq_none {overflowChecks : Bool} {positions : NodePositions} {px src : String}
    (h : ¬ CanLookAround overflowChecks positions px src) (base : String) :
    rfCandidates overflowChecks tg positions order known px base src = none := by
  obtain ⟨hchecks, h⟩ := Classical.not_imp.mp h
  obtain ⟨at_, h⟩ := Classical.not_forall.mp h
  obtain ⟨hpos, hcell⟩ := Classical.not_imp.mp h
  subst hchecks
  simp only [rfCandidates, hpos, gridCandidates_eq_none hcell, bind_eq_bind, bind_none]

/-- The radio handler returns when the topic or the payload is refused, or the candidates can be
computed. -/
theorem isSome_handleRfMsg (hasHdr : Bool) (topic : String) (p : List UInt8) :
    (handleRfMsg overflowChecks env args tg positions order known hasHdr topic p).isSome = true ↔
      (ZenohCoordinator.readRf env hasHdr p ≠ none → ∀ px base src,
        ZenohCoordinator.parseTopicWithPrefix topic = some (px, base, src) →
          CanLookAround overflowChecks positions px src) := by
  rw [handleRfMsg, parseTopicWithPrefix_eq, readRf_eq, bind_eq_bind, bind_some]
  cases ZenohCoordinator.parseTopicWithPrefix topic with
  | none => simp
  | some r =>
    obtain ⟨px, base, src⟩ := r
    cases ZenohCoordinator.readRf env hasHdr p with
    | none => simp
    | some read =>
      obtain ⟨vt, seq, sz, lqi, data⟩ := read
      by_cases h : CanLookAround overflowChecks positions px src
      · simp only [rfCandidates_eq_some tg order _ h]
        simp [h]
      · simp only [rfCandidates_eq_none tg order _ h]
        simp [h]

/-- Where the radio handler returns, it is the one of `Ingest`. -/
theorem handleRfMsg_eq {hasHdr : Bool} {topic : String} {p : List UInt8} {r : Known × List CoordMessage}
    (h : handleRfMsg overflowChecks env args tg positions order known hasHdr topic p = some r) :
    r = ZenohCoordinator.handleRfMsg env args tg positions order known hasHdr topic p := by
  have hreturns := (isSome_handleRfMsg overflowChecks env args tg positions order known hasHdr topic
    p).mp (isSome_of_eq_some h)
  rw [handleRfMsg, parseTopicWithPrefix_eq, readRf_eq, bind_eq_bind, bind_some] at h
  rw [ZenohCoordinator.handleRfMsg]
  cases htopic : ZenohCoordinator.parseTopicWithPrefix topic with
  | none =>
    rw [htopic] at h
    exact (Option.some.inj h).symm
  | some parsed =>
    obtain ⟨px, base, src⟩ := parsed
    cases hread : ZenohCoordinator.readRf env hasHdr p with
    | none =>
      rw [htopic, hread] at h
      exact (Option.some.inj h).symm
    | some read =>
      obtain ⟨vt, seq, sz, lqi, data⟩ := read
      have hcan := hreturns (by rw [hread]; exact some_ne_none _) px base src htopic
      simp only [htopic, hread, rfCandidates_eq_some tg order _ hcan, bind_eq_bind, bind_some] at h
      exact (Option.some.inj h).symm

end Rf

/-! ## The inputs that are survived -/

/-- An Ethernet or UART payload that does not panic: the topic is refused, the length test refuses it,
or it has a whole header. -/
def FrameSurvivable (topic : String) (p : List UInt8) : Prop :=
  ZenohCoordinator.parseTopicWithPrefix topic = none ∨ p.length < 20 ∨ zenohFrameHeaderSize ≤ p.length

/-- An RF-HCI payload that does not panic: in a build with overflow checks, a complete frame of a sender
with a known position needs a cell that has all its neighbours. -/
def RfHciSurvivable (overflowChecks : Bool) (positions : NodePositions) (topic : String)
    (p : List UInt8) : Prop :=
  12 ≤ p.length → 12 + leNat ((p.drop 8).take 4) ≤ p.length → ∀ px base src,
    ZenohCoordinator.parseTopicWithPrefix topic = some (px, base, src) →
      CanLookAround overflowChecks positions px src

/-- The `expect` panics between the length that is tested and the length of the header. -/
theorem readFrame_eq_none_iff (p : List UInt8) :
    ZenohCoordinator.readFrame p = none ↔ 20 ≤ p.length ∧ p.length < zenohFrameHeaderSize := by
  unfold ZenohCoordinator.readFrame
  split
  · next h => simp [Nat.not_le_of_lt h]
  · next h =>
      rw [ZenohFrameHeader.unpackSlice]
      split
      · next hunpack =>
          split at hunpack
          · next hlt => simp [hlt, Nat.le_of_not_lt h]
          · cases hunpack
      · next header hunpack =>
          split at hunpack
          · cases hunpack
          · next hlt =>
              split <;> simp [hlt]

/-- **An Ethernet or UART payload panics when it has 20 to 23 bytes.** -/
theorem isSome_handleFrameMsg {σ : Type} (rng : Rng σ) (tg : TopologyGraph) (links : Links)
    (delay : UInt64) (order : IterationOrder String) (known : Known) (protocol : Protocol) (s : σ)
    (topic : String) (p : List UInt8) :
    (handleFrameMsg rng tg links delay order known protocol s topic p).isSome = true ↔
      FrameSurvivable topic p := by
  rw [handleFrameMsg_eq, ZenohCoordinator.handleFrameMsg, FrameSurvivable]
  have hread := readFrame_eq_none_iff p
  cases ZenohCoordinator.parseTopicWithPrefix topic with
  | none => simp
  | some r =>
    cases h : ZenohCoordinator.readFrame p with
    | none =>
      have hlen := hread.mp h
      simp
      omega
    | some read =>
      have hlen : ¬ (20 ≤ p.length ∧ p.length < zenohFrameHeaderSize) := fun hlen =>
        absurd (h.symm.trans (hread.mpr hlen)) (some_ne_none read)
      cases read <;> simp <;> omega

/-- An RF-HCI payload is read when its length field fits. -/
theorem readRf_ne_none_iff (env : Externals) (p : List UInt8) : ZenohCoordinator.readRf env false p ≠ none ↔
      12 ≤ p.length ∧ 12 + leNat ((p.drop 8).take 4) ≤ p.length := by
  have hlt : leNat ((p.drop 8).take 4) < 2 ^ 32 := by
    have hpow : 256 ^ ((p.drop 8).take 4).length ≤ 256 ^ 4 :=
      Nat.pow_le_pow_right (by decide) (length_take_le 4 (p.drop 8))
    exact Nat.lt_of_lt_of_le (leNat_lt _) hpow
  have hsz : (leNat ((p.drop 8).take 4)).toUInt32.toNat = leNat ((p.drop 8).take 4) :=
    Nat.mod_eq_of_lt hlt
  unfold ZenohCoordinator.readRf
  simp only [Bool.false_eq_true, if_false, hsz]
  split
  · next h => simp [Nat.not_le_of_lt h]
  · next h =>
      split
      · next hsize => simp [Nat.not_le_of_lt hsize]
      · next hsize => simp [Nat.le_of_not_lt h, Nat.le_of_not_lt hsize]

/-- **Which samples the handlers survive.** In every build, with every topology, link table, set of known
nodes, generator and table of positions: the Ethernet and the UART handler return unless the payload is
long enough for their length test and too short for the header, the SystemC handler always returns, and
the RF-HCI handler returns unless a checked sum overflows. -/
theorem handlers_return_iff {σ : Type} (overflowChecks : Bool) (env : Externals) (args : RadioArgs)
    (rng : Rng σ) (tg : TopologyGraph) (links : Links) (delay : UInt64) (positions : NodePositions)
    (order : IterationOrder String) (known : Known) (s : σ) (topic : String) (p : List UInt8) :
    ((handleEthMsg rng tg links delay order known s topic p).isSome = true ↔ FrameSurvivable topic p) ∧
    ((handleUartMsg rng tg links delay order known s topic p).isSome = true ↔ FrameSurvivable topic p) ∧
    (handleSyscMsg tg links delay order known topic p).isSome = true ∧
    ((handleRfMsg overflowChecks env args tg positions order known false topic p).isSome = true ↔
      RfHciSurvivable overflowChecks positions topic p) := by
  refine ⟨isSome_handleFrameMsg rng tg links delay order known .ethernet s topic p,
    isSome_handleFrameMsg rng tg links delay order known .uart s topic p, ?_, ?_⟩
  · rw [handleSyscMsg_eq]
    rfl
  · rw [isSome_handleRfMsg, readRf_ne_none_iff, RfHciSurvivable, and_imp]

/-- Twenty bytes on an Ethernet topic end the coordinator. The SystemC handler ignores them. -/
theorem handleEthMsg_twentyBytes :
    (handleEthMsg stillRng pairGraph HashMap.empty 1000000 (IterationOrder.insertion _) HashMap.empty
      () "sim/eth/frame/0/tx" (List.replicate 20 0)).isSome = false ∧
    (handleSyscMsg pairGraph HashMap.empty 1000000 (IterationOrder.insertion _) HashMap.empty
      "sim/eth/frame/0/tx" (List.replicate 20 0)).isSome = true := by
  decide +kernel

end Checked

end Virtmcu.ZenohCoordinator
