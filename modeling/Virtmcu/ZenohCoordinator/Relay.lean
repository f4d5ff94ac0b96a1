import Virtmcu.ZenohCoordinator.Ingest

/-! # Relayed frames

What becomes of an Ethernet or UART frame between `encode_frame` at the sender and `decode_frame` at
the receiver. The two handlers cut the data out from byte 20 of a frame whose header has 24 bytes, so
the last four bytes of the header travel in front of the payload (`readFrame_encodeFrame`) and the
frame that is put carries four bytes more than the one that came in. The handler for SystemC cuts
behind the whole header. A frame is therefore relayed unchanged only if nobody receives it
(`relaysUnchanged_iff`). -/

namespace Virtmcu.ZenohCoordinator

open List

open DeterministicCoordinator (saturatingAdd ZenohFrameHeader zenohFrameHeaderSize encodeFrame
  length_encodeFrame unpackSlice_encodeFrame drop_encodeFrame)
open Devices (decodeFrame)

/-! ## Links without faults -/

/-- A link that neither drops nor jitters. -/
def LinkState.IsQuiet (link : LinkState) : Prop := link.dropProbability ≤ 0 ∧ link.jitterNs = 0

instance (link : LinkState) : Decidable link.IsQuiet := inferInstanceAs (Decidable (_ ∧ _))

section

variable {σ : Type} {rng : Rng σ} {isAllowed : String → Bool} {link : String → LinkState}

/-- Over a quiet link a frame goes out, and nothing is drawn for it. -/
theorem Rng.fate_of_isQuiet {st : LinkState} (h : st.IsQuiet) (s : σ) :
    rng.fate st s = (.passed none, s) := by
  obtain ⟨hdrop, hjitter⟩ := h
  have hnodrop : ¬ 0 < st.dropProbability := Rat.not_lt.mpr hdrop
  simp [Rng.fate, hnodrop, hjitter]

variable {dst : String}

/-- An allowed destination is decided by its link. -/
theorem destFate_of_isAllowed (h : isAllowed dst = true) (s : σ) :
    destFate rng isAllowed link dst s = rng.fate (link dst) s := if_pos h

theorem destFate_of_not_isAllowed (h : isAllowed dst = false) (s : σ) :
    destFate rng isAllowed link dst s = (.denied, s) := by
  rw [destFate, h]
  rfl

theorem fates_cons (dst : String) (dsts : List String) (s : σ) : fates rng isAllowed link (dst :: dsts) s =
      ((dst, (destFate rng isAllowed link dst s).1) ::
          (fates rng isAllowed link dsts (destFate rng isAllowed link dst s).2).1,
        (fates rng isAllowed link dsts (destFate rng isAllowed link dst s).2).2) := rfl

variable {dsts : List String}

/-- Decisions are made for the destinations. -/
theorem mem_of_mem_fates {s : σ} {fate : Fate}
    (h : (dst, fate) ∈ (fates rng isAllowed link dsts s).1) : dst ∈ dsts := by
  induction dsts generalizing s with
  | nil => exact absurd h not_mem_nil
  | cons d dsts ih =>
    rw [fates_cons, mem_cons] at h
    rcases h with heq | hrest
    · rw [(Prod.mk.inj heq).1]
      exact mem_cons_self
    · exact mem_cons_of_mem _ (ih hrest)

/-- A frame goes out over allowed links only. -/
theorem isAllowed_of_passed {s : σ} {jitter : Option UInt64}
    (h : (dst, .passed jitter) ∈ (fates rng isAllowed link dsts s).1) : isAllowed dst = true := by
  induction dsts generalizing s with
  | nil => exact absurd h not_mem_nil
  | cons d dsts ih =>
    rw [fates_cons, mem_cons] at h
    rcases h with heq | hrest
    · obtain ⟨rfl, hfate⟩ := Prod.mk.inj heq
      cases hallowed : isAllowed dst with
      | true => rfl
      | false =>
        -- a forbidden destination is denied
        rw [destFate_of_not_isAllowed hallowed] at hfate
        cases hfate
    · exact ih hrest

/-- An allowed destination behind a quiet link gets the frame, whatever was drawn before. -/
theorem passed_of_isQuiet (s : σ) (hmem : dst ∈ dsts)
    (hallowed : isAllowed dst = true) (hquiet : (link dst).IsQuiet) :
    (dst, .passed none) ∈ (fates rng isAllowed link dsts s).1 := by
  induction dsts generalizing s with
  | nil => exact absurd hmem not_mem_nil
  | cons d dsts ih =>
    rw [fates_cons, mem_cons]
    rcases mem_cons.mp hmem with rfl | hrest
    · left
      rw [destFate_of_isAllowed hallowed, Rng.fate_of_isQuiet hquiet]
    · exact .inr (ih _ hrest)

end

/-! ## What the handlers make of a frame -/

section

variable (v s : UInt64) (payload : List UInt8)

/-- The data the handlers take out of a frame: the four bytes of padding, and the payload. -/
theorem readFrame_encodeFrame : readFrame (encodeFrame v s payload) =
    some (some (⟨v, s, payload.length.toUInt32⟩,
      leBytes 4 0 ++ payload.take payload.length.toUInt32.toNat)) := by
  have hsize : payload.length.toUInt32.toNat ≤ payload.length := Nat.mod_le _ _
  have hlen := length_encodeFrame v s payload
  -- byte 20 is the first one behind the three fields of the header
  have hdrop : (encodeFrame v s payload).drop 20 = leBytes 4 0 ++ payload := by
    simp only [encodeFrame, ZenohFrameHeader.bytes, append_assoc]
    rw [← append_assoc, ← append_assoc]
    exact drop_left' (by simp)
  have htake : (leBytes 4 0 ++ payload).take
      (zenohFrameHeaderSize + payload.length.toUInt32.toNat - 20) =
      leBytes 4 0 ++ payload.take payload.length.toUInt32.toNat := by
    have hcount : zenohFrameHeaderSize + payload.length.toUInt32.toNat - 20 =
        (leBytes 4 0).length + payload.length.toUInt32.toNat := by
      rw [length_leBytes, zenohFrameHeaderSize]
      omega
    rw [hcount, take_length_add_append]
  have hshort : ¬ (encodeFrame v s payload).length < 20 := by omega
  have hwhole : ¬ (encodeFrame v s payload).length <
      zenohFrameHeaderSize + payload.length.toUInt32.toNat := by
    rw [hlen, zenohFrameHeaderSize]
    omega
  simp only [readFrame, if_neg hshort, unpackSlice_encodeFrame, if_neg hwhole, hdrop, htake]

theorem decodeFrame_encodeFrame :
    decodeFrame (encodeFrame v s payload) = some (⟨v, s, payload.length.toUInt32⟩, payload) := by
  rw [decodeFrame, unpackSlice_encodeFrame]
  exact congrArg some (Prod.ext rfl (drop_encodeFrame v s payload))

/-- Four bytes in front of a payload, cut to the range of the size field or not, are never the
payload. -/
theorem padded_ne : leBytes 4 0 ++ payload.take payload.length.toUInt32.toNat ≠ payload := by
  intro heq
  have hlen := congrArg List.length heq
  have hsize : payload.length.toUInt32.toNat = payload.length % 2 ^ 32 := rfl
  rw [length_append, length_leBytes, length_take, hsize] at hlen
  omega

end

/-! ## The arms -/

/-- The two TX arms with this body. -/
inductive FrameArm
  | eth
  | uart
  deriving DecidableEq, Repr

/-- The protocol of an arm. -/
def FrameArm.protocol : FrameArm → Protocol
  | .eth => .ethernet
  | .uart => .uart

section

variable {σ : Type} (rng : Rng σ) (tg : TopologyGraph) (links : Links) (delay : UInt64)
  (order : IterationOrder String) (known : Known)

/-- The handler of an arm. -/
def FrameArm.handle : FrameArm → σ → String → List UInt8 → Option (Handled σ)
  | .eth => handleEthMsg rng tg links delay order known
  | .uart => handleUartMsg rng tg links delay order known

theorem FrameArm.handle_eq (arm : FrameArm) : arm.handle rng tg links delay order known =
      handleFrameMsg rng tg links delay order known arm.protocol := by
  cases arm <;> rfl

/-- A node that a frame from `src` under `base` goes to: joined to it by a wire of the protocol in an
explicit topology, seen under the same base topic otherwise. -/
def CanReceive (arm : FrameArm) (base src dst : String) : Prop :=
  dst ≠ src ∧
    if tg.isExplicit then tg.isLinkAllowed src dst arm.protocol = true
    else ∃ nodes, known.get base = some nodes ∧ dst ∈ nodes.toList

/-- **A frame is relayed unchanged**: the handler accepts it, and each of its messages over a link
without drop and jitter is decoded to the time at the sender plus the delay of the link, the sequence
number, the length of the payload and the payload. -/
def RelaysUnchanged (arm : FrameArm) (rngState : σ) (topic : String) (v s : UInt64)
    (payload : List UInt8) : Prop :=
  ∃ r, arm.handle rng tg links delay order known rngState topic (encodeFrame v s payload) = some r ∧
    ∀ px base src, parseTopicWithPrefix topic = some (px, base, src) → ∀ m ∈ r.msgs,
      (links.state delay px src m.dstNodeId).IsQuiet →
      ∃ header, decodeFrame (encodeProtocolMsg m).2 = some (header, payload) ∧
        header.deliveryVtimeNs = saturatingAdd v (links.state delay px src m.dstNodeId).delayNs ∧
        header.sequenceNumber = s ∧ header.size.toNat = payload.length

variable {rng tg links delay order known}

variable {arm : FrameArm}

/-- Remembering the sender does not change who else is known. -/
theorem mem_destNodes_note {base src dst : String} :
    dst ∈ (destNodes tg (known.note base src) base src arm.protocol).toList ↔
      CanReceive tg known arm base src dst := by
  cases hexp : tg.isExplicit with
  | true =>
    simp only [destNodes, CanReceive, hexp, if_true]
    exact TopologyGraph.mem_getWirePeers hexp
  | false =>
    simp only [destNodes, CanReceive, hexp, Bool.false_eq_true, if_false, Known.note,
      HashMap.get_insert, if_true, HashSet.mem_ofList, mem_filter, HashSet.mem_insert,
      decide_eq_true_eq]
    cases hget : known.get base with
    | none =>
      constructor
      · rintro ⟨hmem | rfl, hne⟩
        · exact absurd hmem not_mem_nil
        · exact absurd rfl hne
      · rintro ⟨-, nodes, hnodes, -⟩
        cases hnodes
    | some nodes =>
      constructor
      · rintro ⟨hmem | rfl, hne⟩
        · exact ⟨hne, nodes, rfl, hmem⟩
        · exact absurd rfl hne
      · rintro ⟨hne, nodes', hnodes, hmem⟩
        obtain rfl := Option.some.inj hnodes
        exact ⟨.inl hmem, hne⟩

theorem isLinkAllowed_of_canReceive {base src dst : String} (h : CanReceive tg known arm base src dst) :
    tg.isLinkAllowed src dst arm.protocol = true := by
  cases hexp : tg.isExplicit with
  | true => simpa [CanReceive, hexp] using h.2
  | false => simp [TopologyGraph.isLinkAllowed, hexp]

variable (rng tg links delay order known)

/-- The decisions of the loop for a frame from `src`. -/
def frameFates (arm : FrameArm) (px base src : String) (rngState : σ) : List (String × Fate) :=
  (fates rng (fun dst => tg.isLinkAllowed src dst arm.protocol) (links.state delay px src)
    ((destNodes tg (known.note base src) base src arm.protocol).reorder order).toList rngState).1

/-- A frame of a device is accepted, and a message is made for each destination it passes to. -/
theorem handle_encodeFrame (arm : FrameArm) (rngState : σ) {topic px base src : String}
    (v s : UInt64) (payload : List UInt8) (htopic : parseTopicWithPrefix topic = some (px, base, src)) :
    ∃ r, arm.handle rng tg links delay order known rngState topic (encodeFrame v s payload) = some r ∧
      ∀ m, m ∈ r.msgs ↔ ∃ dst jitter,
        (dst, .passed jitter) ∈ frameFates rng tg links delay order known arm px base src rngState ∧
        m = ⟨src, dst, base, saturatingAdd v (actualDelay (links.state delay px src dst) jitter), s,
          arm.protocol, leBytes 4 0 ++ payload.take payload.length.toUInt32.toNat⟩ := by
  rw [FrameArm.handle_eq]
  simp only [handleFrameMsg, htopic, readFrame_encodeFrame]
  refine ⟨_, rfl, fun m => ?_⟩
  rw [mem_filterMap]
  constructor
  · rintro ⟨⟨dst, fate⟩, hmem, hm⟩
    cases fate with
    | denied | dropped => cases hm
    | passed jitter => exact ⟨dst, jitter, hmem, (Option.some.inj hm).symm⟩
  · rintro ⟨dst, jitter, hmem, rfl⟩
    exact ⟨(dst, .passed jitter), hmem, rfl⟩

variable {rng tg links delay order known}

/-- Decisions are made for the nodes that can receive. -/
theorem canReceive_of_mem_frameFates {px base src dst : String} {fate : Fate} {rngState : σ}
    (h : (dst, fate) ∈ frameFates rng tg links delay order known arm px base src rngState) :
    CanReceive tg known arm base src dst := by
  exact mem_destNodes_note.mp (HashSet.mem_reorder.mp (mem_of_mem_fates h))

/-- What a relayed message is decoded to. -/
theorem decodeFrame_relayed (arm : FrameArm) (src dst base : String) (v s : UInt64) (data : List UInt8) :
    decodeFrame (encodeProtocolMsg ⟨src, dst, base, v, s, arm.protocol, data⟩).2 =
      some (⟨v, s, data.length.toUInt32⟩, data) := by
  cases arm
  · exact decodeFrame_encodeFrame v s data
  · exact decodeFrame_encodeFrame v s data

/-- Whoever receives a frame over a quiet link gets four bytes too many. -/
theorem not_relaysUnchanged_of_canReceive {rngState : σ}
    {topic px base src dst : String} {v s : UInt64} {payload : List UInt8}
    (htopic : parseTopicWithPrefix topic = some (px, base, src))
    (hcan : CanReceive tg known arm base src dst) (hquiet : (links.state delay px src dst).IsQuiet) :
    ¬ RelaysUnchanged rng tg links delay order known arm rngState topic v s payload := by
  rintro ⟨r, hr, hall⟩
  obtain ⟨r', hr', hmsgs⟩ := handle_encodeFrame rng tg links delay order known arm rngState v s
    payload htopic
  obtain rfl : r = r' := Option.some.inj (hr.symm.trans hr')
  have hpassed : (dst, .passed none) ∈
      frameFates rng tg links delay order known arm px base src rngState :=
    passed_of_isQuiet rngState (HashSet.mem_reorder.mpr (mem_destNodes_note.mpr hcan))
      (isLinkAllowed_of_canReceive hcan) hquiet
  obtain ⟨header, hdecode, -⟩ :=
    hall px base src htopic _ ((hmsgs _).mpr ⟨dst, none, hpassed, rfl⟩) hquiet
  rw [decodeFrame_relayed] at hdecode
  exact padded_ne payload (Prod.mk.inj (Option.some.inj hdecode)).2

end

/-- **A frame is relayed unchanged if and only if nobody receives it** over a link without drop and
jitter. -/
theorem relaysUnchanged_iff {σ : Type} (rng : Rng σ) (tg : TopologyGraph) (links : Links)
    (delay : UInt64) (order : IterationOrder String) (known : Known) (arm : FrameArm) (rngState : σ)
    (topic : String) (v s : UInt64) (payload : List UInt8) :
    RelaysUnchanged rng tg links delay order known arm rngState topic v s payload ↔
      ∀ px base src, parseTopicWithPrefix topic = some (px, base, src) → ∀ dst,
        CanReceive tg known arm base src dst → ¬ (links.state delay px src dst).IsQuiet := by
  constructor
  · intro hrelays px base src htopic dst hcan hquiet
    exact not_relaysUnchanged_of_canReceive htopic hcan hquiet hrelays
  · intro hnone
    cases htopic : parseTopicWithPrefix topic with
    | none =>
      refine ⟨⟨known, rngState, [], []⟩, ?_, fun px base src h => ?_⟩
      · rw [FrameArm.handle_eq]
        simp only [handleFrameMsg, htopic]
      · rw [htopic] at h
        cases h
    | some parsed =>
      obtain ⟨px, base, src⟩ := parsed
      obtain ⟨r, hr, hmsgs⟩ := handle_encodeFrame rng tg links delay order known arm rngState v s
        payload htopic
      refine ⟨r, hr, fun px' base' src' h m hm hquiet => ?_⟩
      obtain ⟨rfl, rfl, rfl⟩ : px = px' ∧ base = base' ∧ src = src' := by
        rw [htopic] at h
        simpa using h
      -- there is no message over a quiet link
      obtain ⟨dst, jitter, hpassed, rfl⟩ := (hmsgs m).mp hm
      exact absurd hquiet (hnone px base src htopic dst (canReceive_of_mem_frameFates hpassed))

/-! ## A frame between two nodes -/

/-- A generator that always draws the smallest value. -/
def stillRng : Rng Unit where
  seedFromU64 _ := ()
  genF64 s := (0, s)
  genRange _ s := (0, s)
  genF64_mem _ := ⟨Rat.le_refl, show (0 : Rat) < 1 by decide⟩
  genRange_le hi _ := UInt64.le_iff_toNat_le.mpr (Nat.zero_le _)

/-- Nodes `0` and `1` on one Ethernet. -/
def pairGraph : TopologyGraph :=
  { TopologyGraph.default with
    wireLinks := [⟨.ethernet, ["0", "1"], none⟩]
    isExplicit := true }

/-- Node `0` sends the byte `170` at time 1000; node `1` reads five bytes. -/
theorem not_relaysUnchanged_pairGraph :
    ((handleEthMsg stillRng pairGraph HashMap.empty 500 (IterationOrder.insertion _) HashMap.empty ()
        "sim/eth/frame/0/tx" (encodeFrame 1000 7 [170])).map fun r =>
          r.msgs.map fun m => decodeFrame (encodeProtocolMsg m).2) =
      some [some (⟨1500, 7, 5⟩, [0, 0, 0, 0, 170])] ∧
    ¬ RelaysUnchanged stillRng pairGraph HashMap.empty 500 (IterationOrder.insertion _) HashMap.empty
      .eth () "sim/eth/frame/0/tx" 1000 7 [170] := by
  refine ⟨by decide +kernel, ?_⟩
  have htopic : parseTopicWithPrefix "sim/eth/frame/0/tx" = some ("", "sim/eth/frame", "0") := by
    decide +kernel
  have hcan : CanReceive pairGraph HashMap.empty .eth "sim/eth/frame" "0" "1" :=
    ⟨by decide, by decide⟩
  exact not_relaysUnchanged_of_canReceive htopic hcan ⟨Rat.le_refl, rfl⟩

end Virtmcu.ZenohCoordinator
