import Virtmcu.DeterministicCoordinator.Subscriptions
import Virtmcu.Devices.Topics
import Mathlib.Data.List.Find

/-! # Do devices and coordinator agree on topics?

The coordinator recovers protocol, node and base from the TX topic of a frame and sends to
`{base}/{t}/rx`. Whether the device of the receiver listens there depends on how the device crates build
their topics. `topicAgreement_iff` goes through the subscriptions one by one. -/

namespace Virtmcu.DeterministicCoordinator

open Devices List Option

/-! ## The subscribed TX topics -/

/-- The subscriptions with their blanks: an SPI bus, the port of a UART, or a segment of a configured
base topic below `virtmcu/uart`. -/
inductive TxFamily
  | ethFrame
  | simUart
  | can
  | lin
  | systemcFrame
  | spi (bus : String)
  | rfIeee802154
  | rfHci
  | chardev
  | netdev
  | uart
  | uartPort (port : String)
  | uartCustom (segment : String)

namespace TxFamily

/-- The protocol of the family: network cards speak Ethernet, character devices are UARTs, and SystemC
frames go as Ethernet. -/
def protocol : TxFamily → Protocol
  | ethFrame | netdev | systemcFrame => .ethernet
  | simUart | uart | chardev | uartPort _ | uartCustom _ => .uart
  | can => .canFd
  | lin => .lin
  | spi _ => .spi
  | rfIeee802154 => .rf802154
  | rfHci => .rfHci

/-- The topic a device of the family on node `n` publishes its frames on. -/
def txTopic (f : TxFamily) (n : UInt32) : String :=
  let node := nodeIdString n
  match f with
  | ethFrame => netdevTxTopic none node
  | netdev => netdevTxTopic (some "sim/netdev") node
  | simUart => chardevTxTopic (some "sim/uart") node
  | chardev => chardevTxTopic (some "sim/chardev") node
  | uart => chardevTxTopic none node
  | rfHci => chardevTxTopic (some "sim/rf/hci") node
  -- `uart_port_tx`: the port comes behind the node
  | uartPort port => chardevTxTopic none (node ++ "/" ++ port)
  | uartCustom segment => chardevTxTopic (some ("virtmcu/uart/" ++ segment)) node
  | can => canfdTxTopic (nodeTopic "sim/can" node "tx")
  | lin => lpuartTxTopic none node
  | systemcFrame => systemcTxTopic node
  | rfIeee802154 => ieee802154TxTopic none node
  | spi bus => Templates.spiBase bus node ++ "/tx"

/-- The topic a device of the same kind, configured the same way, subscribes to on node `t`. The SPI
device subscribes to none. -/
def rxTopic (f : TxFamily) (t : UInt32) : Option String :=
  let node := nodeIdString t
  match f with
  | ethFrame => some (netdevRxTopic none node)
  | netdev => some (netdevRxTopic (some "sim/netdev") node)
  | simUart => some (chardevRxTopic (some "sim/uart") node)
  | chardev => some (chardevRxTopic (some "sim/chardev") node)
  | uart => some (chardevRxTopic none node)
  | rfHci => some (chardevRxTopic (some "sim/rf/hci") node)
  | uartPort port => some (chardevRxTopic none (node ++ "/" ++ port))
  | uartCustom segment => some (chardevRxTopic (some ("virtmcu/uart/" ++ segment)) node)
  -- a CAN host that publishes on a TX topic subscribes to that topic
  | can => some (canfdRxTopic (nodeTopic "sim/can" node "tx"))
  | lin => some (lpuartRxTopic none node)
  | systemcFrame => some (systemcRxTopic node)
  | rfIeee802154 => some (ieee802154RxTopic none node)
  | spi _ => none

/-- The coordinator reads protocol and node off the topic of node `n`, and a base under which every
receiver listens. -/
def Agrees (f : TxFamily) (n : UInt32) : Prop :=
  ∃ base, parseLegacyTopic (f.txTopic n) = some (f.protocol, n, base) ∧
    ∀ t : UInt32, f.rxTopic t = some (base ++ "/" ++ nodeIdString t ++ "/rx")

/-- The families on which devices and coordinator agree. -/
def Agreeing : TxFamily → Prop
  | simUart | lin | systemcFrame | rfIeee802154 | rfHci | uart => True
  | uartCustom segment => containsStr segment "eth" = false
  | ethFrame | can | spi _ | chardev | netdev | uartPort _ => False

end TxFamily

/-! ## Reading a topic -/

theorem toList_nodeTopic (base node direction : String) : (nodeTopic base node direction).toList =
    base.toList ++ '/' :: (node.toList ++ '/' :: direction.toList) := by
  simp only [nodeTopic, String.toList_append, append_assoc]
  rfl

theorem split_of_slash_not_mem {s : String} (h : '/' ∉ s.toList) : split '/' s = [s] := by
  rw [split, splitList_of_not_mem h, map_singleton, String.ofList_toList]

theorem split_nodeIdString (n : UInt32) : split '/' (nodeIdString n) = [nodeIdString n] :=
  split_of_slash_not_mem (not_mem_toString (by decide))

variable (base : String)

/-- A topic with a node id: the pieces of the base, the id, the direction. -/
theorem split_nodeTopic (n : UInt32) :
    split '/' (nodeTopic base (nodeIdString n) "tx") = split '/' base ++ [nodeIdString n, "tx"] := by
  have htx : split '/' "tx" = ["tx"] := by decide +kernel
  rw [nodeTopic, split_append '/' _ _ "/" rfl, split_append '/' _ _ "/" rfl, split_nodeIdString, htx,
    append_assoc]
  rfl

theorem parseU32_nodeIdString (n : UInt32) : parseU32 (nodeIdString n) = some n := by
  rw [parseU32, nodeIdString, parseUnsigned_toString n.toNat_lt, map_some, UInt32.ofNat_toNat]

/-- A word within one segment that is not part of a number or of `tx`. -/
def IsSegmentWord (word : String) : Prop :=
  '/' ∉ word.toList ∧ (∃ c ∈ word.toList, c.isDigit = false) ∧ ¬ word.toList <:+: "tx".toList

-- the search for a character goes through the word, not through all characters
instance (word : String) : Decidable (IsSegmentWord word) :=
  haveI := List.decidableBEx (fun c : Char => c.isDigit = false) word.toList
  inferInstanceAs (Decidable (_ ∧ _ ∧ _))

/-- The words of `parse_legacy_topic` are such words, but for `rf/hci`. -/
theorem isSegmentWord_of_mem_legacyFamilies : ∀ f ∈ legacyFamilies, f.1 = "rf/hci" ∨ IsSegmentWord f.1 := by
  decide +kernel

theorem IsSegmentWord.infix_nodeTopic_iff {word : String} (h : IsSegmentWord word) (base : String)
    (n : UInt32) : word.toList <:+: (nodeTopic base (nodeIdString n) "tx").toList ↔
      word.toList <:+: base.toList := by
  obtain ⟨hslash, ⟨c, hc, hdigit⟩, htx⟩ := h
  have hne : word.toList ≠ [] := ne_nil_of_mem hc
  have hnode : ¬ word.toList <:+: (nodeIdString n).toList := fun hinside =>
    not_mem_toString hdigit (hinside.subset hc)
  rw [toList_nodeTopic, infix_append_cons_iff hslash hne, infix_append_cons_iff hslash hne]
  simp only [hnode, htx, or_false]

/-- `rf/hci` ends in a letter that no node id and no direction has. -/
theorem infix_rfHci_nodeTopic_iff (n : UInt32) :
    "rf/hci".toList <:+: (nodeTopic base (nodeIdString n) "tx").toList ↔
      "rf/hci".toList <:+: base.toList := by
  rw [toList_nodeTopic]
  constructor
  · intro h
    have hi : 'i' ∉ '/' :: ((nodeIdString n).toList ++ '/' :: "tx".toList) := by
      have hnode : 'i' ∉ (nodeIdString n).toList := not_mem_toString (by decide)
      simp [hnode]
    have hsplit : "rf/hci".toList = "rf/hc".toList ++ ['i'] := rfl
    rw [hsplit] at h ⊢
    exact infix_of_infix_append hi h
  · intro h
    exact h.trans (prefix_append _ _).isInfix

/-- No word the coordinator looks for is in a node id or a direction, nor across their borders. -/
theorem containsStr_nodeTopic (n : UInt32) {f : String × Protocol}
    (hf : f ∈ legacyFamilies) :
    containsStr (nodeTopic base (nodeIdString n) "tx") f.1 = containsStr base f.1 := by
  unfold containsStr
  rcases isSegmentWord_of_mem_legacyFamilies f hf with hrf | hword
  · rw [hrf, decide_eq_decide]
    exact infix_rfHci_nodeTopic_iff base n
  · rw [decide_eq_decide]
    exact hword.infix_nodeTopic_iff base n

/-- What the coordinator reads in a topic of node `n`: the node and the base are right, the protocol is
the first one named in the base. -/
theorem parseLegacyTopic_nodeTopic (n : UInt32) :
    parseLegacyTopic (nodeTopic base (nodeIdString n) "tx") =
      (legacyFamilies.find? fun f => containsStr base f.1).map fun f => (f.2, n, base) := by
  have hlen : 0 < (split '/' base).length := length_pos_of_ne_nil (split_ne_nil '/' base)
  have hfind : (legacyFamilies.find? fun f =>
      containsStr (nodeTopic base (nodeIdString n) "tx") f.1) =
      legacyFamilies.find? fun f => containsStr base f.1 :=
    List.find?_congr fun f hf => containsStr_nodeTopic base n hf
  simp only [parseLegacyTopic, split_nodeTopic, hfind, length_append, length_cons, length_nil]
  rw [if_neg (by omega)]
  cases legacyFamilies.find? fun f => containsStr base f.1 with
  | none => rfl
  | some f =>
    simp [parseU32_nodeIdString, intercalate_split '/' base "/" rfl]

/-! ## Receiving -/

/-- The topic the coordinator sends to determines the receiver. -/
theorem rxTopic_injective {s t : UInt32}
    (h : base ++ "/" ++ nodeIdString s ++ "/rx" = base ++ "/" ++ nodeIdString t ++ "/rx") : s = t := by
  have hlist := congrArg String.toList h
  rw [String.toList_append, String.toList_append (s := base ++ "/"), String.toList_append (t := "/rx"),
    String.toList_append (s := base ++ "/")] at hlist
  have hid := append_cancel_left (append_cancel_right hlist)
  exact UInt32.toNat_inj.mp (toString_nat_injective (String.toList_injective hid))

namespace TxFamily

variable {f : TxFamily} {n : UInt32}

/-- A device that builds both topics from a base and the node: everything hangs on the protocol. -/
theorem agrees_iff_of_base (htx : f.txTopic n = nodeTopic base (nodeIdString n) "tx")
    (hrx : ∀ t, f.rxTopic t = some (nodeTopic base (nodeIdString t) "rx")) :
    f.Agrees n ↔ (legacyFamilies.find? fun g => containsStr base g.1).map Prod.snd = some f.protocol := by
  unfold Agrees
  rw [htx, parseLegacyTopic_nodeTopic]
  cases legacyFamilies.find? fun g => containsStr base g.1 with
  | none => simp
  | some g =>
    simp only [map_some, Option.some.injEq, Prod.mk.injEq]
    constructor
    · rintro ⟨base', ⟨hprotocol, -⟩, -⟩
      exact hprotocol
    · intro hprotocol
      refine ⟨base, ⟨hprotocol, trivial, rfl⟩, fun t => ?_⟩
      rw [hrx, nodeTopic, String.append_assoc]
      rfl

/-- Such a device agrees if a word of its protocol is the first that occurs in the base. -/
theorem agrees_of_base (htx : f.txTopic n = nodeTopic base (nodeIdString n) "tx")
    (hrx : ∀ t, f.rxTopic t = some (nodeTopic base (nodeIdString t) "rx"))
    (hword : (legacyFamilies.find? fun g => containsStr base g.1).map Prod.snd = some f.protocol) :
    f.Agrees n := by
  rw [agrees_iff_of_base base htx hrx]
  exact hword

/-- A device that listens on one topic whatever its node cannot be reached on two nodes. -/
theorem not_agrees_of_const {topic : String} (hrx : ∀ t, f.rxTopic t = some topic) : ¬ f.Agrees n := by
  rintro ⟨base, -, hbase⟩
  have heq := (hbase 0).symm.trans ((hrx 0).trans ((hrx 1).symm.trans (hbase 1)))
  exact absurd (rxTopic_injective base (Option.some.inj heq)) (by decide)

/-- A CAN host listens where it publishes, which is no RX topic. -/
theorem not_agrees_can : ¬ can.Agrees n := by
  rintro ⟨base, -, hbase⟩
  have hlast := congrArg (fun s : String => s.toList.reverse[1]?) (Option.some.inj (hbase 0))
  have htx : (nodeTopic "sim/can" (nodeIdString 0) "tx").toList.reverse[1]? = some 't' := by
    decide +kernel
  have hrx : (base ++ "/" ++ nodeIdString 0 ++ "/rx").toList.reverse[1]? = some 'r' := by
    rw [String.toList_append, reverse_append]
    rfl
  rw [hrx] at hlast
  exact absurd (htx.symm.trans hlast) (by decide)

/-- With a port, the receivers differ in a segment before the last, and the coordinator fills in the
last. -/
theorem not_agrees_uartPort (port : String) : ¬ (uartPort port).Agrees n := by
  rintro ⟨base, -, hbase⟩
  have htopic {t : UInt32} {c : Char} (hc : (nodeIdString t).toList = [c]) :
      "virtmcu/uart/".toList ++ c :: ('/' :: port.toList ++ "/rx".toList) =
        (base ++ "/").toList ++ c :: "/rx".toList := by
    have h := congrArg String.toList (Option.some.inj (hbase t))
    simpa [chardevRxTopic, nodeTopic, hc] using h
  have h₀ := htopic (t := 0) (c := '0') (by decide +kernel)
  have h₁ := htopic (t := 1) (c := '1') (by decide +kernel)
  have hport := congrArg List.length (append_cons_inj_of_ne (by decide) h₀ h₁)
  simp at hport

/-- Below `virtmcu/uart` the first word found is `uart`, unless `eth` is there too. -/
theorem find_uartCustom (segment : String) :
    (legacyFamilies.find? fun g => containsStr ("virtmcu/uart/" ++ segment) g.1).map Prod.snd =
      if containsStr segment "eth" then some .ethernet else some .uart := by
  have heth : containsStr ("virtmcu/uart/" ++ segment) "eth" = containsStr segment "eth" := by
    unfold containsStr
    rw [decide_eq_decide]
    have hlist : ("virtmcu/uart/" ++ segment).toList = "virtmcu/uart".toList ++ '/' :: segment.toList := by
      rw [String.toList_append]
      rfl
    have hnot : ¬ "eth".toList <:+: "virtmcu/uart".toList := by decide
    rw [hlist, infix_append_cons_iff (by decide) (by decide)]
    simp only [hnot, false_or]
  have huart : containsStr ("virtmcu/uart/" ++ segment) "uart" = true := by
    unfold containsStr
    rw [decide_eq_true_eq, String.toList_append]
    have hinside : "uart".toList <:+: "virtmcu/uart/".toList := by decide
    exact hinside.trans (prefix_append _ _).isInfix
  unfold legacyFamilies
  rw [List.find?_cons, List.find?_cons, heth, huart]
  cases containsStr segment "eth" <;> rfl

end TxFamily

/-! ## Agreement -/

/-- **Topic agreement**: the coordinator recovers the protocol, the node and a base under which the
receivers listen, exactly for the character devices on `virtmcu/uart`, `sim/uart`, `sim/rf/hci` and on a
base below `virtmcu/uart` whose segment does not contain `eth`, and for LIN, SystemC and 802.15.4. -/
theorem topicAgreement_iff (f : TxFamily) (n : UInt32) : f.Agrees n ↔ f.Agreeing := by
  cases f with
  | ethFrame | netdev => exact iff_of_false (TxFamily.not_agrees_of_const fun _ => rfl) id
  | can => exact iff_of_false TxFamily.not_agrees_can id
  | uartPort port => exact iff_of_false (TxFamily.not_agrees_uartPort port) id
  | spi bus =>
    -- nobody listens
    refine iff_of_false ?_ id
    rintro ⟨base, -, hbase⟩
    cases hbase 0
  | uartCustom segment =>
    rw [TxFamily.agrees_iff_of_base ("virtmcu/uart/" ++ segment) rfl fun _ => rfl, TxFamily.find_uartCustom]
    cases h : containsStr segment "eth" <;> simp [TxFamily.Agreeing, TxFamily.protocol, h]
  | chardev =>
    -- no word of the parser occurs in the topic
    rw [TxFamily.agrees_iff_of_base "sim/chardev" rfl fun _ => rfl]
    exact iff_of_false (by decide +kernel) id
  | simUart =>
    refine iff_of_true (TxFamily.agrees_of_base "sim/uart" rfl (fun _ => rfl) ?_) trivial
    decide +kernel
  | lin =>
    refine iff_of_true (TxFamily.agrees_of_base "sim/lin" rfl (fun _ => rfl) ?_) trivial
    decide +kernel
  | systemcFrame =>
    refine iff_of_true (TxFamily.agrees_of_base "sim/systemc/frame" rfl (fun _ => rfl) ?_) trivial
    decide +kernel
  | rfIeee802154 =>
    refine iff_of_true (TxFamily.agrees_of_base "sim/rf/ieee802154" rfl (fun _ => rfl) ?_) trivial
    decide +kernel
  | rfHci =>
    refine iff_of_true (TxFamily.agrees_of_base "sim/rf/hci" rfl (fun _ => rfl) ?_) trivial
    decide +kernel
  | uart =>
    refine iff_of_true (TxFamily.agrees_of_base "virtmcu/uart" rfl (fun _ => rfl) ?_) trivial
    decide +kernel

/-- The default Ethernet card: the coordinator sends to node 1 on `sim/eth/frame/1/rx`, and node 1
listens on `sim/eth/frame/rx`. -/
theorem not_topicAgreement_eth :
    parseLegacyTopic (TxFamily.ethFrame.txTopic 0) = some (.ethernet, 0, "sim/eth/frame") ∧
    TxFamily.ethFrame.rxTopic 1 = some "sim/eth/frame/rx" ∧
    ¬ TxFamily.ethFrame.Agrees 0 :=
  ⟨by decide +kernel, by decide +kernel, TxFamily.not_agrees_of_const fun _ => rfl⟩

end Virtmcu.DeterministicCoordinator
