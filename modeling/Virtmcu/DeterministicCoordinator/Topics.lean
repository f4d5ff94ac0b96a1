import Virtmcu.DeterministicCoordinator.Message
import Virtmcu.Foundations.Text

/-! # Topics

The topic templates of `topics.rs` that the coordinator publishes on, and `parse_legacy_topic`, which
recovers protocol, node and base from the topic of a device. -/

namespace Virtmcu.DeterministicCoordinator

open List

/-! ## Templates -/

namespace Templates

def clockStart (nodeId : String) : String := "sim/clock/start/" ++ nodeId

def coordDone (nodeId : String) : String := "sim/coord/" ++ nodeId ++ "/done"

def coordRx (nodeId : String) : String := "sim/coord/" ++ nodeId ++ "/rx"

def ethRx (nodeId : String) : String := "sim/eth/frame/" ++ nodeId ++ "/rx"

def uartRx (nodeId : String) : String := "virtmcu/uart/" ++ nodeId ++ "/rx"

def canRx (nodeId : String) : String := "sim/can/" ++ nodeId ++ "/rx"

def linRx (nodeId : String) : String := "sim/lin/" ++ nodeId ++ "/rx"

def spiBase (bus nodeId : String) : String := "sim/spi/" ++ bus ++ "/" ++ nodeId

def rfIeee802154Rx (nodeId : String) : String := "sim/rf/ieee802154/" ++ nodeId ++ "/rx"

def rfHciRx (nodeId : String) : String := "sim/rf/hci/" ++ nodeId ++ "/rx"

end Templates

/-- `id.to_string()` of a node id. -/
def nodeIdString (id : UInt32) : String := toString id.toNat

/-! ## Parsing -/

/-- The arms of `parse_legacy_topic` in order: the text looked for in the topic and the protocol it
stands for. All arms read the node id and the base the same way. -/
def legacyFamilies : List (String × Protocol) :=
  [("eth", .ethernet), ("uart", .uart), ("can", .canFd), ("lin", .lin), ("spi", .spi),
   ("rf/hci", .rfHci), ("rf", .rf802154), ("systemc", .ethernet)]

/-- `parse_legacy_topic`: the first family named in the topic decides, the segment before the last is
the node id, everything before it the base. A family without a readable id is not retried. -/
def parseLegacyTopic (topic : String) : Option (Protocol × UInt32 × String) :=
  let parts := split '/' topic
  if parts.length < 3 then none
  else do
    -- the text may stand anywhere in the topic, not only in a segment of its own
    let family ← legacyFamilies.find? fun f => containsStr topic f.1
    let nidStr ← parts.reverse[1]?
    let nid ← parseU32 nidStr
    return (family.2, nid, String.intercalate "/" (parts.take (parts.length - 2)))

/-- The node id of a DONE topic: its third segment, when there are at least four. -/
def parseDoneTopic (topic : String) : Option UInt32 :=
  let parts := split '/' topic
  if parts.length ≥ 4 then parts[2]?.bind parseU32 else none

/-! ## START topics are told apart from everything else the coordinator publishes -/

theorem toList_clockStart (nodeId : String) :
    (Templates.clockStart nodeId).toList = "sim/clock/start/".toList ++ nodeId.toList :=
  String.toList_append

/-- The START topics of different nodes differ. -/
theorem clockStart_injective {i j : Nat}
    (h : Templates.clockStart (toString i) = Templates.clockStart (toString j)) : i = j := by
  have hlist := congrArg String.toList h
  rw [toList_clockStart, toList_clockStart] at hlist
  exact toString_nat_injective (String.toList_injective (append_cancel_left hlist))

/-- A START topic ends in a digit. -/
theorem clockStart_getLast (i : Nat) :
    ∃ c, (Templates.clockStart (toString i)).toList.getLast? = some c ∧ c.isDigit = true := by
  have hne := toString_nat_toList_ne_nil i
  refine ⟨(toString i).toList.getLast hne, ?_, isDigit_of_mem_toString (getLast_mem hne)⟩
  rw [toList_clockStart, getLast?_append_of_ne_nil _ hne, getLast?_eq_getLast_of_ne_nil hne]

/-- The topic ends in `/rx`, as all data topics do. -/
def IsRxTopic (topic : String) : Prop := ∃ base : String, topic = base ++ "/rx"

/-- No data topic is a START topic. -/
theorem IsRxTopic.ne_clockStart {topic : String} (h : IsRxTopic topic) (i : Nat) :
    topic ≠ Templates.clockStart (toString i) := by
  rintro rfl
  obtain ⟨base, hbase⟩ := h
  obtain ⟨c, hc, hdigit⟩ := clockStart_getLast i
  have hx : (base ++ "/rx").toList.getLast? = some 'x' := by
    rw [String.toList_append, getLast?_append_of_ne_nil _ (by decide)]
    rfl
  rw [hbase, hx] at hc
  cases hc
  exact absurd hdigit (by decide)

/-- The receive topic of a node determines the node. -/
theorem coordRx_injective {s t : UInt32}
    (h : Templates.coordRx (nodeIdString s) = Templates.coordRx (nodeIdString t)) : s = t := by
  have hlist := congrArg String.toList h
  rw [Templates.coordRx, Templates.coordRx, String.toList_append, String.toList_append,
    String.toList_append, String.toList_append] at hlist
  have hid := append_cancel_left (append_cancel_right hlist)
  exact UInt32.toNat_inj.mp (toString_nat_injective (String.toList_injective hid))

end Virtmcu.DeterministicCoordinator
