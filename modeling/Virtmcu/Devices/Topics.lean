import Virtmcu.DeterministicCoordinator.Topics

/-! # Topics of the devices

The topics the device crates publish their frames on and subscribe to, from their configuration: an
optional base topic with a default, and a node id. -/

namespace Virtmcu.Devices

/-- `format!("{base}/{node}/{direction}")`, the shape of most device topics. -/
def nodeTopic (base node direction : String) : String :=
  base ++ "/" ++ node ++ "/" ++ direction

/-- TX topic of `netdev`. -/
def netdevTxTopic (topic : Option String) (node : String) : String :=
  nodeTopic (topic.getD "sim/eth/frame") node "tx"

/-- RX topic of `netdev`: the node id does not occur in it. -/
def netdevRxTopic (topic : Option String) (_node : String) : String :=
  topic.getD "sim/eth/frame" ++ "/rx"

/-- TX topic of `chardev`. -/
def chardevTxTopic (topic : Option String) (node : String) : String :=
  nodeTopic (topic.getD "virtmcu/uart") node "tx"

/-- RX topic of `chardev`. -/
def chardevRxTopic (topic : Option String) (node : String) : String :=
  nodeTopic (topic.getD "virtmcu/uart") node "rx"

/-- TX topic of `ieee802154`: a configured topic is taken without the node id. -/
def ieee802154TxTopic (topic : Option String) (node : String) : String :=
  match topic with
  | some t => t ++ "/tx"
  | none => nodeTopic "sim/rf/ieee802154" node "tx"

/-- RX topic of `ieee802154`. -/
def ieee802154RxTopic (topic : Option String) (node : String) : String :=
  match topic with
  | some t => t ++ "/rx"
  | none => nodeTopic "sim/rf/ieee802154" node "rx"

/-- TX topic of `s32k144-lpuart`. -/
def lpuartTxTopic (topic : Option String) (node : String) : String :=
  nodeTopic (topic.getD "sim/lin") node "tx"

/-- RX topic of `s32k144-lpuart`. -/
def lpuartRxTopic (topic : Option String) (node : String) : String :=
  nodeTopic (topic.getD "sim/lin") node "rx"

/-- TX topic of `canfd`: the configured topic as it is. -/
def canfdTxTopic (topic : String) : String := topic

/-- RX topic of `canfd`: the same topic. -/
def canfdRxTopic (topic : String) : String := topic

/-- TX topic of the SystemC adapter. -/
def systemcTxTopic (node : String) : String := nodeTopic "sim/systemc/frame" node "tx"

/-- RX topic of the SystemC adapter. -/
def systemcRxTopic (node : String) : String := nodeTopic "sim/systemc/frame" node "rx"

end Virtmcu.Devices
