import Virtmcu.DeterministicCoordinator.BarrierCalls
import Virtmcu.DeterministicCoordinator.BarrierDeterminism
import Virtmcu.DeterministicCoordinator.LinkControl
import Virtmcu.DeterministicCoordinator.BatchCodec
import Virtmcu.DeterministicCoordinator.HashIndependence
import Virtmcu.DeterministicCoordinator.DeviceFrames
import Virtmcu.DeterministicCoordinator.LoadFaithful
import Virtmcu.Lockstep.Safety
import Virtmcu.Clock.GoldenRule
import Virtmcu.Clock.Yield
import Virtmcu.ZenohCoordinator.Lookahead
import Virtmcu.ZenohCoordinator.Faults
import Virtmcu.CoSim.Pairing
import Virtmcu.Qom.Teardown
import Virtmcu.Qom.Borrow
import Virtmcu.ZenohCoordinator.Geometry
import Virtmcu.DeterministicCoordinator.PcapLog
import Virtmcu.Clock.Shutdown
import Virtmcu.Clock.Watchdog
import Virtmcu.Clock.Drain
import Virtmcu.CoSim.Parsing
import Virtmcu.CoSim.Wakeup
import Virtmcu.Comms.NetdevCleanup
import Virtmcu.Comms.OnTime
import Virtmcu.TransportUnix.Subscriptions
import Virtmcu.Comms.ChardevThread
import Virtmcu.Comms.ChardevDelivery
import Virtmcu.Ieee802154.Acknowledgement
import Virtmcu.Ieee802154.Completion
import Virtmcu.Ieee802154.Interrupt
import Virtmcu.CyberBridge.ResdDecoding
import Virtmcu.CyberBridge.ResdInterpolation
import Virtmcu.FlexRay.MessageRam
import Virtmcu.Mcu.Lpuart.Reset
import Virtmcu.Mcu.Lpuart.Transmission
import Virtmcu.Observability.Actuator
import Virtmcu.Repl.Interrupts
