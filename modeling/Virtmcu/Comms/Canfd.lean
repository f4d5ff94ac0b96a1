import Mathlib.Data.Multiset.Range
import Virtmcu.Comms.RxQueue
import Virtmcu.Devices.Frames
import Virtmcu.Qom.BqlGuarded

/-! # The receive path of the CAN host

The subscription callback of `canfd`, its timer callback and the two calls that the CAN bus makes on
the host. The heap and the backlog are `BqlGuarded`, and the timer callback holds a mutable reference to
the heap while `can_bus_client_send` runs, during which the bus may call the host again.

Before it sends a frame, the callback asks whether the receiver is ready, but it asks its own client, and
`virtmcu_can_receive` answers by looking at the backlog. So no frame is ever put there, the drain loop
never asks while it holds the backlog, and all that is due is sent at once (`rxTimerCb_eq`). -/

namespace Virtmcu.Comms.Canfd

open Devices Qom List

/-! ## State -/

/-- `QemuCanFrame`. -/
structure QemuCanFrame where
  canId : UInt32
  canDlc : UInt8
  flags : UInt8
  /-- An array of 64 bytes. -/
  data : List UInt8
  deriving DecidableEq, Repr

/-- `OrderedCanFrame`. -/
abbrev Packet := Ordered (Arrived QemuCanFrame)

/-- Which of the received frames a packet is. -/
def numberOf (p : Packet) : ℕ := p.body.number

/-- `State`, as far as it receives and forwards bus traffic. -/
structure State (H : Heap (Arrived QemuCanFrame)) where
  /-- `rx_receiver`. -/
  channel : List Packet
  localHeap : BqlGuarded H.Carrier
  /-- `backlog`, of which the source keeps the frames only. -/
  backlog : BqlGuarded (List Packet)
  earliestVtime : UInt64
  rxTimer : Option ℕ
  txSequence : UInt64
  /-- What went to `tx_sender`. -/
  transmitted : List CanFdFrame
  /-- The number of well-formed frames that have arrived. -/
  received : ℕ
  /-- The frames given to `can_bus_client_send`, with the virtual time. -/
  sent : List (Packet × ℕ)

variable {H : Heap (Arrived QemuCanFrame)}

/-- The state that `virtmcu_can_host_connect` builds. -/
def initial (H : Heap (Arrived QemuCanFrame)) : State H where
  channel := []
  localHeap := BqlGuarded.new H.empty
  backlog := BqlGuarded.new []
  earliestVtime := maxVtime
  rxTimer := none
  txSequence := 0
  transmitted := []
  received := 0
  sent := []

/-! ## Calls of the bus -/

/-- `virtmcu_can_receive`. -/
def virtmcuCanReceive (s : State H) : Option (Bool × State H) :=
  match s.backlog.get with
  | none => none
  | some backlog => some (backlog.inner.isEmpty, { s with backlog := backlog.dropRead })

/-- The table that one frame is sent on as. A length beyond the array stands for no data. -/
def tableOf (vtime seq : UInt64) (frame : QemuCanFrame) : CanFdFrame where
  deliveryVtimeNs := vtime
  sequenceNumber := seq
  canId := frame.canId
  flags := frame.flags.toUInt32
  data := some (if frame.canDlc.toNat ≤ frame.data.length then frame.data.take frame.canDlc.toNat else [])

/-- `virtmcu_can_receive_frames`. -/
def virtmcuCanReceiveFrames (now : ℕ) (frames : List QemuCanFrame) (s : State H) : State H :=
  frames.foldl (fun s frame =>
    { s with
      txSequence := s.txSequence + 1
      transmitted := s.transmitted ++ [tableOf now.toUInt64 s.txSequence frame] }) s

/-- A call of the CAN bus. -/
inductive BusCall
  /-- It asks whether the host can receive. -/
  | canReceive
  /-- It hands frames over. -/
  | receive (frames : List QemuCanFrame)
  deriving DecidableEq, Repr

/-- What a call of the bus does. -/
def busCall (now : ℕ) (s : State H) : BusCall → Option (State H)
  | .canReceive => (virtmcuCanReceive s).map Prod.snd
  | .receive frames => some (virtmcuCanReceiveFrames now frames s)

/-- `can_bus_client_send` of one frame, with the calls that the bus makes on this client meanwhile. -/
def canBusClientSend (bus : ℕ → List BusCall) (now : ℕ) (p : Packet) (s : State H) :
    Option (State H) :=
  (bus s.sent.length).foldlM (busCall now) { s with sent := s.sent ++ [(p, now)] }

/-! ## The timer callback -/

/-- The loop of `drain_can_backlog`, which holds the backlog. -/
def drainLoop (bus : ℕ → List BusCall) (now : ℕ) : List Packet → State H → Option (Bool × State H)
  | [], s => some (true, s)
  | p :: rest, s =>
      match virtmcuCanReceive s with
      | none => none
      | some (false, s) => some (false, s)
      | some (true, s) =>
          match canBusClientSend bus now p { s with backlog := s.backlog.set rest } with
          | none => none
          | some s => drainLoop bus now rest s

/-- `drain_can_backlog`. -/
def drainCanBacklog (bus : ℕ → List BusCall) (now : ℕ) (s : State H) : Option (Bool × State H) :=
  match s.backlog.getMut with
  | none => none
  | some backlog =>
      (drainLoop bus now backlog.inner { s with backlog := backlog }).map fun r =>
        (r.1, { r.2 with backlog := r.2.backlog.dropWrite })

/-- The refused frame goes from the heap to the backlog. -/
def State.refuse (s : State H) (p : Packet) (rest : H.Carrier) : Option (State H) :=
  match s.backlog.getMut with
  | none => none
  | some backlog =>
      some { s with
        localHeap := s.localHeap.set rest
        backlog := (backlog.set (backlog.inner ++ [p])).dropWrite }

/-- The loop over the heap, which is held. -/
def sendLoop (bus : ℕ → List BusCall) (now : ℕ) : (fuel : ℕ) → State H → Option (State H)
  | 0, s => some s
  | fuel + 1, s =>
      match H.pop s.localHeap.inner with
      | none => some s
      | some (p, rest) =>
          if p.isDue now then
            match virtmcuCanReceive s with
            | none => none
            | some (false, s) => s.refuse p rest
            | some (true, s) =>
                match canBusClientSend bus now p { s with localHeap := s.localHeap.set rest } with
                | none => none
                | some s => sendLoop bus now fuel s
          else some { s with rxTimer := some (expiryOf p.vtime) }

/-- The end of the callback: `earliest_vtime` is reset if the heap is empty, and the heap is dropped. -/
def State.finish (s : State H) : State H :=
  { s with
    earliestVtime := if H.isEmpty s.localHeap.inner then maxVtime else s.earliestVtime
    localHeap := s.localHeap.dropWrite }

/-- The part of `rx_timer_cb` behind `drain_can_backlog`. -/
def State.deliver (bus : ℕ → List BusCall) (now : ℕ) (s : State H) : Option (State H) :=
  match s.localHeap.getMut with
  | none => none
  | some heap =>
      let heap := heap.set (H.pushAll s.channel heap.inner)
      (sendLoop bus now (H.items heap.inner).card { s with channel := [], localHeap := heap }).map
        State.finish

/-- `rx_timer_cb`. -/
def rxTimerCb (bus : ℕ → List BusCall) (now : ℕ) (s : State H) : Option (State H) :=
  match drainCanBacklog bus now s with
  | none => none
  | some (false, s) => some { s with rxTimer := some (now + 1000000) }
  | some (true, s) => s.deliver bus now

/-! ## The subscription callback -/

/-- The frame in a table: at most 64 bytes of data, and the low byte of the flags. -/
def frameOf (table : CanFdFrame) : QemuCanFrame :=
  let data := (table.data.getD []).take 64
  ⟨table.canId, data.length.toUInt8, table.flags.toUInt8, data ++ List.replicate (64 - data.length) 0⟩

/-- The packet in a message. -/
def packetOf (fb : Flatbuffers) (number now : ℕ) (data : List UInt8) : Option Packet :=
  (fb.canFdFrame data).map fun table =>
    ⟨table.deliveryVtimeNs, table.sequenceNumber, ⟨frameOf table, number, now⟩⟩

/-- The frame is in the channel, and the timer is set if it is earlier than all others. -/
def State.enqueue (s : State H) (p : Packet) : State H :=
  let s := { s with channel := s.channel ++ [p] }
  if p.vtime < s.earliestVtime then
    -- the loop around `compare_exchange_weak` ends with the exchange made
    { s with earliestVtime := p.vtime, rxTimer := some (expiryOf p.vtime) }
  else s

theorem State.enqueue_eq (s : State H) (p : Packet) : s.enqueue p =
    { s with
      channel := s.channel ++ [p]
      earliestVtime := if p.vtime < s.earliestVtime then p.vtime else s.earliestVtime
      rxTimer := if p.vtime < s.earliestVtime then some (expiryOf p.vtime) else s.rxTimer } := by
  unfold State.enqueue
  dsimp only
  split <;> rfl

/-- The callback of `create_can_sub_callback`. -/
def subCallback (fb : Flatbuffers) (now : ℕ) (data : List UInt8) (s : State H) : State H :=
  match packetOf fb s.received now data with
  | none => s
  | some p => ({ s with received := s.received + 1 } : State H).enqueue p

/-! ## Runs -/

/-- What happens to the host. -/
inductive Event
  /-- A message arrives. -/
  | message (now : ℕ) (data : List UInt8)
  /-- Traffic of others on the bus. -/
  | traffic (now : ℕ) (call : BusCall)
  | rxTimer (now : ℕ)
  deriving DecidableEq, Repr

/-- An event. A timer that is not due does not fire. -/
def step (fb : Flatbuffers) (bus : ℕ → List BusCall) (s : State H) : Event → Option (State H)
  | .message now data => some (subCallback fb now data s)
  | .traffic now call => busCall now s call
  | .rxTimer now =>
      if isExpired s.rxTimer now then rxTimerCb bus now { s with rxTimer := none } else some s

/-- A run from the start; `none` if an assertion of `BqlGuarded` fails in it. -/
def run (fb : Flatbuffers) (bus : ℕ → List BusCall) (events : List Event) : Option (State H) :=
  events.foldlM (step fb bus) (initial H)

/-! ## What the calls of the bus leave alone -/

/-- All of the state but what goes to the transmit thread. -/
def State.rx (s : State H) :
    List Packet × BqlGuarded H.Carrier × BqlGuarded (List Packet) × UInt64 × Option ℕ × ℕ ×
      List (Packet × ℕ) :=
  (s.channel, s.localHeap, s.backlog, s.earliestVtime, s.rxTimer, s.received, s.sent)

theorem rx_eq_iff {s t : State H} : t.rx = s.rx ↔
    t.channel = s.channel ∧ t.localHeap = s.localHeap ∧ t.backlog = s.backlog ∧
      t.earliestVtime = s.earliestVtime ∧ t.rxTimer = s.rxTimer ∧ t.received = s.received ∧
      t.sent = s.sent := by
  simp only [State.rx, Prod.mk.injEq]

variable {s : State H}

/-- The answer of the host, unless its backlog is borrowed mutably. -/
theorem virtmcuCanReceive_eq (h : 0 ≤ s.backlog.borrowCount) :
    virtmcuCanReceive s = some (s.backlog.inner.isEmpty, s) := by
  rw [virtmcuCanReceive, BqlGuarded.get_eq_some h]
  simp only [BqlGuarded.dropRead_succ]

theorem virtmcuCanReceiveFrames_rx (now : ℕ) (frames : List QemuCanFrame) (s : State H) :
    (virtmcuCanReceiveFrames now frames s).rx = s.rx := by
  unfold virtmcuCanReceiveFrames
  induction frames generalizing s with
  | nil => rfl
  | cons frame frames ih => exact ih _

/-- A call of the bus fails no assertion as long as the backlog is not borrowed mutably. -/
theorem busCall_eq (now : ℕ) (h : 0 ≤ s.backlog.borrowCount) (call : BusCall) :
    ∃ t, busCall now s call = some t ∧ t.rx = s.rx := by
  cases call with
  | canReceive =>
    refine ⟨s, ?_, rfl⟩
    rw [busCall, virtmcuCanReceive_eq h]
    rfl
  | receive frames => exact ⟨_, rfl, virtmcuCanReceiveFrames_rx now frames s⟩

theorem busCalls_eq (now : ℕ) (h : 0 ≤ s.backlog.borrowCount)
    (calls : List BusCall) : ∃ t, calls.foldlM (busCall now) s = some t ∧ t.rx = s.rx := by
  induction calls generalizing s with
  | nil => exact ⟨s, rfl, rfl⟩
  | cons call calls ih =>
    obtain ⟨t, ht, hrx⟩ := busCall_eq now h call
    have hbacklog := (rx_eq_iff.mp hrx).2.2.1
    obtain ⟨u, hu, hrx'⟩ := ih (s := t) (hbacklog ▸ h)
    refine ⟨u, ?_, hrx'.trans hrx⟩
    rw [foldlM_cons, ht]
    exact hu

variable (bus : ℕ → List BusCall)

/-- A frame is sent, whatever the bus does meanwhile. -/
theorem canBusClientSend_eq (now : ℕ) (p : Packet)
    (h : 0 ≤ s.backlog.borrowCount) : ∃ t, canBusClientSend bus now p s = some t ∧
      t.rx = ({ s with sent := s.sent ++ [(p, now)] } : State H).rx :=
  busCalls_eq now (s := { s with sent := s.sent ++ [(p, now)] }) h _

/-! ## The timer callback sends what is due -/

/-- No reference is out and the backlog is empty. -/
structure Idle (s : State H) : Prop where
  localHeap : s.localHeap.borrowCount = 0
  backlog : s.backlog = BqlGuarded.new []

/-- The loop has sent `batch`, and the heap is left with `rest`. -/
structure Sends (now : ℕ) (batch : List Packet) (rest : H.Carrier) (s t : State H) : Prop where
  sent : t.sent = s.sent ++ batch.map (·, now)
  localHeap : t.localHeap = s.localHeap.set rest
  channel : t.channel = s.channel
  backlog : t.backlog = s.backlog
  received : t.received = s.received
  earliestVtime : t.earliestVtime = s.earliestVtime
  rxTimer : t.rxTimer = nextExpiry H rest s.rxTimer

/-- **The loop over the heap** sends what is due, in order, and fails no assertion. -/
theorem sendLoop_eq (now : ℕ) {fuel : ℕ}
    (hfuel : (H.items s.localHeap.inner).card ≤ fuel) (hbacklog : s.backlog = BqlGuarded.new []) :
    ∃ t, sendLoop bus now fuel s = some t ∧
      Sends now (H.popWhile (Ordered.isDue now) fuel s.localHeap.inner).1
        (H.popWhile (Ordered.isDue now) fuel s.localHeap.inner).2 s t := by
  have hborrow : 0 ≤ s.backlog.borrowCount := by rw [hbacklog]; exact Int.le_refl 0
  induction fuel generalizing s with
  | zero =>
    have hpop : H.pop s.localHeap.inner = none := Option.isNone_iff_eq_none.mp
      ((H.isEmpty_iff _).mpr (Multiset.card_eq_zero.mp (Nat.le_zero.mp hfuel)))
    refine ⟨s, rfl, by simp [PriorityQueue.popWhile], rfl, rfl, rfl, rfl, rfl, ?_⟩
    simp [PriorityQueue.popWhile, nextExpiry, hpop]
  | succ fuel ih =>
    unfold sendLoop PriorityQueue.popWhile
    cases hpop : H.pop s.localHeap.inner with
    | none => exact ⟨s, rfl, by simp, rfl, rfl, rfl, rfl, rfl, by simp [nextExpiry, hpop]⟩
    | some taken =>
      obtain ⟨p, rest⟩ := taken
      dsimp only
      by_cases hdue : p.isDue now = true
      · rw [if_pos hdue, if_pos hdue, virtmcuCanReceive_eq hborrow, hbacklog]
        dsimp only [BqlGuarded.new, isEmpty]
        obtain ⟨t, ht, hrx⟩ := canBusClientSend_eq bus now p
          (s := { s with localHeap := s.localHeap.set rest }) hborrow
        obtain ⟨hchannel, hheap, hback, hearliest, htimer, hreceived, hsent⟩ := rx_eq_iff.mp hrx
        have hback' : t.backlog = BqlGuarded.new [] := hback.trans hbacklog
        have hinner : t.localHeap.inner = rest := by rw [hheap]; rfl
        rw [H.items_of_pop_some hpop, Multiset.card_cons] at hfuel
        obtain ⟨u, hu, hsends⟩ := ih (hinner ▸ Nat.le_of_succ_le_succ hfuel) hback'
          (by rw [hback']; exact Int.le_refl 0)
        rw [hinner] at hsends
        rw [ht]
        refine ⟨u, hu, ?_, ?_, ?_, ?_, ?_, ?_, ?_⟩
        · rw [hsends.sent, hsent, append_assoc]
          rfl
        · rw [hsends.localHeap, hheap]
          rfl
        · exact hsends.channel.trans hchannel
        · exact hsends.backlog.trans hback
        · exact hsends.received.trans hreceived
        · exact hsends.earliestVtime.trans hearliest
        · rw [hsends.rxTimer, htimer]
      · rw [if_neg hdue, if_neg hdue]
        exact ⟨_, rfl, by simp, rfl, rfl, rfl, rfl, rfl, by simp [nextExpiry, hpop]⟩

/-- What the timer callback does: it sends `batch`, and the rest is in the heap. -/
structure Delivers (now : ℕ) (batch : List Packet) (s t : State H) : Prop where
  sent : t.sent = s.sent ++ batch.map (·, now)
  batch_eq : (batch : Multiset Packet) =
    (↑s.channel + H.items s.localHeap.inner).filter (Ordered.isDue now · = true)
  items_eq : H.items t.localHeap.inner =
    (↑s.channel + H.items s.localHeap.inner).filter (Ordered.isDue now · = false)
  sorted : batch.Pairwise fun p q => p.key ≤ q.key
  channel : t.channel = []
  received : t.received = s.received
  idle : Idle t

/-- What the timer callback leaves for the next: the timer is armed for the first frame in the heap, and
`earliest_vtime` is reset only if there is none. -/
structure Rearms (s t : State H) : Prop where
  rxTimer : t.rxTimer = nextExpiry H t.localHeap.inner s.rxTimer
  earliestVtime : t.earliestVtime =
    if H.isEmpty t.localHeap.inner then maxVtime else s.earliestVtime

/-- The backlog is empty, so nothing is asked while it is held. -/
theorem drainCanBacklog_eq (now : ℕ) (h : Idle s) :
    drainCanBacklog bus now s = some (true, s) := by
  obtain ⟨channel, localHeap, backlog, earliest, timer, sequence, transmitted, received, sent⟩ := s
  obtain ⟨-, rfl⟩ := h
  rfl

/-- **Each timer callback sends every frame that is due**, in the order of `(vtime, sequence)`, and
leaves the others in the heap. No assertion fails. -/
theorem rxTimerCb_eq (now : ℕ) (h : Idle s) :
    ∃ t batch, rxTimerCb bus now s = some t ∧ Delivers now batch s t ∧ Rearms s t := by
  have hheap : s.localHeap.getMut = some ⟨s.localHeap.inner, -1⟩ := if_pos h.localHeap
  have hitems : H.items (H.pushAll s.channel s.localHeap.inner) =
      ↑s.channel + H.items s.localHeap.inner := by
    rw [PriorityQueue.items_pushAll, add_comm]
  have hfilter := H.popWhile_eq_filter (Ordered.isDue_of_key_le now)
    (q := H.pushAll s.channel s.localHeap.inner) (le_refl _)
  obtain ⟨t, ht, hsends⟩ := sendLoop_eq bus now
    (s := { s with channel := [], localHeap := ⟨H.pushAll s.channel s.localHeap.inner, -1⟩ })
    (le_refl _) h.backlog
  have hinner : t.finish.localHeap.inner = (H.popWhile (Ordered.isDue now)
      (H.items (H.pushAll s.channel s.localHeap.inner)).card
      (H.pushAll s.channel s.localHeap.inner)).2 :=
    congrArg BqlGuarded.inner hsends.localHeap
  refine ⟨t.finish, _, ?_, ⟨hsends.sent, ?_, ?_, H.popWhile_sorted _ _ _, hsends.channel,
    hsends.received, rfl, hsends.backlog.trans h.backlog⟩, ?_, ?_⟩
  · rw [rxTimerCb, drainCanBacklog_eq bus now h]
    dsimp only
    rw [State.deliver, hheap]
    exact congrArg (Option.map State.finish) ht
  · rw [← hitems]
    exact hfilter.1
  · rw [← hitems, ← hfilter.2, hinner]
  · rw [hinner]
    exact hsends.rxTimer
  · exact congrArg (fun earliest => if H.isEmpty t.localHeap.inner then maxVtime else earliest)
      hsends.earliestVtime

/-! ## Runs -/

/-- The frame that an event brings, if it is well formed, with its number. -/
def arrivedBy (fb : Flatbuffers) (number : ℕ) : Event → List Packet
  | .message now data => (packetOf fb number now data).toList
  | .traffic _ _ | .rxTimer _ => []

/-- The well-formed frames of a run. -/
def arrivals (fb : Flatbuffers) (events : List Event) : List Packet :=
  events.foldl (fun ps event => ps ++ arrivedBy fb ps.length event) []

/-- What holds between events: every frame that has arrived is in exactly one place and there once, sent
or waiting, and none was sent before its time. -/
structure Exact (arrived : List Packet) (s : State H) : Prop where
  idle : Idle s
  frames : (↑(s.sent.map Prod.fst) + ↑s.channel + H.items s.localHeap.inner : Multiset Packet) = ↑arrived
  numbers : arrived.map numberOf = List.range arrived.length
  received_eq : s.received = arrived.length
  onTime : ∀ entry ∈ s.sent, entry.1.vtime.toNat ≤ entry.2

theorem exact_initial : Exact [] (initial H) := by
  refine ⟨⟨rfl, rfl⟩, ?_, rfl, rfl, fun entry h => absurd h List.not_mem_nil⟩
  simp [initial, BqlGuarded.new]

variable {arrived : List Packet}

/-- No frame is sent twice. -/
theorem Exact.nodup {s : State H} (h : Exact arrived s) :
    (s.sent.map fun entry => numberOf entry.1).Nodup := by
  have hall : ((↑(s.sent.map Prod.fst) + ↑s.channel + H.items s.localHeap.inner :
      Multiset Packet).map numberOf).Nodup := by
    rw [h.frames, Multiset.map_coe, h.numbers]
    exact List.nodup_range
  rw [Multiset.map_add, Multiset.map_add, add_assoc] at hall
  have hsent := (Multiset.nodup_add.mp hall).1
  rwa [Multiset.map_coe, Multiset.coe_nodup, map_map] at hsent

/-- Only what belongs to receiving matters. -/
theorem Exact.congr {s t : State H} (h : Exact arrived s) (hsent : t.sent = s.sent)
    (hchannel : t.channel = s.channel) (hheap : t.localHeap = s.localHeap)
    (hbacklog : t.backlog = s.backlog) (hreceived : t.received = s.received) : Exact arrived t where
  idle := ⟨hheap ▸ h.idle.localHeap, hbacklog.trans h.idle.backlog⟩
  frames := by rw [hsent, hchannel, hheap, h.frames]
  numbers := h.numbers
  received_eq := hreceived.trans h.received_eq
  onTime := hsent ▸ h.onTime

theorem exact_subCallback (fb : Flatbuffers) (now : ℕ) (data : List UInt8) (h : Exact arrived s) :
    Exact (arrived ++ (packetOf fb arrived.length now data).toList) (subCallback fb now data s) := by
  unfold subCallback
  rw [h.received_eq]
  cases hp : packetOf fb arrived.length now data with
  | none => rwa [Option.toList_none, List.append_nil]
  | some p =>
    have hnumber : numberOf p = arrived.length := by
      obtain ⟨table, -, rfl⟩ := Option.map_eq_some_iff.mp hp
      rfl
    have hadded : Exact (arrived ++ [p]) ({ s with
        received := s.received + 1, channel := s.channel ++ [p] } : State H) := by
      refine ⟨⟨h.idle.1, h.idle.2⟩, ?_, ?_, ?_, h.onTime⟩
      · dsimp only
        rw [← Multiset.coe_add, ← Multiset.coe_add, ← h.frames, ← add_assoc, add_right_comm]
      · simp [List.range_succ, h.numbers, hnumber]
      · simp [h.received_eq]
    dsimp only
    rw [Option.toList_some, State.enqueue_eq, ← h.received_eq]
    exact hadded.congr rfl rfl rfl rfl rfl

theorem Delivers.exact {now : ℕ} {batch : List Packet} {s t : State H} (h : Delivers now batch s t)
    (hs : Exact arrived s) : Exact arrived t := by
  refine ⟨h.idle, ?_, hs.numbers, h.received.trans hs.received_eq, fun entry hentry => ?_⟩
  · have hsent : ((t.sent.map Prod.fst : List Packet) : Multiset Packet) =
        ↑(s.sent.map Prod.fst) + ↑batch := by
      rw [h.sent, map_append, map_map, ← Multiset.coe_add]
      congr 2
      exact map_id _
    -- what was due and what was not are all there was
    have hparts := Multiset.filter_add_not (Ordered.isDue now · = true)
      ((s.channel : Multiset Packet) + H.items s.localHeap.inner)
    simp only [Bool.not_eq_true] at hparts
    rw [hsent, h.channel, h.items_eq, h.batch_eq, Multiset.coe_nil, add_zero, add_assoc, hparts,
      ← add_assoc, hs.frames]
  · rw [h.sent, mem_append, mem_map] at hentry
    rcases hentry with hold | ⟨p, hp, rfl⟩
    · exact hs.onTime entry hold
    · have hmem : p ∈ (↑batch : Multiset Packet) := Multiset.mem_coe.mpr hp
      rw [h.batch_eq] at hmem
      exact Ordered.isDue_iff.mp (Multiset.mem_filter.mp hmem).2

theorem exact_step (fb : Flatbuffers) (bus : ℕ → List BusCall) {s : State H} (h : Exact arrived s)
    (event : Event) : ∃ t, step fb bus s event = some t ∧
      Exact (arrived ++ arrivedBy fb arrived.length event) t := by
  cases event with
  | message now data => exact ⟨_, rfl, exact_subCallback fb now data h⟩
  | traffic now call =>
    have hborrow : 0 ≤ s.backlog.borrowCount := by
      rw [h.idle.backlog]
      exact Int.le_refl 0
    obtain ⟨t, ht, hrx⟩ := busCall_eq now hborrow call
    obtain ⟨hchannel, hheap, hbacklog, -, -, hreceived, hsent⟩ := rx_eq_iff.mp hrx
    rw [arrivedBy, List.append_nil]
    exact ⟨t, ht, h.congr hsent hchannel hheap hbacklog hreceived⟩
  | rxTimer now =>
    rw [step, arrivedBy, List.append_nil]
    split
    · have hdisarmed : Exact arrived ({ s with rxTimer := none } : State H) := h.congr rfl rfl rfl rfl rfl
      obtain ⟨t, batch, ht, hdelivers, -⟩ := rxTimerCb_eq bus now hdisarmed.idle
      exact ⟨t, ht, hdelivers.exact hdisarmed⟩
    · exact ⟨s, rfl, h⟩

theorem exact_run (fb : Flatbuffers) (bus : ℕ → List BusCall) (events : List Event) :
    ∃ s : State H, run fb bus events = some s ∧ Exact (arrivals fb events) s := by
  unfold run arrivals
  generalize hstart : initial H = s
  have h : Exact [] s := hstart ▸ exact_initial
  clear hstart
  generalize ([] : List Packet) = arrived at h ⊢
  induction events generalizing s arrived with
  | nil => exact ⟨s, rfl, h⟩
  | cons event events ih =>
    obtain ⟨t, ht, hexact⟩ := exact_step fb bus h event
    obtain ⟨u, hu, hexact'⟩ := ih t _ hexact
    refine ⟨u, ?_, hexact'⟩
    rw [foldlM_cons, ht]
    exact hu

/-- **Exactly once, in time and in order.** No assertion of `BqlGuarded` fails in a run. Every frame that has
come was sent or is in channel or heap, none has been sent twice or before its time, and a timer callback that comes next sends every frame of channel and
heap that is due, in the order of `(vtime, sequence)`. -/
theorem run_exactly_once (fb : Flatbuffers) (bus : ℕ → List BusCall) (events : List Event) :
    ∃ s : State H, run fb bus events = some s ∧
      (↑(s.sent.map Prod.fst) + ↑s.channel + H.items s.localHeap.inner : Multiset Packet) =
        ↑(arrivals fb events) ∧ (s.sent.map fun entry => numberOf entry.1).Nodup ∧
      (∀ entry ∈ s.sent, entry.1.vtime.toNat ≤ entry.2) ∧ ∀ now, isExpired s.rxTimer now = true →
        ∃ t batch, step fb bus s (.rxTimer now) = some t ∧ Delivers now batch s t := by
  obtain ⟨s, hs, hexact⟩ := exact_run (H := H) fb bus events
  refine ⟨s, hs, hexact.frames, hexact.nodup, hexact.onTime, fun now hnow => ?_⟩
  have hdisarmed : Idle ({ s with rxTimer := none } : State H) := ⟨hexact.idle.1, hexact.idle.2⟩
  obtain ⟨t, batch, ht, hdelivers, -⟩ := rxTimerCb_eq bus now hdisarmed
  refine ⟨t, batch, ?_, ?_⟩
  · rw [step, if_pos hnow]
    exact ht
  · exact { hdelivers with }

end Virtmcu.Comms.Canfd
