import Mathlib.Data.Multiset.Range
import Virtmcu.Comms.RxQueue
import Virtmcu.DeterministicCoordinator.Wire
import Virtmcu.Foundations.Run

/-! # The receive path of the network card

The subscription callback of `netdev` and its timer callback. A frame that is admitted goes through the
channel and the heap to the guest; one that the guest refuses waits in `backlog`. `backlog_count` is
increased with an admission and decreased when a frame is handed to the guest, whichever way it takes,
so it counts all three stores (`Accounts`).

Whether the guest accepts is what `qemu_can_receive_packet` answers. QEMU may answer by asking the client
itself, and `netdev_can_receive` then borrows the backlog: while `drain_net_backlog` holds it mutably,
this is an assertion failure, and the process ends. -/

namespace Virtmcu.Comms.Netdev

open DeterministicCoordinator Multiset UInt64

/-- `OrderedPacket`. -/
abbrev Packet := Ordered (Arrived (List UInt8))

/-- Which of the received frames a packet is. -/
def numberOf (p : Packet) : ℕ := p.body.number

/-- How `qemu_can_receive_packet` comes to its answer. -/
inductive Readiness
  | ready
  | busy
  /-- By `netdev_can_receive` of this client. -/
  | asksClient
  deriving DecidableEq, Repr

/-- `VirtmcuNetdevState`, as far as it receives. -/
structure State (H : Heap (Arrived (List UInt8))) where
  /-- `rx_receiver`. -/
  channel : List Packet
  /-- `local_heap`. -/
  heap : H.Carrier
  /-- `backlog`, of which the source keeps the data only. -/
  backlog : List Packet
  earliestVtime : UInt64
  rxTimer : Option ℕ
  backlogCount : UInt64
  droppedFrames : UInt64
  /-- The number of well-formed frames that have arrived. -/
  received : ℕ
  /-- The frames that were not admitted. -/
  dropped : List Packet
  /-- The frames given to `qemu_send_packet`, with the virtual time. -/
  handed : List (Packet × ℕ)
  /-- How often the guest was asked. -/
  queries : ℕ
  /-- `backlog_count` was decreased at zero. -/
  underflow : Bool
  /-- The process has ended. -/
  aborted : Bool

variable {H : Heap (Arrived (List UInt8))}

/-- `netdev_init_internal`. -/
def initial (H : Heap (Arrived (List UInt8))) : State H where
  channel := []
  heap := H.empty
  backlog := []
  earliestVtime := maxVtime
  rxTimer := none
  backlogCount := 0
  droppedFrames := 0
  received := 0
  dropped := []
  handed := []
  queries := 0
  underflow := false
  aborted := false

/-! ## The subscription callback -/

/-- The capacity of the channel. -/
def channelCapacity : ℕ := 65536

/-- The packet in a message: everything behind the header is data. -/
def packetOf (number now : ℕ) (data : List UInt8) : Option Packet :=
  (ZenohFrameHeader.unpackSlice data).map fun header =>
    ⟨header.deliveryVtimeNs, header.sequenceNumber, ⟨data.drop zenohFrameHeaderSize, number, now⟩⟩

/-- The frame is counted as dropped. -/
def State.drop (s : State H) (p : Packet) : State H :=
  { s with droppedFrames := s.droppedFrames + 1, dropped := s.dropped ++ [p] }

/-- The frame is in the channel: it is counted, and the timer is set if it is earlier than all others. -/
def State.enqueue (s : State H) (p : Packet) : State H :=
  let s := { s with channel := s.channel ++ [p], backlogCount := s.backlogCount + 1 }
  if p.vtime < s.earliestVtime then
    -- `fetch_min`
    { s with earliestVtime := p.vtime, rxTimer := some (expiryOf p.vtime) }
  else s

theorem State.enqueue_eq (s : State H) (p : Packet) : s.enqueue p =
    { s with
      channel := s.channel ++ [p]
      backlogCount := s.backlogCount + 1
      earliestVtime := if p.vtime < s.earliestVtime then p.vtime else s.earliestVtime
      rxTimer := if p.vtime < s.earliestVtime then some (expiryOf p.vtime) else s.rxTimer } := by
  unfold State.enqueue
  dsimp only
  split <;> rfl

/-- Admission control, and the bound of the channel. -/
def State.admits (maxBacklog : UInt64) (s : State H) : Bool :=
  decide (s.backlogCount < maxBacklog ∧ s.channel.length < channelCapacity)

/-- `sub_callback` of `netdev_init_internal`. -/
def subCallback (maxBacklog : UInt64) (now : ℕ) (data : List UInt8) (s : State H) : State H :=
  match packetOf s.received now data with
  | none => s
  | some p =>
      let s := { s with received := s.received + 1 }
      if s.admits maxBacklog then s.enqueue p else s.drop p

/-! ## The timer callback -/

/-- One more question to the guest. -/
def State.asked (s : State H) : State H := { s with queries := s.queries + 1 }

/-- `backlog_count.fetch_sub(1)` and `qemu_send_packet`. -/
def State.handOver (s : State H) (now : ℕ) (p : Packet) : State H :=
  { s with
    backlogCount := s.backlogCount - 1
    underflow := s.underflow || s.backlogCount == 0
    handed := s.handed ++ [(p, now)] }

/-- `drain_net_backlog`, over what is in the backlog. -/
def drainNetBacklog (guest : ℕ → Readiness) (now : ℕ) : List Packet → State H → Bool × State H
  | [], s => (true, s)
  | p :: rest, s =>
      match guest s.queries with
      | .ready => drainNetBacklog guest now rest (({ s.asked with backlog := rest }).handOver now p)
      | .busy => (false, s.asked)
      | .asksClient => (false, { s.asked with aborted := true })

/-- `qemu_can_receive_packet` while the backlog is not borrowed. -/
def State.canReceive (guest : ℕ → Readiness) (s : State H) : Bool :=
  match guest s.queries with
  | .ready => true
  | .busy => false
  | .asksClient => s.backlog.isEmpty

/-- The loop over the heap. -/
def deliverLoop (guest : ℕ → Readiness) (now : ℕ) : (fuel : ℕ) → State H → State H
  | 0, s => s
  | fuel + 1, s =>
      match H.pop s.heap with
      | none => s
      | some (p, rest) =>
          if p.isDue now then
            if s.canReceive guest then
              deliverLoop guest now fuel (({ s.asked with heap := rest }).handOver now p)
            else { s.asked with heap := rest, backlog := s.backlog ++ [p] }
          else { s with rxTimer := some (expiryOf p.vtime) }

/-- All that is in the channel goes into the heap. -/
def State.collect (s : State H) : State H :=
  { s with channel := [], heap := H.pushAll s.channel s.heap }

/-- The end of the callback: `earliest_vtime` is reset if the heap is empty. -/
def State.resetEarliest (s : State H) : State H :=
  if H.isEmpty s.heap then { s with earliestVtime := maxVtime } else s

/-- The part of `rx_timer_cb` behind `drain_net_backlog`. -/
def State.deliver (guest : ℕ → Readiness) (now : ℕ) (s : State H) : State H :=
  let s := s.collect
  (deliverLoop guest now (H.items s.heap).card s).resetEarliest

/-- `rx_timer_cb`. -/
def rxTimerCb (guest : ℕ → Readiness) (now : ℕ) (s : State H) : State H :=
  match drainNetBacklog guest now s.backlog s with
  | (true, s) => s.deliver guest now
  | (false, s) => if s.aborted then s else { s with rxTimer := some (now + 1000000) }

/-- What happens to the device. -/
inductive Event
  /-- A message arrives. -/
  | message (now : ℕ) (data : List UInt8)
  | rxTimer (now : ℕ)
  deriving DecidableEq, Repr

/-- An event. A timer that is not due does not fire, and nothing happens to a process that has ended. -/
def step (guest : ℕ → Readiness) (maxBacklog : UInt64) (s : State H) (event : Event) : State H × Unit :=
  if s.aborted then (s, ())
  else match event with
    | .message now data => (subCallback maxBacklog now data s, ())
    | .rxTimer now =>
        if isExpired s.rxTimer now then (rxTimerCb guest now { s with rxTimer := none }, ())
        else (s, ())

/-! ## Accounting -/

/-- The frames in the three stores. -/
def State.stored (s : State H) : Multiset Packet := ↑s.channel + H.items s.heap + ↑s.backlog

/-- The frames that were admitted: stored or handed to the guest. -/
def State.admitted (s : State H) : Multiset Packet := ↑(s.handed.map Prod.fst) + s.stored

/-- `backlog_count` counts the three stores. -/
structure State.Counts (s : State H) : Prop where
  backlogCount_eq : s.backlogCount.toNat = s.stored.card
  underflow_eq : s.underflow = false

/-- What the timer callback does with frames: it moves them between the stores and to the guest. -/
structure Transfers (s t : State H) : Prop where
  admitted : t.admitted = s.admitted
  counts : s.Counts → t.Counts
  card_le : t.stored.card ≤ s.stored.card
  received : t.received = s.received
  dropped : t.dropped = s.dropped
  droppedFrames : t.droppedFrames = s.droppedFrames

theorem Transfers.refl (s : State H) : Transfers s s := ⟨rfl, id, le_refl _, rfl, rfl, rfl⟩

theorem Transfers.trans {s t u : State H} (h : Transfers s t) (h' : Transfers t u) : Transfers s u :=
  ⟨h'.admitted.trans h.admitted, fun hs => h'.counts (h.counts hs), h'.card_le.trans h.card_le,
    h'.received.trans h.received, h'.dropped.trans h.dropped, h'.droppedFrames.trans h.droppedFrames⟩

/-- What is written down about frames, apart from where they are. -/
def State.ledger (s : State H) : List (Packet × ℕ) × UInt64 × Bool × ℕ × List Packet × UInt64 :=
  (s.handed, s.backlogCount, s.underflow, s.received, s.dropped, s.droppedFrames)

variable {s t : State H}

theorem ledger_eq_iff : t.ledger = s.ledger ↔
    t.handed = s.handed ∧ t.backlogCount = s.backlogCount ∧ t.underflow = s.underflow ∧
      t.received = s.received ∧ t.dropped = s.dropped ∧ t.droppedFrames = s.droppedFrames := by
  simp only [State.ledger, Prod.mk.injEq]

/-- A frame may change its store. -/
theorem Transfers.of_stored (hstored : t.stored = s.stored)
    (hledger : t.ledger = s.ledger) : Transfers s t := by
  obtain ⟨hhanded, hcount, hunderflow, hreceived, hdropped, hframes⟩ := ledger_eq_iff.mp hledger
  refine ⟨?_, fun h => ⟨?_, hunderflow.trans h.2⟩, ?_, hreceived, hdropped, hframes⟩
  · rw [State.admitted, State.admitted, hstored, hhanded]
  · rw [hcount, hstored, h.1]
  · rw [hstored]

/-- A frame that leaves its store for the guest. -/
theorem transfers_handOver (now : ℕ) (p : Packet)
    (hstored : s.stored = p ::ₘ t.stored) (hledger : t.ledger = s.ledger) :
    Transfers s (t.handOver now p) := by
  obtain ⟨hhanded, hcount, hunderflow, hreceived, hdropped, hframes⟩ := ledger_eq_iff.mp hledger
  have hsame : (t.handOver now p).stored = t.stored := rfl
  refine ⟨?_, fun h => ?_, ?_, hreceived, hdropped, hframes⟩
  · have hmap : ((t.handed ++ [(p, now)]).map Prod.fst : Multiset Packet) =
        ↑(s.handed.map Prod.fst) + {p} := by
      rw [List.map_append, ← coe_add, hhanded]
      rfl
    rw [State.admitted, State.admitted, hsame, hstored]
    refine (congrArg (· + t.stored) hmap).trans ?_
    rw [add_assoc, singleton_add]
  · have hcard := h.backlogCount_eq
    rw [hstored, card_cons] at hcard
    have hone : (1 : UInt64) ≤ t.backlogCount := by
      rw [hcount, UInt64.le_iff_toNat_le, hcard]
      exact Nat.succ_le_succ (Nat.zero_le _)
    have hzero : (t.backlogCount == 0) = false := by
      rw [beq_eq_false_iff_ne]
      intro heq
      rw [heq] at hone
      exact absurd hone (by decide)
    refine ⟨?_, ?_⟩
    · change (t.backlogCount - 1).toNat = _
      rw [UInt64.toNat_sub_of_le _ _ hone, hcount, hcard, hsame]
      rfl
    · change (t.underflow || t.backlogCount == 0) = false
      rw [hunderflow, h.underflow_eq, hzero]
      rfl
  · rw [hsame, hstored, card_cons]
    exact Nat.le_succ _

theorem transfers_collect (s : State H) : Transfers s s.collect := by
  refine Transfers.of_stored ?_ rfl
  simp only [State.stored, State.collect, PriorityQueue.items_pushAll, coe_nil, zero_add]
  rw [add_comm (H.items s.heap)]

theorem transfers_resetEarliest (s : State H) : Transfers s s.resetEarliest := by
  unfold State.resetEarliest
  split
  · exact Transfers.of_stored rfl rfl
  · exact Transfers.refl s

variable {s : State H}

theorem transfers_drainNetBacklog (guest : ℕ → Readiness) (now : ℕ)
    {waiting : List Packet} (hbacklog : s.backlog = waiting) :
    Transfers s (drainNetBacklog guest now waiting s).2 := by
  induction waiting generalizing s with
  | nil => exact Transfers.refl s
  | cons p rest ih =>
    unfold drainNetBacklog
    split
    · refine Transfers.trans (transfers_handOver now p (t := { s.asked with backlog := rest })
        ?_ rfl) (ih rfl)
      simp only [State.stored, State.asked, hbacklog, ← cons_coe, add_cons]
    · exact Transfers.of_stored rfl rfl
    · exact Transfers.of_stored rfl rfl

variable {p : Packet}

/-- A frame that leaves the heap. -/
theorem stored_pop {rest : H.Carrier} (hpop : H.pop s.heap = some (p, rest)) :
    s.stored = p ::ₘ ({ s.asked with heap := rest } : State H).stored := by
  simp only [State.stored, State.asked, H.items_of_pop_some hpop, add_cons, cons_add]

theorem transfers_deliverLoop (guest : ℕ → Readiness) (now fuel : ℕ) (s : State H) :
    Transfers s (deliverLoop guest now fuel s) := by
  induction fuel generalizing s with
  | zero => exact Transfers.refl s
  | succ fuel ih =>
    unfold deliverLoop
    split
    · exact Transfers.refl s
    · rename_i p rest hpop
      split
      · split
        · exact Transfers.trans (transfers_handOver now p (stored_pop hpop) rfl)
            (ih _)
        · -- refused: from the heap to the backlog, and the count stays
          refine Transfers.of_stored ?_ rfl
          rw [stored_pop hpop]
          simp only [State.stored, State.asked, ← coe_add, coe_singleton, ← singleton_add]
          rw [← add_assoc, add_comm]
      · exact Transfers.of_stored rfl rfl

theorem transfers_rxTimerCb (guest : ℕ → Readiness) (now : ℕ) (s : State H) :
    Transfers s (rxTimerCb guest now s) := by
  have hdrain := transfers_drainNetBacklog guest now (s := s) rfl
  unfold rxTimerCb
  split
  · rename_i t ht
    rw [ht] at hdrain
    exact ((hdrain.trans (transfers_collect t)).trans (transfers_deliverLoop guest now _ _)).trans
      (transfers_resetEarliest _)
  · rename_i t ht
    rw [ht] at hdrain
    split
    · exact hdrain
    · exact hdrain.trans (Transfers.of_stored rfl rfl)

/-- The frame that an event brings, if it is well formed, with its number. -/
def arrivedBy (number : ℕ) : Event → List Packet
  | .message now data => (packetOf number now data).toList
  | .rxTimer _ => []

/-- The well-formed frames of a run, as long as the process lives. -/
def arrivals (run : List (Entry (State H) Event Unit)) : List Packet :=
  run.foldl (fun ps e => if e.before.aborted then ps else ps ++ arrivedBy ps.length e.input) []

/-- **The accounts of the device.** `backlog_count` is the number of frames in the three stores, and at
most `max_backlog`; it was never decreased at zero. Every frame that has arrived is in exactly one place
and there once: it was dropped, and counted, or it was handed to the guest, or it is in one of the stores. -/
structure Accounts (maxBacklog : UInt64) (arrived : List Packet) (s : State H) : Prop where
  backlogCount_eq :
    s.backlogCount.toNat = s.channel.length + (H.items s.heap).card + s.backlog.length
  underflow_eq : s.underflow = false
  backlogCount_le : s.backlogCount ≤ maxBacklog
  droppedFrames_eq : s.droppedFrames = s.dropped.length.toUInt64
  frames : (↑s.dropped + ↑(s.handed.map Prod.fst) + ↑s.channel + H.items s.heap +
    ↑s.backlog : Multiset Packet) = ↑arrived
  numbers : arrived.map numberOf = List.range arrived.length
  received_eq : s.received = arrived.length

theorem card_stored (s : State H) :
    s.stored.card = s.channel.length + (H.items s.heap).card + s.backlog.length := by
  simp only [State.stored, card_add, coe_card]

theorem dropped_add_admitted (s : State H) :
    ↑s.dropped + s.admitted = (↑s.dropped + ↑(s.handed.map Prod.fst) + ↑s.channel + H.items s.heap +
      ↑s.backlog : Multiset Packet) := by
  simp only [State.admitted, State.stored, add_assoc]

section

variable {maxBacklog : UInt64} {arrived : List Packet} {s t : State H} {p : Packet}

theorem accounts_iff : Accounts maxBacklog arrived s ↔
    s.Counts ∧ s.stored.card ≤ maxBacklog.toNat ∧ s.droppedFrames = s.dropped.length.toUInt64 ∧
      ↑s.dropped + s.admitted = ↑arrived ∧ arrived.map numberOf = List.range arrived.length ∧
      s.received = arrived.length := by
  rw [dropped_add_admitted]
  constructor
  · intro h
    have hcount := h.backlogCount_eq
    rw [← card_stored] at hcount
    exact ⟨⟨hcount, h.underflow_eq⟩, hcount ▸ UInt64.le_iff_toNat_le.mp h.backlogCount_le,
      h.droppedFrames_eq, h.frames, h.numbers, h.received_eq⟩
  · rintro ⟨⟨hcount, hunderflow⟩, hle, hframes, hall, hnumbers, hreceived⟩
    exact ⟨hcount.trans (card_stored s), hunderflow, UInt64.le_iff_toNat_le.mpr (hcount ▸ hle), hframes,
      hall, hnumbers, hreceived⟩

theorem Transfers.accounts (h : Transfers s t) (hs : Accounts maxBacklog arrived s) :
    Accounts maxBacklog arrived t := by
  rw [accounts_iff] at hs ⊢
  obtain ⟨hcounts, hle, hframes, hall⟩ := hs
  refine ⟨h.counts hcounts, h.card_le.trans hle, ?_, ?_⟩
  · rw [h.droppedFrames, h.dropped, hframes]
  · rw [h.admitted, h.dropped, h.received]
    exact hall

/-! ## Arrivals -/

theorem numberOf_packetOf {number now : ℕ} {data : List UInt8} (h : packetOf number now data = some p) :
    numberOf p = number := by
  unfold packetOf at h
  obtain ⟨header, -, rfl⟩ := Option.map_eq_some_iff.mp h
  rfl

/-- One more frame has its number. -/
theorem numbers_concat (h : arrived.map numberOf = List.range arrived.length)
    (hp : numberOf p = arrived.length) :
    (arrived ++ [p]).map numberOf = List.range (arrived ++ [p]).length := by
  simp [List.range_succ, h, hp]

/-- A frame that is not admitted is counted as dropped. -/
theorem Accounts.drop (h : Accounts maxBacklog arrived s) (hp : numberOf p = arrived.length) :
    Accounts maxBacklog (arrived ++ [p]) (({ s with received := s.received + 1 } : State H).drop p) := by
  rw [accounts_iff] at h ⊢
  obtain ⟨hcounts, hle, hframes, hall, hnumbers, hreceived⟩ := h
  refine ⟨⟨hcounts.1, hcounts.2⟩, hle, ?_, ?_, numbers_concat hnumbers hp, ?_⟩
  · change s.droppedFrames + 1 = (s.dropped ++ [p]).length.toUInt64
    rw [hframes, List.length_append, List.length_singleton]
    exact (UInt64.ofNat_add _ _).symm
  · change (↑(s.dropped ++ [p]) + s.admitted : Multiset Packet) = _
    rw [← Multiset.coe_add, ← Multiset.coe_add, add_right_comm, hall]
  · rw [List.length_append, ← hreceived]
    rfl

/-- A frame that is admitted is stored and counted. -/
theorem Accounts.enqueue (h : Accounts maxBacklog arrived s) (hp : numberOf p = arrived.length)
    (hadmits : s.admits maxBacklog = true) :
    Accounts maxBacklog (arrived ++ [p]) (({ s with received := s.received + 1 } : State H).enqueue p) := by
  have hlt := UInt64.lt_iff_toNat_lt.mp (of_decide_eq_true hadmits).1
  have hmax := UInt64.toNat_lt maxBacklog
  rw [accounts_iff] at h
  obtain ⟨hcounts, hle, hframes, hall, hnumbers, hreceived⟩ := h
  have hstored : ({ s with channel := s.channel ++ [p] } : State H).stored = p ::ₘ s.stored := by
    simp only [State.stored, ← coe_add, coe_singleton, ← singleton_add]
    rw [add_comm (s.channel : Multiset Packet), add_assoc, add_assoc, add_assoc]
  let added : State H :=
    { s with
      received := s.received + 1
      channel := s.channel ++ [p]
      backlogCount := s.backlogCount + 1 }
  have hadded : Accounts maxBacklog (arrived ++ [p]) added := by
    rw [accounts_iff]
    refine ⟨⟨?_, hcounts.2⟩, ?_, hframes, ?_, numbers_concat hnumbers hp, ?_⟩
    · change (s.backlogCount + 1).toNat =
        ({ s with channel := s.channel ++ [p] } : State H).stored.card
      rw [hstored, card_cons, ← hcounts.backlogCount_eq, UInt64.toNat_add]
      exact Nat.mod_eq_of_lt (by simpa using by omega)
    · change ({ s with channel := s.channel ++ [p] } : State H).stored.card ≤ _
      rw [hstored, card_cons, ← hcounts.backlogCount_eq]
      exact hlt
    · change (↑s.dropped + (↑(s.handed.map Prod.fst) +
        ({ s with channel := s.channel ++ [p] } : State H).stored) : Multiset Packet) = _
      rw [hstored, Multiset.add_cons, Multiset.add_cons, ← Multiset.coe_add, ← hall, Multiset.coe_singleton,
        ← Multiset.singleton_add]
      exact add_comm _ _
    · rw [List.length_append, ← hreceived]
      rfl
  rw [State.enqueue_eq]
  exact Transfers.accounts (s := added) (Transfers.of_stored rfl rfl) hadded

theorem accounts_step (guest : ℕ → Readiness) (event : Event) (h : Accounts maxBacklog arrived s) :
    Accounts maxBacklog (if s.aborted then arrived else arrived ++ arrivedBy arrived.length event)
      (step guest maxBacklog s event).1 := by
  unfold step
  split
  · exact h
  · cases event with
    | message now data =>
      dsimp only
      rw [subCallback, arrivedBy, h.received_eq]
      cases hp : packetOf arrived.length now data with
      | none => rwa [Option.toList_none, List.append_nil]
      | some p =>
        dsimp only
        rw [← h.received_eq, Option.toList_some]
        split
        · rename_i hadmits
          exact h.enqueue (numberOf_packetOf hp) hadmits
        · exact h.drop (numberOf_packetOf hp)
    | rxTimer now =>
      dsimp only
      rw [arrivedBy, List.append_nil]
      split
      · have hdisarm : Transfers s { s with rxTimer := none } := Transfers.of_stored rfl rfl
        exact (hdisarm.trans (transfers_rxTimerCb guest now _)).accounts h
      · exact h

theorem accounts_initial : Accounts maxBacklog [] (initial H) :=
  ⟨by simp [initial], rfl, UInt64.le_iff_toNat_le.mpr (Nat.zero_le _), rfl, by simp [initial], rfl, rfl⟩

end

/-- **The accounts are right after every run**, whatever the guest answers. -/
theorem accounts_finalState (guest : ℕ → Readiness) (maxBacklog : UInt64) (events : List Event) :
    Accounts maxBacklog (arrivals (entries (step guest maxBacklog) (initial H) events))
      (finalState (step guest maxBacklog) (initial H) events) := by
  refine entries_invariant (step guest maxBacklog)
    (P := fun run s => Accounts maxBacklog (arrivals run) s) accounts_initial ?_ events
  intro run s event h
  rw [arrivals, List.foldl_append]
  exact accounts_step guest event h

/-! ## A guest that always accepts -/

/-- A guest that always accepts. -/
def accepting : ℕ → Readiness := fun _ => .ready

theorem canReceive_accepting (s : State H) : s.canReceive accepting = true := rfl

/-- What the loop over the heap does for such a guest: it hands over `batch`, the heap is left with
`rest`, and the timer is armed for the first frame there. -/
structure HandsOver (now : ℕ) (batch : List Packet) (rest : H.Carrier) (s t : State H) : Prop where
  handed : t.handed = s.handed ++ batch.map (·, now)
  heap : t.heap = rest
  channel : t.channel = s.channel
  backlog : t.backlog = s.backlog
  earliestVtime : t.earliestVtime = s.earliestVtime
  rxTimer : t.rxTimer = nextExpiry H rest s.rxTimer

theorem deliverLoop_accepting (now : ℕ) {fuel : ℕ} (hfuel : (H.items s.heap).card ≤ fuel) :
    HandsOver now (H.popWhile (Ordered.isDue now) fuel s.heap).1
      (H.popWhile (Ordered.isDue now) fuel s.heap).2 s (deliverLoop accepting now fuel s) := by
  induction fuel generalizing s with
  | zero =>
    have hpop : H.pop s.heap = none := Option.isNone_iff_eq_none.mp
      ((H.isEmpty_iff s.heap).mpr (card_eq_zero.mp (Nat.le_zero.mp hfuel)))
    refine ⟨by simp [PriorityQueue.popWhile, deliverLoop], rfl, rfl, rfl, rfl, ?_⟩
    simp [PriorityQueue.popWhile, deliverLoop, nextExpiry, hpop]
  | succ fuel ih =>
    unfold deliverLoop PriorityQueue.popWhile
    cases hpop : H.pop s.heap with
    | none => exact ⟨by simp, rfl, rfl, rfl, rfl, by simp [nextExpiry, hpop]⟩
    | some taken =>
      obtain ⟨p, rest⟩ := taken
      dsimp only
      by_cases hdue : p.isDue now = true
      · rw [if_pos hdue, if_pos hdue, if_pos (canReceive_accepting s)]
        rw [H.items_of_pop_some hpop, card_cons] at hfuel
        have hloop := ih (s := ({ s.asked with heap := rest }).handOver now p)
          (Nat.le_of_succ_le_succ hfuel)
        refine { hloop with handed := ?_ }
        exact hloop.handed.trans (List.append_assoc s.handed [(p, now)] _)
      · rw [if_neg hdue, if_neg hdue]
        exact ⟨by simp, rfl, rfl, rfl, rfl, by simp [nextExpiry, hpop]⟩

/-- What the timer callback does for such a guest: it hands over what is due, and arms the timer for
the first frame that is left; `earliest_vtime` is reset only if there is none. -/
structure Delivers (now : ℕ) (batch : List Packet) (s t : State H) : Prop where
  handed : t.handed = s.handed ++ batch.map (·, now)
  batch_eq : (batch : Multiset Packet) =
    (↑s.channel + H.items s.heap).filter (Ordered.isDue now · = true)
  items_eq : H.items t.heap = (↑s.channel + H.items s.heap).filter (Ordered.isDue now · = false)
  channel : t.channel = []
  backlog : t.backlog = []
  rxTimer : t.rxTimer = nextExpiry H t.heap s.rxTimer
  earliestVtime : t.earliestVtime = if H.isEmpty t.heap then maxVtime else s.earliestVtime

theorem rxTimerCb_accepting (now : ℕ) (h : s.backlog = []) :
    ∃ batch, Delivers now batch s (rxTimerCb accepting now s) := by
  have hitems : H.items s.collect.heap = ↑s.channel + H.items s.heap := by
    rw [State.collect, PriorityQueue.items_pushAll, add_comm]
  have hfilter := H.popWhile_eq_filter (Ordered.isDue_of_key_le now) (q := s.collect.heap) (le_refl _)
  have hloop := deliverLoop_accepting now (s := s.collect) (le_refl _)
  have hcb : rxTimerCb accepting now s = s.deliver accepting now := by
    unfold rxTimerCb
    rw [h]
    rfl
  have hreset (t : State H) : t.resetEarliest =
      { t with earliestVtime := if H.isEmpty t.heap then maxVtime else t.earliestVtime } := by
    unfold State.resetEarliest
    split <;> rfl
  rw [hcb, State.deliver, hreset]
  refine ⟨_, hloop.handed, ?_, ?_, hloop.channel, hloop.backlog.trans h, ?_, ?_⟩
  · rw [← hitems]
    exact hfilter.1
  · rw [← hitems, ← hfilter.2]
    exact congrArg H.items hloop.heap
  · dsimp only
    rw [hloop.heap]
    exact hloop.rxTimer
  · dsimp only
    rw [hloop.earliestVtime]
    rfl

end Virtmcu.Comms.Netdev
