import Virtmcu.Mcu.Lpuart

/-! # What the LPUART receives, and when

A frame waits in the channel and then in the heap. The subscription callback lowers `earliest_vtime` and
moves the receive timer when a frame is earlier than all that wait; the timer callback takes what is due
and computes both anew from what is left. `SafeSubscription` calls the former on the main loop, where the
timer callbacks run too, so the two never overlap and each is one step.

* `AfterRx` says what the timer callback does: the frames that are due are handled in their order, and
  nothing else has an effect.
* `onTime_run`: as long as nobody resets the device, `earliest_vtime` is the least of the times that wait
  and the timer is armed no later than that. -/

namespace Virtmcu.Mcu.Lpuart

open Devices Comms Multiset

variable {H : LinHeap}

/-! ## Frames that wait -/

/-- What was received and not handled yet, in the heap or still in the channel. -/
def State.waiting (s : State H) : Multiset OrderedLinFrame := H.items s.heap + s.channel

/-- `packet.vtime <= now`. -/
def OrderedLinFrame.isDue (now : ℕ) (p : OrderedLinFrame) : Bool := decide (p.vtime.toNat ≤ now)

variable {now : ℕ} {p : OrderedLinFrame}

theorem OrderedLinFrame.isDue_iff : p.isDue now = true ↔ p.vtime.toNat ≤ now := decide_eq_true_iff

theorem OrderedLinFrame.isDue_of_key_le (now : ℕ) (p q : OrderedLinFrame) (h : p.key ≤ q.key)
    (hq : q.isDue now = true) : p.isDue now = true :=
  isDue_iff.mpr (h.trans (isDue_iff.mp hq))

theorem items_collect (s : State H) : H.items s.collect.heap = s.waiting :=
  H.items_pushAll s.channel s.heap

/-- The frames that the callback takes at `now`, in the order in which it takes them. -/
def State.dueAt (now : ℕ) (s : State H) : List OrderedLinFrame :=
  (H.popWhile (OrderedLinFrame.isDue now) (H.items s.collect.heap).card s.collect.heap).1

/-- The heap that it leaves. -/
def State.leftAt (now : ℕ) (s : State H) : H.Carrier :=
  (H.popWhile (OrderedLinFrame.isDue now) (H.items s.collect.heap).card s.collect.heap).2

/-- **All that is due is taken**, and only that. -/
theorem coe_dueAt (now : ℕ) (s : State H) :
    (s.dueAt now : Multiset OrderedLinFrame) = s.waiting.filter (OrderedLinFrame.isDue now · = true) := by
  rw [← items_collect]
  exact (H.popWhile_eq_filter (OrderedLinFrame.isDue_of_key_le now) le_rfl).1

theorem items_leftAt (now : ℕ) (s : State H) :
    H.items (s.leftAt now) = s.waiting.filter (OrderedLinFrame.isDue now · = false) := by
  rw [← items_collect]
  exact (H.popWhile_eq_filter (OrderedLinFrame.isDue_of_key_le now) le_rfl).2

variable {s : State H}

theorem mem_dueAt : p ∈ s.dueAt now ↔ p ∈ s.waiting ∧ p.vtime.toNat ≤ now := by
  rw [← mem_coe, coe_dueAt, mem_filter, OrderedLinFrame.isDue_iff]

/-- In the order of their times. -/
theorem pairwise_dueAt (now : ℕ) (s : State H) :
    (s.dueAt now).Pairwise fun p q => p.vtime.toNat ≤ q.vtime.toNat :=
  H.popWhile_sorted _ _ _

/-! ## The effect of a frame -/

/-- A byte changes STAT and the buffer, and nothing else. -/
theorem receiveByte_eq (s : State H) (byte : UInt8) :
    ∃ stat rxBuffer, receiveByte s byte = { s with stat := stat, rxBuffer := rxBuffer } := by
  unfold receiveByte
  split
  · exact ⟨s.stat ||| statOr, s.rxBuffer, rfl⟩
  · exact ⟨s.stat, s.rxBuffer ++ [byte], rfl⟩

theorem receiveBytes_eq (bytes : List UInt8) (s : State H) :
    ∃ stat rxBuffer, bytes.foldl receiveByte s = { s with stat := stat, rxBuffer := rxBuffer } := by
  induction bytes generalizing s with
  | nil => exact ⟨s.stat, s.rxBuffer, rfl⟩
  | cons byte bytes ih =>
    obtain ⟨stat, rxBuffer, heq⟩ := receiveByte_eq s byte
    obtain ⟨stat', rxBuffer', heq'⟩ := ih (receiveByte s byte)
    refine ⟨stat', rxBuffer', ?_⟩
    rw [List.foldl_cons, heq', heq]

theorem receiveFrame_eq (s : State H) (p : OrderedLinFrame) :
    ∃ stat rxBuffer, receiveFrame s p = { s with stat := stat, rxBuffer := rxBuffer } := by
  unfold receiveFrame
  split
  · exact ⟨s.stat ||| statLbkdif, s.rxBuffer, rfl⟩
  · split
    · obtain ⟨stat, rxBuffer, heq⟩ := receiveBytes_eq p.data s
      dsimp only
      rw [heq]
      split
      · exact ⟨stat ||| statRdrf, rxBuffer, rfl⟩
      · exact ⟨stat, rxBuffer, rfl⟩
    · exact ⟨s.stat, s.rxBuffer, rfl⟩

theorem receiveFrames_eq (frames : List OrderedLinFrame) (s : State H) :
    ∃ stat rxBuffer, frames.foldl receiveFrame s = { s with stat := stat, rxBuffer := rxBuffer } := by
  induction frames generalizing s with
  | nil => exact ⟨s.stat, s.rxBuffer, rfl⟩
  | cons p frames ih =>
    obtain ⟨stat, rxBuffer, heq⟩ := receiveFrame_eq s p
    obtain ⟨stat', rxBuffer', heq'⟩ := ih (receiveFrame s p)
    refine ⟨stat', rxBuffer', ?_⟩
    rw [List.foldl_cons, heq', heq]

/-! ## The timer callback -/

/-- The timer has fired and the frames that are due are taken out, before any of them is handled. -/
def State.takeDue (now : ℕ) (s : State H) : State H :=
  { s with rxTimer := none, channel := [], heap := s.leftAt now }

/-- The frames that are due, one after the other. -/
def State.handleDue (now : ℕ) (s : State H) : State H :=
  (s.dueAt now).foldl receiveFrame (s.takeDue now)

theorem receiveDue_collect (now : ℕ) (s : State H) :
    { s with rxTimer := none }.collect.receiveDue now = s.handleDue now := rfl

theorem handleDue_eq (now : ℕ) (s : State H) :
    ∃ stat rxBuffer, s.handleDue now = { s.takeDue now with stat := stat, rxBuffer := rxBuffer } :=
  receiveFrames_eq _ _

/-- `earliest_vtime` is the least time that waits, and the greatest number of all if there is none. -/
structure State.Least (s : State H) : Prop where
  none : s.waiting = 0 → s.earliestVtime = maxVtime
  mem : s.waiting ≠ 0 → ∃ p ∈ s.waiting, p.vtime = s.earliestVtime
  le : ∀ p ∈ s.waiting, s.earliestVtime.toNat ≤ p.vtime.toNat

/-- What the timer callback does when the timer fires. -/
structure AfterRx (now : ℕ) (s t : State H) : Prop where
  stat : t.stat = (s.handleDue now).stat
  rxBuffer : t.rxBuffer = (s.handleDue now).rxBuffer
  irq : t.irq = t.pending
  baud : t.baud = s.baud
  ctrl : t.ctrl = s.ctrl
  txFifo : t.txFifo = s.txFifo
  txTimer : t.txTimer = s.txTimer
  published : t.published = s.published
  waiting : t.waiting = s.waiting.filter (OrderedLinFrame.isDue now · = false)
  least : t.Least
  armed : t.waiting ≠ 0 → t.rxTimer = some (expiryOf t.earliestVtime)
  disarmed : t.waiting = 0 → t.rxTimer = none

/-- What `peek` shows is the earliest of the frames in the heap. -/
theorem peek_spec {heap : H.Carrier} (h : H.peek heap = some p) :
    p ∈ H.items heap ∧ ∀ q ∈ H.items heap, p.vtime.toNat ≤ q.vtime.toNat := by
  obtain ⟨⟨q, rest⟩, hpop, rfl⟩ := Option.map_eq_some_iff.mp h
  have hitems := H.items_of_pop_some hpop
  refine ⟨hitems ▸ mem_cons_self q _, fun r hr => ?_⟩
  rcases mem_cons.mp (hitems ▸ hr) with rfl | hr
  · exact le_rfl
  · exact H.key_le_of_pop_some hpop r hr

theorem items_of_peek_none {heap : H.Carrier} (h : H.peek heap = none) : H.items heap = 0 :=
  H.items_of_pop_none (Option.map_eq_none_iff.mp h)

/-- **What the receive timer does.** -/
theorem afterRx_lpuartRxTimerCb (now : ℕ) (s : State H) :
    AfterRx now s (lpuartRxTimerCb now { s with rxTimer := none }) := by
  obtain ⟨stat, rxBuffer, heq⟩ := handleDue_eq now s
  have hwaiting : H.items (s.leftAt now) + (([] : List OrderedLinFrame) : Multiset OrderedLinFrame) =
      s.waiting.filter (OrderedLinFrame.isDue now · = false) := by
    rw [items_leftAt, coe_nil, add_zero]
  have hmem : ∀ q, q ∈ H.items (s.leftAt now) + (([] : List OrderedLinFrame) : Multiset OrderedLinFrame) →
      q ∈ H.items (s.leftAt now) := by
    intro q hq
    rwa [coe_nil, add_zero] at hq
  unfold lpuartRxTimerCb
  rw [receiveDue_collect, heq]
  cases hpeek : H.peek (s.leftAt now) with
  | some p =>
    obtain ⟨hp, hleast⟩ := peek_spec hpeek
    simp only [updateIrqs, State.takeDue, hpeek]
    have hne : H.items (s.leftAt now) + (([] : List OrderedLinFrame) : Multiset OrderedLinFrame) ≠ 0 :=
      fun hnone => absurd (hnone ▸ Multiset.mem_add.mpr (Or.inl hp)) (Multiset.notMem_zero p)
    refine ⟨by rw [heq], by rw [heq], rfl, rfl, rfl, rfl, rfl, rfl, hwaiting, ?_, fun _ => rfl,
      fun hnone => absurd hnone hne⟩
    refine ⟨fun hnone => absurd hnone hne, fun _ => ⟨p, Multiset.mem_add.mpr (Or.inl hp), rfl⟩,
      fun q hq => ?_⟩
    exact hleast q (hmem q hq)
  | none =>
    have hitems := items_of_peek_none hpeek
    have hzero : H.items (s.leftAt now) + (([] : List OrderedLinFrame) : Multiset OrderedLinFrame) = 0 := by
      rw [hitems, coe_nil, add_zero]
    simp only [updateIrqs, State.takeDue, hpeek]
    refine ⟨by rw [heq], by rw [heq], rfl, rfl, rfl, rfl, rfl, rfl, hwaiting, ?_,
      fun hne => absurd hzero hne, fun _ => rfl⟩
    refine ⟨fun _ => rfl, fun hne => absurd hzero hne, fun q hq => ?_⟩
    exact absurd (hzero ▸ hq) (notMem_zero q)

/-! ## The subscription callback -/

/-- The frame in a message, if there is one. -/
def frameOf (fb : Flatbuffers) (data : List UInt8) : Option OrderedLinFrame :=
  (fb.linFrame data).map fun frame => ⟨frame.deliveryVtimeNs, frame.type, frame.data.getD []⟩

/-- What the subscription callback does with a frame. -/
structure AfterFrame (p : OrderedLinFrame) (s t : State H) : Prop where
  waiting : t.waiting = p ::ₘ s.waiting
  earlier : p.vtime < s.earliestVtime →
    t.earliestVtime = p.vtime ∧ t.rxTimer = some (expiryOf p.vtime)
  later : ¬ p.vtime < s.earliestVtime → t.earliestVtime = s.earliestVtime ∧ t.rxTimer = s.rxTimer

variable {fb : Flatbuffers}

theorem subCallback_of_none {data : List UInt8} (s : State H)
    (h : frameOf fb data = none) : subCallback fb data s = s := by
  have hnone : fb.linFrame data = none := Option.map_eq_none_iff.mp h
  unfold subCallback
  rw [hnone]

theorem afterFrame_subCallback {data : List UInt8}
    (s : State H) (h : frameOf fb data = some p) : AfterFrame p s (subCallback fb data s) := by
  obtain ⟨frame, hframe, rfl⟩ := Option.map_eq_some_iff.mp h
  have hwaiting : H.items s.heap +
      ((s.channel ++ [⟨frame.deliveryVtimeNs, frame.type, frame.data.getD []⟩] :
        List OrderedLinFrame) : Multiset OrderedLinFrame) =
      ⟨frame.deliveryVtimeNs, frame.type, frame.data.getD []⟩ ::ₘ s.waiting := by
    rw [← coe_add, ← add_assoc, coe_singleton, add_comm, singleton_add]
    rfl
  unfold subCallback
  rw [hframe]
  dsimp only
  split
  · exact ⟨hwaiting, fun _ => ⟨rfl, rfl⟩, fun hnot => absurd ‹_› hnot⟩
  · exact ⟨hwaiting, fun hlt => absurd hlt ‹_›, fun _ => ⟨rfl, rfl⟩⟩

/-! ## The other events -/

/-- What concerns the reception is as before. -/
structure KeepsRx (s t : State H) : Prop where
  channel : t.channel = s.channel
  heap : t.heap = s.heap
  earliestVtime : t.earliestVtime = s.earliestVtime
  rxTimer : t.rxTimer = s.rxTimer

theorem KeepsRx.refl (s : State H) : KeepsRx s s := ⟨rfl, rfl, rfl, rfl⟩

variable {s t : State H}

theorem KeepsRx.waiting (h : KeepsRx s t) : t.waiting = s.waiting := by
  rw [State.waiting, h.heap, h.channel, State.waiting]

theorem keepsRx_lpuartRead (offset : UInt64) (s : State H) : KeepsRx s (lpuartRead offset s).2 := by
  unfold lpuartRead
  cases registerAt offset with
  | data =>
    show KeepsRx s (readData s).2
    unfold readData
    cases s.rxBuffer <;> exact ⟨rfl, rfl, rfl, rfl⟩
  | _ => exact ⟨rfl, rfl, rfl, rfl⟩

theorem keepsRx_writeData (now : ℕ) (byte : UInt8) (s : State H) : KeepsRx s (writeData now byte s) := by
  unfold writeData
  dsimp only
  split
  · exact ⟨rfl, rfl, rfl, rfl⟩
  · exact ⟨rfl, rfl, rfl, rfl⟩

theorem keepsRx_writeCtrl (now : ℕ) (val : UInt32) (s : State H) : KeepsRx s (writeCtrl now val s) := by
  unfold writeCtrl
  dsimp only
  split
  · exact ⟨rfl, rfl, rfl, rfl⟩
  · exact ⟨rfl, rfl, rfl, rfl⟩

theorem keepsRx_lpuartWrite (now : ℕ) (offset value : UInt64) (s : State H) :
    KeepsRx s (lpuartWrite now offset value s) := by
  unfold lpuartWrite
  dsimp only
  cases registerAt offset with
  | ctrl => exact keepsRx_writeCtrl now _ s
  | data =>
    dsimp only
    split
    · exact keepsRx_writeData now _ s
    · exact ⟨rfl, rfl, rfl, rfl⟩
  | _ => exact ⟨rfl, rfl, rfl, rfl⟩

theorem keepsRx_sendByte (now : ℕ) (s : State H) : KeepsRx s (sendByte now s) := by
  unfold sendByte
  cases s.txFifo with
  | nil => exact KeepsRx.refl s
  | cons byte rest => exact ⟨rfl, rfl, rfl, rfl⟩

theorem keepsRx_lpuartTxTimerCb (now : ℕ) (s : State H) : KeepsRx s (lpuartTxTimerCb now s) := by
  have h := keepsRx_sendByte now s
  unfold lpuartTxTimerCb
  dsimp only
  split
  · exact ⟨h.channel, h.heap, h.earliestVtime, h.rxTimer⟩
  · exact ⟨h.channel, h.heap, h.earliestVtime, h.rxTimer⟩

/-! ## Runs without reset -/

/-- The frame that arrives with an event. -/
def arrivedBy (fb : Flatbuffers) : Event → List OrderedLinFrame
  | .message data => (frameOf fb data).toList
  | _ => []

/-- The frames that an event handles, in this order. -/
def handledBy (s : State H) : Event → List OrderedLinFrame
  | .rxTimer now => if isExpired s.rxTimer now then s.dueAt now else []
  | _ => []

/-- The timer is set for the earliest frame that waits. -/
structure State.Ready (s : State H) : Prop where
  least : s.Least
  armed : s.waiting ≠ 0 → s.rxTimer = some (expiryOf s.earliestVtime)

theorem KeepsRx.ready (h : KeepsRx s t) (hs : s.Ready) : t.Ready := by
  have hwaiting := h.waiting
  refine ⟨⟨?_, ?_, ?_⟩, ?_⟩
  · rw [hwaiting, h.earliestVtime]
    exact hs.least.none
  · rw [hwaiting, h.earliestVtime]
    exact hs.least.mem
  · rw [hwaiting, h.earliestVtime]
    exact hs.least.le
  · rw [hwaiting, h.earliestVtime, h.rxTimer]
    exact hs.armed

theorem AfterRx.ready (h : AfterRx now s t) : t.Ready := ⟨h.least, h.armed⟩

/-- A frame before the end of time finds the timer set, or sets it. -/
theorem AfterFrame.ready (h : AfterFrame p s t) (hs : s.Ready) (hp : p.vtime.toNat < 2 ^ 63) : t.Ready := by
  by_cases hlt : p.vtime < s.earliestVtime
  · obtain ⟨hearliest, htimer⟩ := h.earlier hlt
    refine ⟨⟨fun hzero => ?_, fun _ => ⟨p, ?_, hearliest.symm⟩, fun q hq => ?_⟩, fun _ => ?_⟩
    · exact absurd (h.waiting.symm.trans hzero) cons_ne_zero
    · exact h.waiting ▸ mem_cons_self p _
    · rw [hearliest]
      rcases mem_cons.mp (h.waiting ▸ hq) with rfl | hq
      · exact le_rfl
      · exact (UInt64.lt_iff_toNat_lt.mp hlt).le.trans (hs.least.le q hq)
    · rw [htimer, hearliest]
  · obtain ⟨hearliest, htimer⟩ := h.later hlt
    -- something waits already, since nothing is later than the value for an empty queue
    have hne : s.waiting ≠ 0 := by
      intro hzero
      apply hlt
      rw [hs.least.none hzero, UInt64.lt_iff_toNat_lt]
      exact hp.trans (by decide)
    refine ⟨⟨fun hzero => ?_, fun _ => ?_, fun q hq => ?_⟩, fun _ => ?_⟩
    · exact absurd (h.waiting.symm.trans hzero) cons_ne_zero
    · obtain ⟨q, hq, heq⟩ := hs.least.mem hne
      exact ⟨q, h.waiting ▸ mem_cons_of_mem hq, heq.trans hearliest.symm⟩
    · rw [hearliest]
      rcases mem_cons.mp (h.waiting ▸ hq) with rfl | hq
      · exact not_lt.mp fun hq => hlt (UInt64.lt_iff_toNat_lt.mpr hq)
      · exact hs.least.le q hq
    · rw [htimer, hearliest]
      exact hs.armed hne

theorem ready_initial (H : LinHeap) : (initial H).Ready := by
  have hzero : (initial H).waiting = 0 := by
    show H.items H.empty + 0 = 0
    rw [H.items_empty, add_zero]
  refine ⟨⟨fun _ => rfl, fun hne => absurd hzero hne, fun p hp => ?_⟩, fun hne => absurd hzero hne⟩
  exact absurd (hzero ▸ hp) (notMem_zero p)

/-- The frames are received on time at this event. -/
structure OnTime (fb : Flatbuffers) (entry : Entry (State H) Event (Option UInt32)) : Prop where
  /-- The least time that waits, or `u64::MAX`. -/
  least : entry.after.Least
  armed : entry.after.waiting ≠ 0 →
    ∃ expiry, entry.after.rxTimer = some expiry ∧ expiry ≤ entry.after.earliestVtime.toNat
  /-- No frame is lost, and none is handled twice. -/
  account : (handledBy entry.before entry.input : Multiset OrderedLinFrame) + entry.after.waiting =
    (arrivedBy fb entry.input : Multiset OrderedLinFrame) + entry.before.waiting
  ordered : (handledBy entry.before entry.input).Pairwise fun p q => p.vtime.toNat ≤ q.vtime.toNat
  notEarly : ∀ now, entry.input = .rxTimer now →
    ∀ p ∈ handledBy entry.before entry.input, p.vtime.toNat ≤ now
  /-- What the callback does to the registers is what these frames do, one after the other. -/
  effect : ∀ now, entry.input = .rxTimer now →
    let handled := (handledBy entry.before entry.input).foldl receiveFrame (entry.before.takeDue now)
    entry.after.stat = handled.stat ∧ entry.after.rxBuffer = handled.rxBuffer

/-- The guest and the transmitter leave the reception alone. -/
theorem keepsRx_step (fb : Flatbuffers) (s : State H) {event : Event} (hreset : event ≠ .reset)
    (hmessage : ∀ data, event ≠ .message data) (htimer : ∀ now, event ≠ .rxTimer now) :
    KeepsRx s (step fb s event).1 := by
  cases event with
  | read offset => exact keepsRx_lpuartRead offset s
  | write now offset value => exact keepsRx_lpuartWrite now offset value s
  | txTimer now =>
    show KeepsRx s (if isExpired s.txTimer now then lpuartTxTimerCb now { s with txTimer := none } else s)
    split
    · have h := keepsRx_lpuartTxTimerCb now { s with txTimer := none }
      exact ⟨h.channel, h.heap, h.earliestVtime, h.rxTimer⟩
    · exact KeepsRx.refl s
  | rxTimer now => exact absurd rfl (htimer now)
  | message data => exact absurd rfl (hmessage data)
  | reset => exact absurd rfl hreset

/-- A state that is ready, with the frames accounted for. -/
theorem State.Ready.onTime {event : Event} (hready : (step fb s event).1.Ready)
    (haccount : (handledBy s event : Multiset OrderedLinFrame) + (step fb s event).1.waiting =
      (arrivedBy fb event : Multiset OrderedLinFrame) + s.waiting)
    (hevent : ∀ now, event ≠ .rxTimer now) : OnTime fb (entryAt (step fb) s event) := by
  have hhandled : handledBy s event = [] := by
    cases event with
    | rxTimer now => exact absurd rfl (hevent now)
    | _ => rfl
  refine ⟨hready.least, fun hne => ⟨_, hready.armed hne, expiryOf_le _⟩, haccount, ?_, ?_, ?_⟩
  · rw [entryAt_before, entryAt_input, hhandled]
    exact List.Pairwise.nil
  · exact fun now hnow => absurd hnow (hevent now)
  · exact fun now hnow => absurd hnow (hevent now)

/-- A timer that has not expired does nothing. -/
theorem step_rxTimer_of_not_expired (fb : Flatbuffers)
    (h : isExpired s.rxTimer now = false) : (step fb s (.rxTimer now)).1 = s := by
  simp only [step, h, Bool.false_eq_true, if_false]

theorem afterRx_step (fb : Flatbuffers) (h : isExpired s.rxTimer now = true) :
    AfterRx now s (step fb s (.rxTimer now)).1 := by
  have hstep : (step fb s (.rxTimer now)).1 = lpuartRxTimerCb now { s with rxTimer := none } := by
    simp only [step, h, if_true]
  rw [hstep]
  exact afterRx_lpuartRxTimerCb now s

theorem onTime_rxTimer (fb : Flatbuffers) (now : ℕ) (hs : s.Ready) :
    (step fb s (.rxTimer now)).1.Ready ∧ OnTime fb (entryAt (step fb) s (.rxTimer now)) := by
  cases hexpired : isExpired s.rxTimer now with
  | false =>
    have hstep := step_rxTimer_of_not_expired fb hexpired
    have hhandled : handledBy s (.rxTimer now) = [] := by
      simp only [handledBy, hexpired, Bool.false_eq_true, if_false]
    refine ⟨by rwa [hstep], ?_, ?_, ?_, ?_, ?_, ?_⟩
    · rw [entryAt_after, hstep]
      exact hs.least
    · rw [entryAt_after, hstep]
      exact fun hne => ⟨_, hs.armed hne, expiryOf_le _⟩
    · rw [entryAt_after, hstep, entryAt_before, entryAt_input, hhandled]
      rfl
    · rw [entryAt_before, entryAt_input, hhandled]
      exact List.Pairwise.nil
    · rw [entryAt_before, entryAt_input, hhandled]
      exact fun _ _ p hp => absurd hp List.not_mem_nil
    · rw [entryAt_after, hstep, entryAt_before, entryAt_input, hhandled]
      exact fun _ _ => ⟨rfl, rfl⟩
  | true =>
    have hafter := afterRx_step fb hexpired
    have hhandled : handledBy s (.rxTimer now) = s.dueAt now := by
      simp only [handledBy, hexpired, if_true]
    refine ⟨hafter.ready, hafter.least, fun hne => ⟨_, hafter.armed hne, expiryOf_le _⟩, ?_, ?_, ?_, ?_⟩
    · have hsplit := filter_add_not (OrderedLinFrame.isDue now · = true) s.waiting
      rw [entryAt_before, entryAt_input, entryAt_after, hhandled, hafter.waiting, coe_dueAt]
      simpa only [Bool.not_eq_true, arrivedBy, coe_nil, zero_add] using hsplit
    · rw [entryAt_before, entryAt_input, hhandled]
      exact pairwise_dueAt now s
    · rw [entryAt_before, entryAt_input, hhandled]
      rintro _ ⟨⟩ p hp
      exact (mem_dueAt.mp hp).2
    · rw [entryAt_before, entryAt_input, entryAt_after, hhandled]
      rintro _ ⟨⟩
      exact ⟨hafter.stat, hafter.rxBuffer⟩

/-- An event that is no reset, with a frame whose time is below `2^63` or none. -/
def InTime (fb : Flatbuffers) (event : Event) : Prop :=
  event ≠ .reset ∧ ∀ p ∈ arrivedBy fb event, p.vtime.toNat < 2 ^ 63

instance (fb : Flatbuffers) (event : Event) : Decidable (InTime fb event) :=
  inferInstanceAs (Decidable (_ ∧ _))

theorem onTime_message (fb : Flatbuffers) (data : List UInt8) (hs : s.Ready)
    (hevent : InTime fb (.message data)) :
    (step fb s (.message data)).1.Ready ∧ OnTime fb (entryAt (step fb) s (.message data)) := by
  cases hframe : frameOf fb data with
  | none =>
    have hstep : (step fb s (.message data)).1 = s := subCallback_of_none s hframe
    have hready : (step fb s (.message data)).1.Ready := by rwa [hstep]
    refine ⟨hready, hready.onTime ?_ nofun⟩
    rw [hstep, arrivedBy, hframe]
    rfl
  | some p =>
    have hafter := afterFrame_subCallback s hframe
    have hready : (step fb s (.message data)).1.Ready :=
      hafter.ready hs (hevent.2 p (by rw [arrivedBy, hframe]; exact List.mem_singleton_self p))
    refine ⟨hready, hready.onTime ?_ nofun⟩
    rw [arrivedBy, hframe]
    exact (zero_add _).trans (hafter.waiting.trans (singleton_add p _).symm)

theorem onTime_step (fb : Flatbuffers) (s : State H) (event : Event) (hevent : InTime fb event)
    (hs : s.Ready) : (step fb s event).1.Ready ∧ OnTime fb (entryAt (step fb) s event) := by
  cases event with
  | rxTimer now => exact onTime_rxTimer fb now hs
  | message data => exact onTime_message fb data hs hevent
  | _ =>
    have hkeeps := keepsRx_step fb s hevent.1 nofun nofun
    refine ⟨hkeeps.ready hs, (hkeeps.ready hs).onTime ?_ nofun⟩
    exact congrArg (0 + ·) hkeeps.waiting

/-- **Between resets the LPUART receives on time**: in every run, whatever the order and the times in
which the frames arrive. -/
theorem onTime_run (fb : Flatbuffers) (events : List Event) (hevents : ∀ event ∈ events, InTime fb event) :
    ∀ entry ∈ entries (step fb) (initial H) events, OnTime fb entry :=
  (entries_of_inputs (step fb) (onTime_step fb) (ready_initial H) hevents).2

/-- With the receiver on, a byte arrives, and a break that is due before it. -/
def outOfOrder : List Event :=
  [.write 0 0x18 0x40000, .message (leBytes 8 200 ++ [0, 65]), .message (leBytes 8 100 ++ [1]),
    .rxTimer 150, .rxTimer 200]

/-- The break is seen first, and the timer is left armed for the byte. -/
theorem onTime_outOfOrder : let run := finalState (step plainFlatbuffers) (initial plainHeap)
    ((run (outOfOrder.take 4)).rxBuffer = [] ∧ (run (outOfOrder.take 4)).earliestVtime = 200 ∧
      (run outOfOrder).rxBuffer = [65] ∧ (run outOfOrder).earliestVtime = maxVtime) ∧
      ∀ entry ∈ entries (step plainFlatbuffers) (initial plainHeap) outOfOrder,
        OnTime plainFlatbuffers entry :=
  ⟨by decide +kernel, onTime_run plainFlatbuffers outOfOrder (by decide +kernel)⟩

end Virtmcu.Mcu.Lpuart
