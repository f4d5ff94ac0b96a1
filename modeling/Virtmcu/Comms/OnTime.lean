import Virtmcu.Comms.Canfd
import Virtmcu.Comms.Netdev

/-! # Delivery on time

`netdev` and `canfd` decide alike when to wake up. The subscription callback arms the timer for a frame
only if it is earlier than `earliest_vtime`; the timer callback delivers what is due, arms the timer for
the next frame and resets `earliest_vtime` only if there is none.

A device with these two callbacks (`Lawful`) runs against the virtual clock (`step`), which does not
pass the expiry of an armed timer before the timer has fired. After a callback that leaves frames behind,
`earliest_vtime` still has the old, smaller value. A frame that arrives then and is due before the armed
time is not seen (`Skipped`), and it is late. As long as no frame is skipped, every frame is delivered at
the first instant at which it has arrived and is due (`punctual_iff`). -/

namespace Virtmcu.Comms

open List

/-! ## Devices with a receive timer -/

/-- A device that receives, as far as time is concerned. -/
structure TimedDevice (β : Type) where
  State : Type
  initial : State
  /-- The frames in the channel and the heap. -/
  pending : State → Multiset (Ordered (Arrived β))
  /-- The frames that went to the guest or the bus, with the virtual time. -/
  delivered : State → List (Ordered (Arrived β) × ℕ)
  earliestVtime : State → UInt64
  rxTimer : State → Option ℕ
  /-- The subscription callback, with the frame that it admits. -/
  receive : (now : ℕ) → (data : List UInt8) → State → State × Option (Ordered (Arrived β))
  /-- The timer callback, behind the removal of the timer that fires. -/
  fire : (now : ℕ) → State → State

variable {β : Type}

/-- What the subscription callback does: the wakeup is decided by `earliest_vtime`. -/
structure TimedDevice.Receives (D : TimedDevice β) (now : ℕ) (s : D.State)
    (result : D.State × Option (Ordered (Arrived β))) : Prop where
  delivered : D.delivered result.1 = D.delivered s
  refused : result.2 = none → D.pending result.1 = D.pending s ∧
    D.earliestVtime result.1 = D.earliestVtime s ∧ D.rxTimer result.1 = D.rxTimer s
  admitted : ∀ p, result.2 = some p → p.body.time = now ∧ D.pending result.1 = p ::ₘ D.pending s
  earlier : ∀ p, result.2 = some p → p.vtime < D.earliestVtime s →
    D.earliestVtime result.1 = p.vtime ∧ D.rxTimer result.1 = some (expiryOf p.vtime)
  later : ∀ p, result.2 = some p → ¬ p.vtime < D.earliestVtime s →
    D.earliestVtime result.1 = D.earliestVtime s ∧ D.rxTimer result.1 = D.rxTimer s

/-- What the timer callback does: `batch` is what is due. -/
structure TimedDevice.Fires (D : TimedDevice β) (now : ℕ) (batch : List (Ordered (Arrived β)))
    (s t : D.State) : Prop where
  delivered : D.delivered t = D.delivered s ++ batch.map (·, now)
  batch_eq : (batch : Multiset _) = (D.pending s).filter (Ordered.isDue now · = true)
  pending : D.pending t = (D.pending s).filter (Ordered.isDue now · = false)
  rearmed : D.pending t ≠ 0 → D.earliestVtime t = D.earliestVtime s ∧
    ∃ p ∈ D.pending t, D.rxTimer t = some (expiryOf p.vtime) ∧
      ∀ q ∈ D.pending t, p.vtime.toNat ≤ q.vtime.toNat

/-- The callbacks of the device do this, while `Inv` holds. -/
structure TimedDevice.Lawful (D : TimedDevice β) (Inv : D.State → Prop) : Prop where
  inv_initial : Inv D.initial
  pending_initial : D.pending D.initial = 0
  delivered_initial : D.delivered D.initial = []
  inv_receive : ∀ now data {s}, Inv s → Inv (D.receive now data s).1
  receives : ∀ now data {s}, Inv s → D.Receives now s (D.receive now data s)
  inv_fire : ∀ now {s}, Inv s → Inv (D.fire now s)
  fires : ∀ now {s}, Inv s → ∃ batch, D.Fires now batch s (D.fire now s)

/-! ## The virtual clock -/

/-- A device and the virtual clock. -/
structure Clocked (D : TimedDevice β) where
  device : D.State
  now : ℕ

/-- What happens. -/
inductive TimedEvent
  /-- A message arrives. -/
  | message (data : List UInt8)
  /-- The clock goes on. -/
  | tick (time : ℕ)
  /-- The timer fires. -/
  | fire
  deriving DecidableEq, Repr

variable (D : TimedDevice β)

/-- The clock may go on to this time: the timer does not expire before. -/
def Clocked.mayReach {D : TimedDevice β} (c : Clocked D) (time : ℕ) : Bool :=
  decide (c.now < time) && (D.rxTimer c.device).all (time ≤ ·)

/-- An event, and the frame that it admits. A clock that may not go on stands still, and a timer that has
not expired does not fire. -/
def timedStep (c : Clocked D) : TimedEvent → Clocked D × Option (Ordered (Arrived β))
  | .message data =>
      ({ c with device := (D.receive c.now data c.device).1 }, (D.receive c.now data c.device).2)
  | .tick time => (if c.mayReach time then { c with now := time } else c, none)
  | .fire =>
      (if isExpired (D.rxTimer c.device) c.now then { c with device := D.fire c.now c.device } else c, none)

/-- The start, at time zero. -/
def Clocked.start : Clocked D := ⟨D.initial, 0⟩

/-- The record of a run. -/
def timedRun (events : List TimedEvent) :
    List (Entry (Clocked D) TimedEvent (Option (Ordered (Arrived β)))) :=
  entries (timedStep D) (Clocked.start D) events

/-! ## Being on time -/

variable {D}

/-- The timer is armed no later than the smallest pending delivery time. -/
def Clocked.Armed (c : Clocked D) : Prop :=
  ∀ p ∈ D.pending c.device, isExpired (D.rxTimer c.device) p.vtime.toNat = true

instance (c : Clocked D) : Decidable c.Armed := Multiset.decidableForallMultiset

/-- The first instant at which the frame has arrived and is due. -/
def dueTime (p : Ordered (Arrived β)) : ℕ := max p.body.time p.vtime.toNat

/-- Every frame was delivered at its instant, and none that waits has missed it. -/
structure Clocked.OnTime (c : Clocked D) : Prop where
  delivered : ∀ entry ∈ D.delivered c.device, entry.2 = dueTime entry.1
  pending : ∀ p ∈ D.pending c.device, c.now ≤ dueTime p

instance (c : Clocked D) : Decidable c.OnTime :=
  decidable_of_iff ((∀ entry ∈ D.delivered c.device, entry.2 = dueTime entry.1) ∧
      ∀ p ∈ D.pending c.device, c.now ≤ dueTime p)
    ⟨fun h => ⟨h.1, h.2⟩, fun h => ⟨h.delivered, h.pending⟩⟩

/-- All through the run the timer is armed in time, and every frame is delivered on time. -/
def Punctual (D : TimedDevice β) (events : List TimedEvent) : Prop :=
  ∀ entry ∈ timedRun D events, entry.after.Armed ∧ entry.after.OnTime

instance (events : List TimedEvent) : Decidable (Punctual D events) :=
  inferInstanceAs (Decidable (∀ entry ∈ timedRun D events, entry.after.Armed ∧ entry.after.OnTime))

/-- A frame is admitted that is not before `earliest_vtime`, but before the time for which the timer is
armed. -/
def Skipped (entry : Entry (Clocked D) TimedEvent (Option (Ordered (Arrived β)))) : Prop :=
  ∃ p ∈ entry.output, D.earliestVtime entry.before.device ≤ p.vtime ∧
    isExpired (D.rxTimer entry.before.device) p.vtime.toNat = false

instance (entry : Entry (Clocked D) TimedEvent (Option (Ordered (Arrived β)))) :
    Decidable (Skipped entry) :=
  inferInstanceAs (Decidable (∃ p ∈ entry.output, _ ∧ _))

/-- The delivery times in the run are below `2^63`. -/
def SmallTimes (D : TimedDevice β) (events : List TimedEvent) : Prop :=
  ∀ entry ∈ timedRun D events, ∀ p ∈ entry.output, p.vtime.toNat < 2 ^ 63

instance (events : List TimedEvent) : Decidable (SmallTimes D events) :=
  inferInstanceAs (Decidable (∀ entry ∈ timedRun D events, ∀ p ∈ entry.output, _ < _))

/-! ## The invariant -/

/-- What holds while no frame is skipped. -/
structure Timely (Inv : D.State → Prop) (c : Clocked D) : Prop where
  inv : Inv c.device
  small : ∀ p ∈ D.pending c.device, p.vtime.toNat < 2 ^ 63
  /-- `earliest_vtime` is a lower bound, not always the minimum. -/
  earliest_le : ∀ p ∈ D.pending c.device, D.earliestVtime c.device ≤ p.vtime
  armed : c.Armed
  arrived : ∀ p ∈ D.pending c.device, p.body.time ≤ c.now
  onTime : c.OnTime

variable {Inv : D.State → Prop}

theorem timely_start (hD : D.Lawful Inv) : Timely Inv (Clocked.start D) := by
  have hnone : ∀ p, p ∉ D.pending (Clocked.start D).device := by
    intro p
    rw [Clocked.start, hD.pending_initial]
    exact Multiset.notMem_zero p
  refine ⟨hD.inv_initial, fun p hp => absurd hp (hnone p), fun p hp => absurd hp (hnone p),
    fun p hp => absurd hp (hnone p), fun p hp => absurd hp (hnone p), ?_,
    fun p hp => absurd hp (hnone p)⟩
  intro entry hentry
  rw [Clocked.start, hD.delivered_initial] at hentry
  exact absurd hentry not_mem_nil

variable {now : ℕ}

theorem isExpired_expiryOf {vtime : UInt64} (hsmall : vtime.toNat < 2 ^ 63) :
    isExpired (some (expiryOf vtime)) now = true ↔ vtime.toNat ≤ now := by
  rw [expiryOf_of_lt hsmall]
  exact decide_eq_true_iff

variable {c : Clocked D}

/-- The clock goes on to a time that no armed frame has passed. -/
theorem Timely.tick (h : Timely Inv c) {time : ℕ} (htime : c.mayReach time = true) :
    Timely Inv { c with now := time } := by
  obtain ⟨hnow, htimer⟩ := (Bool.and_eq_true _ _).mp htime
  have hlt : c.now < time := of_decide_eq_true hnow
  refine ⟨h.inv, h.small, h.earliest_le, h.armed, fun p hp => ?_, h.onTime.delivered, fun p hp => ?_⟩
  · exact (h.arrived p hp).trans (le_of_lt hlt)
  · -- the expiry lies between the new time and the delivery time
    have harmed := h.armed p hp
    cases hexpiry : D.rxTimer c.device with
    | none =>
      rw [hexpiry] at harmed
      cases harmed
    | some e =>
      rw [hexpiry] at htimer harmed
      have hle : time ≤ e := of_decide_eq_true htimer
      have hdue : e ≤ p.vtime.toNat := of_decide_eq_true harmed
      exact (hle.trans hdue).trans (le_max_right _ _)

/-- A message arrives, and no frame is admitted. -/
theorem Timely.refused (h : Timely Inv c) {device : D.State} (hinv : Inv device)
    (hreceives : D.Receives c.now c.device (device, none)) : Timely Inv { c with device := device } := by
  obtain ⟨hpending, hearliest, htimer⟩ := hreceives.refused rfl
  dsimp only at hpending hearliest htimer
  refine ⟨hinv, ?_, ?_, ?_, ?_, ?_, ?_⟩
  · exact hpending ▸ h.small
  · rw [hpending, hearliest]
    exact h.earliest_le
  · unfold Clocked.Armed
    rw [hpending, htimer]
    exact h.armed
  · exact hpending ▸ h.arrived
  · rw [hreceives.delivered]
    exact h.onTime.delivered
  · rw [hpending]
    exact h.onTime.pending

/-- A frame is admitted and not skipped. -/
theorem Timely.admitted (h : Timely Inv c) {device : D.State} {p : Ordered (Arrived β)} (hinv : Inv device)
    (hreceives : D.Receives c.now c.device (device, some p)) (hsmall : p.vtime.toNat < 2 ^ 63)
    (hseen : D.earliestVtime c.device ≤ p.vtime → isExpired (D.rxTimer c.device) p.vtime.toNat = true) :
    Timely Inv { c with device := device } := by
  obtain ⟨htime, hpending⟩ := hreceives.admitted p rfl
  have hearlier := hreceives.earlier p rfl
  have hlater := hreceives.later p rfl
  dsimp only at hpending hearlier hlater
  refine ⟨hinv, ?_, ?_, ?_, ?_, ?_, ?_⟩
  · rw [hpending]
    exact Multiset.forall_mem_cons.mpr ⟨hsmall, h.small⟩
  · rw [hpending]
    by_cases hlt : p.vtime < D.earliestVtime c.device
    · rw [(hearlier hlt).1]
      refine Multiset.forall_mem_cons.mpr ⟨UInt64.le_refl _, fun q hq => ?_⟩
      exact UInt64.le_trans (UInt64.le_of_lt hlt) (h.earliest_le q hq)
    · rw [(hlater hlt).1]
      exact Multiset.forall_mem_cons.mpr ⟨UInt64.not_lt.mp hlt, h.earliest_le⟩
  · unfold Clocked.Armed
    rw [hpending]
    by_cases hlt : p.vtime < D.earliestVtime c.device
    · -- the timer is set for this frame, which is before all others
      rw [(hearlier hlt).2]
      refine Multiset.forall_mem_cons.mpr
        ⟨(isExpired_expiryOf hsmall).mpr (le_refl _), fun q hq => ?_⟩
      refine (isExpired_expiryOf hsmall).mpr (UInt64.le_iff_toNat_le.mp ?_)
      exact UInt64.le_trans (UInt64.le_of_lt hlt) (h.earliest_le q hq)
    · rw [(hlater hlt).2]
      exact Multiset.forall_mem_cons.mpr ⟨hseen (UInt64.not_lt.mp hlt), h.armed⟩
  · rw [hpending]
    exact Multiset.forall_mem_cons.mpr ⟨le_of_eq htime, h.arrived⟩
  · rw [hreceives.delivered]
    exact h.onTime.delivered
  · rw [hpending]
    refine Multiset.forall_mem_cons.mpr ⟨?_, h.onTime.pending⟩
    exact htime ▸ le_max_left _ _

/-- A message arrives, and its frame is not skipped. -/
theorem Timely.receive (hD : D.Lawful Inv) (h : Timely Inv c) {data : List UInt8}
    (hsmall : ∀ p, (D.receive c.now data c.device).2 = some p → p.vtime.toNat < 2 ^ 63)
    (hseen : ∀ p, (D.receive c.now data c.device).2 = some p →
      D.earliestVtime c.device ≤ p.vtime → isExpired (D.rxTimer c.device) p.vtime.toNat = true) :
    Timely Inv { c with device := (D.receive c.now data c.device).1 } := by
  have hinv := hD.inv_receive c.now data h.inv
  have hreceives := hD.receives c.now data h.inv
  cases hresult : D.receive c.now data c.device with
  | mk device output =>
    rw [hresult] at hinv hreceives hsmall hseen
    cases output with
    | none => exact h.refused hinv hreceives
    | some p => exact h.admitted hinv hreceives (hsmall p rfl) (hseen p rfl)

/-- The timer fires. -/
theorem Timely.fire (hD : D.Lawful Inv) (h : Timely Inv c) :
    Timely Inv { c with device := D.fire c.now c.device } := by
  obtain ⟨batch, hdelivered, hbatch, hpending, hrearmed⟩ :=
    hD.fires c.now h.inv
  have hleft : ∀ p ∈ D.pending (D.fire c.now c.device),
      p ∈ D.pending c.device ∧ c.now < p.vtime.toNat := by
    intro p hp
    rw [hpending, Multiset.mem_filter, Ordered.isDue_eq_false_iff] at hp
    exact hp
  -- a frame that is left keeps the timer armed
  have hne : ∀ p ∈ D.pending (D.fire c.now c.device), D.pending (D.fire c.now c.device) ≠ 0 := by
    intro p hp hzero
    rw [hzero] at hp
    exact Multiset.notMem_zero p hp
  refine ⟨hD.inv_fire c.now h.inv, fun p hp => h.small p (hleft p hp).1, fun p hp => ?_,
    fun p hp => ?_, fun p hp => h.arrived p (hleft p hp).1, ?_,
    fun p hp => ?_⟩
  · rw [(hrearmed (hne p hp)).1]
    exact h.earliest_le p (hleft p hp).1
  · obtain ⟨-, q, hq, htimer, hmin⟩ := hrearmed (hne p hp)
    rw [htimer, isExpired_expiryOf (h.small q (hleft q hq).1)]
    exact hmin p hp
  · intro entry hentry
    rw [hdelivered, mem_append, mem_map] at hentry
    rcases hentry with hold | ⟨p, hp, rfl⟩
    · exact h.onTime.delivered entry hold
    · have hdue : p ∈ (↑batch : Multiset (Ordered (Arrived β))) := Multiset.mem_coe.mpr hp
      rw [hbatch, Multiset.mem_filter, Ordered.isDue_iff] at hdue
      have harrived := h.arrived p hdue.1
      have hinTime := h.onTime.pending p hdue.1
      exact le_antisymm hinTime (max_le harrived hdue.2)
  · exact (le_of_lt (hleft p hp).2).trans (le_max_right _ _)

/-! ## Runs -/

theorem timely_finalState (hD : D.Lawful Inv) {events : List TimedEvent}
    (hsmall : SmallTimes D events) (hseen : ∀ entry ∈ timedRun D events, ¬ Skipped entry) :
    Timely Inv (finalState (timedStep D) (Clocked.start D) events) := by
  induction events using reverseRecOn with
  | nil => exact timely_start hD
  | append_singleton events event ih =>
    unfold SmallTimes at hsmall ih
    unfold timedRun at hsmall hseen ih
    rw [entries_concat] at hsmall hseen
    have hbefore := ih (fun entry he => hsmall entry (mem_append_left _ he))
      (fun entry he => hseen entry (mem_append_left _ he))
    have hsmall' := hsmall _ (mem_append_right _ (mem_singleton_self _))
    have hseen' := hseen _ (mem_append_right _ (mem_singleton_self _))
    rw [finalState_concat]
    generalize finalState (timedStep D) (Clocked.start D) events = c at hbefore hsmall' hseen'
    cases event with
    | message data =>
      refine hbefore.receive hD hsmall' fun p hp hle => ?_
      by_contra hexpired
      exact hseen' ⟨p, hp, hle, Bool.eq_false_iff.mpr hexpired⟩
    | tick time =>
      rw [timedStep]
      dsimp only
      split
      · rename_i htime
        exact hbefore.tick htime
      · exact hbefore
    | fire =>
      rw [timedStep]
      dsimp only
      split
      · exact hbefore.fire hD
      · exact hbefore

/-- A frame that is skipped is pending before the time for which the timer is armed. -/
theorem not_armed_of_skipped (hD : D.Lawful Inv) (hinv : Inv c.device)
    {event : TimedEvent} (h : Skipped (entryAt (timedStep D) c event)) :
    ¬ (timedStep D c event).1.Armed := by
  obtain ⟨p, hout, hle, hexpired⟩ := h
  cases event with
  | message data =>
    obtain ⟨-, -, hadmitted, -, hlater⟩ := hD.receives c.now data hinv
    intro harmed
    have hp := harmed p (by
      rw [timedStep, (hadmitted p hout).2]
      exact Multiset.mem_cons_self p _)
    rw [timedStep, (hlater p hout (UInt64.not_lt.mpr hle)).2] at hp
    exact absurd hp (Bool.eq_false_iff.mp hexpired)
  | tick time | fire => cases hout

theorem inv_finalState (hD : D.Lawful Inv) (events : List TimedEvent) :
    Inv (finalState (timedStep D) (Clocked.start D) events).device := by
  refine finalState_invariant (P := fun c => Inv c.device) (timedStep D) ?_ hD.inv_initial events
  intro c event h
  cases event with
  | message data => exact hD.inv_receive c.now data h
  | tick time =>
    rw [timedStep]
    dsimp only
    split <;> exact h
  | fire =>
    rw [timedStep]
    dsimp only
    split
    · exact hD.inv_fire c.now h
    · exact h

/-- **When a device is punctual**: exactly if no frame is skipped. -/
theorem punctual_iff (hD : D.Lawful Inv) {events : List TimedEvent} (hsmall : SmallTimes D events) :
    Punctual D events ↔ ∀ entry ∈ timedRun D events, ¬ Skipped entry := by
  constructor
  · intro h entry hentry hskipped
    have harmed := (h entry hentry).1
    obtain ⟨pre, event, post, rfl, rfl⟩ := (mem_entries _).mp hentry
    exact not_armed_of_skipped hD (inv_finalState hD pre) hskipped harmed
  · intro h entry hentry
    obtain ⟨pre, event, post, rfl, rfl⟩ := (mem_entries _).mp hentry
    have hsub : ∀ e ∈ timedRun D (pre ++ [event]), e ∈ timedRun D (pre ++ event :: post) := by
      intro e he
      unfold timedRun at he ⊢
      rw [append_cons, entries_append]
      exact mem_append_left _ he
    have htimely := timely_finalState hD (fun e he => hsmall e (hsub e he))
      (fun e he => h e (hsub e he))
    rw [entryAt_after, ← finalState_concat]
    exact ⟨htimely.armed, htimely.onTime⟩

/-! ## The two devices -/

/-- The timer is armed for the first packet that is left. -/
theorem nextExpiry_eq {H : Heap β} {heap : H.Carrier} (timer : Option ℕ) (h : H.items heap ≠ 0) :
    ∃ p ∈ H.items heap, nextExpiry H heap timer = some (expiryOf p.vtime) ∧
      ∀ q ∈ H.items heap, p.vtime.toNat ≤ q.vtime.toNat := by
  unfold nextExpiry
  cases hpop : H.pop heap with
  | none => exact absurd (H.items_of_pop_none hpop) h
  | some taken =>
    obtain ⟨p, rest⟩ := taken
    rw [H.items_of_pop_some hpop]
    refine ⟨p, Multiset.mem_cons_self p _, rfl, Multiset.forall_mem_cons.mpr ⟨le_refl _, ?_⟩⟩
    exact fun q hq => Ordered.vtime_le_of_key_le (H.key_le_of_pop_some hpop q hq)

/-- `netdev` with a guest that always accepts. -/
def netdevDevice (H : Heap (Arrived (List UInt8))) (maxBacklog : UInt64) :
    TimedDevice (List UInt8) where
  State := Netdev.State H
  initial := Netdev.initial H
  pending s := ↑s.channel + H.items s.heap
  delivered s := s.handed
  earliestVtime s := s.earliestVtime
  rxTimer s := s.rxTimer
  receive now data s :=
    (Netdev.subCallback maxBacklog now data s,
      if s.admits maxBacklog then Netdev.packetOf s.received now data else none)
  fire now s := Netdev.rxTimerCb Netdev.accepting now { s with rxTimer := none }

/-- `canfd`, whatever the bus does. -/
def canfdDevice (H : Heap (Arrived Canfd.QemuCanFrame)) (fb : Devices.Flatbuffers)
    (bus : ℕ → List Canfd.BusCall) : TimedDevice Canfd.QemuCanFrame where
  State := Canfd.State H
  initial := Canfd.initial H
  pending s := ↑s.channel + H.items s.localHeap.inner
  delivered s := s.sent
  earliestVtime s := s.earliestVtime
  rxTimer s := s.rxTimer
  receive now data s :=
    (Canfd.subCallback fb now data s, Canfd.packetOf fb s.received now data)
  -- no assertion fails, so there is a next state
  fire now s := (Canfd.rxTimerCb bus now { s with rxTimer := none }).getD s

theorem coe_concat_add {α : Type*} (l : List α) (a : α) (m : Multiset α) :
    (↑(l ++ [a]) : Multiset α) + m = a ::ₘ (↑l + m) := by
  rw [← Multiset.coe_add, Multiset.coe_singleton, add_right_comm, add_comm, Multiset.singleton_add]

theorem coe_add_of_eq_nil {α : Type*} {l : List α} (h : l = []) (m : Multiset α) :
    (↑l : Multiset α) + m = m := by
  rw [h, Multiset.coe_nil, zero_add]

/-- A frame that is not admitted changes nothing that matters here. -/
theorem TimedDevice.Receives.refuse {s t : D.State}
    (hdelivered : D.delivered t = D.delivered s) (hpending : D.pending t = D.pending s)
    (hearliest : D.earliestVtime t = D.earliestVtime s) (htimer : D.rxTimer t = D.rxTimer s) :
    D.Receives now s (t, none) where
  delivered := hdelivered
  refused _ := ⟨hpending, hearliest, htimer⟩
  admitted p h := absurd h.symm (Option.some_ne_none p)
  earlier p h := absurd h.symm (Option.some_ne_none p)
  later p h := absurd h.symm (Option.some_ne_none p)

theorem TimedDevice.Receives.enqueue {s t : D.State} {p : Ordered (Arrived β)}
    (hdelivered : D.delivered t = D.delivered s) (htime : p.body.time = now)
    (hpending : D.pending t = p ::ₘ D.pending s) (hearliest : D.earliestVtime t =
      if p.vtime < D.earliestVtime s then p.vtime else D.earliestVtime s) (htimer : D.rxTimer t =
      if p.vtime < D.earliestVtime s then some (expiryOf p.vtime) else D.rxTimer s) :
    D.Receives now s (t, some p) where
  delivered := hdelivered
  refused h := absurd h (Option.some_ne_none p)
  admitted := by
    rintro q ⟨⟩
    exact ⟨htime, hpending⟩
  earlier := by
    rintro q ⟨⟩ hlt
    exact ⟨hearliest.trans (if_pos hlt), htimer.trans (if_pos hlt)⟩
  later := by
    rintro q ⟨⟩ hlt
    exact ⟨hearliest.trans (if_neg hlt), htimer.trans (if_neg hlt)⟩

/-- A callback that leaves the frames that are not due in the heap. -/
theorem TimedDevice.Fires.of_heap {batch : List (Ordered (Arrived β))} {s t : D.State}
    {H : Heap (Arrived β)} {heap : H.Carrier} {timer : Option ℕ}
    (hdelivered : D.delivered t = D.delivered s ++ batch.map (·, now))
    (hbatch : (batch : Multiset _) = (D.pending s).filter (Ordered.isDue now · = true))
    (hheap : H.items heap = (D.pending s).filter (Ordered.isDue now · = false))
    (hpending : D.pending t = H.items heap) (htimer : D.rxTimer t = nextExpiry H heap timer)
    (hearliest : D.earliestVtime t = if H.isEmpty heap then maxVtime else D.earliestVtime s) :
    D.Fires now batch s t where
  delivered := hdelivered
  batch_eq := hbatch
  pending := hpending.trans hheap
  rearmed h := by
    rw [hpending] at h ⊢
    refine ⟨hearliest.trans (if_neg fun hempty => h ((H.isEmpty_iff heap).mp hempty)), ?_⟩
    rw [htimer]
    exact nextExpiry_eq timer h

theorem netdevDevice_receive_cases (H : Heap (Arrived (List UInt8))) (maxBacklog : UInt64) (now : ℕ)
    (data : List UInt8) (s : Netdev.State H) :
    ((Netdev.subCallback maxBacklog now data s).backlog = s.backlog) ∧
      (netdevDevice H maxBacklog).Receives now s ((netdevDevice H maxBacklog).receive now data s) := by
  unfold netdevDevice Netdev.subCallback
  dsimp only
  cases hpacket : Netdev.packetOf s.received now data with
  | none =>
    refine ⟨rfl, ?_⟩
    rw [ite_self]
    exact TimedDevice.Receives.refuse rfl rfl rfl rfl
  | some p =>
    obtain ⟨header, -, hp⟩ := Option.map_eq_some_iff.mp hpacket
    have htime : p.body.time = now := by rw [← hp]
    dsimp only
    have hsame : ({ s with received := s.received + 1 } : Netdev.State H).admits maxBacklog =
      s.admits maxBacklog := rfl
    rw [hsame]
    by_cases hadmits : s.admits maxBacklog = true
    · rw [if_pos hadmits, if_pos hadmits, Netdev.State.enqueue_eq]
      exact ⟨rfl, TimedDevice.Receives.enqueue rfl htime (coe_concat_add _ _ _) rfl rfl⟩
    · rw [if_neg hadmits, if_neg hadmits]
      exact ⟨rfl, TimedDevice.Receives.refuse rfl rfl rfl rfl⟩

theorem netdevDevice_lawful (H : Heap (Arrived (List UInt8))) (maxBacklog : UInt64) :
    (netdevDevice H maxBacklog).Lawful fun s => Netdev.State.backlog s = [] where
  inv_initial := rfl
  pending_initial := by simp [netdevDevice, Netdev.initial]
  delivered_initial := rfl
  inv_receive now data s h := (netdevDevice_receive_cases H maxBacklog now data s).1.trans h
  receives now data s _ := (netdevDevice_receive_cases H maxBacklog now data s).2
  inv_fire now s h := by
    obtain ⟨batch, hdelivers⟩ :=
      Netdev.rxTimerCb_accepting now (s := { (s : Netdev.State H) with rxTimer := none }) h
    exact hdelivers.backlog
  fires now s h := by
    obtain ⟨batch, hdelivers⟩ :=
      Netdev.rxTimerCb_accepting now (s := { (s : Netdev.State H) with rxTimer := none }) h
    exact ⟨batch, TimedDevice.Fires.of_heap hdelivers.handed hdelivers.batch_eq hdelivers.items_eq
      (coe_add_of_eq_nil hdelivers.channel _) hdelivers.rxTimer hdelivers.earliestVtime⟩

variable (H : Heap (Arrived Canfd.QemuCanFrame))

theorem canfdDevice_receives (fb : Devices.Flatbuffers)
    (bus : ℕ → List Canfd.BusCall) (now : ℕ) (data : List UInt8) (s : Canfd.State H) :
    (canfdDevice H fb bus).Receives now s ((canfdDevice H fb bus).receive now data s) := by
  unfold canfdDevice Canfd.subCallback
  dsimp only
  cases hpacket : Canfd.packetOf fb s.received now data with
  | none => exact TimedDevice.Receives.refuse rfl rfl rfl rfl
  | some p =>
    obtain ⟨table, -, hp⟩ := Option.map_eq_some_iff.mp hpacket
    have htime : p.body.time = now := by rw [← hp]
    dsimp only
    rw [Canfd.State.enqueue_eq]
    exact TimedDevice.Receives.enqueue rfl htime (coe_concat_add _ _ _) rfl rfl

/-- The timer callback of `canfd` succeeds. -/
theorem canfdDevice_fire (fb : Devices.Flatbuffers)
    (bus : ℕ → List Canfd.BusCall) (now : ℕ) {s : Canfd.State H} (h : Canfd.Idle s) :
    Canfd.Idle ((canfdDevice H fb bus).fire now s) ∧
      ∃ batch, (canfdDevice H fb bus).Fires now batch s ((canfdDevice H fb bus).fire now s) := by
  have hdisarmed : Canfd.Idle { s with rxTimer := none } := ⟨h.localHeap, h.backlog⟩
  obtain ⟨t, batch, ht, hdelivers, hrearms⟩ := Canfd.rxTimerCb_eq bus now hdisarmed
  have hfire : (canfdDevice H fb bus).fire now s = t := by
    change (Canfd.rxTimerCb bus now { s with rxTimer := none }).getD s = t
    rw [ht, Option.getD_some]
  rw [hfire]
  exact ⟨hdelivers.idle, batch, TimedDevice.Fires.of_heap hdelivers.sent hdelivers.batch_eq
    hdelivers.items_eq (coe_add_of_eq_nil hdelivers.channel _) hrearms.rxTimer
    hrearms.earliestVtime⟩

theorem canfdDevice_lawful (fb : Devices.Flatbuffers)
    (bus : ℕ → List Canfd.BusCall) : (canfdDevice H fb bus).Lawful Canfd.Idle where
  inv_initial := ⟨rfl, rfl⟩
  pending_initial := by simp [canfdDevice, Canfd.initial, Qom.BqlGuarded.new]
  delivered_initial := rfl
  inv_receive now data s h := by
    change Canfd.Idle (Canfd.subCallback fb now data s)
    unfold Canfd.subCallback
    split
    · exact h
    · rw [Canfd.State.enqueue_eq]
      exact ⟨h.localHeap, h.backlog⟩
  receives now data s _ := canfdDevice_receives H fb bus now data s
  inv_fire now s h := (canfdDevice_fire H fb bus now h).1
  fires now s h := (canfdDevice_fire H fb bus now h).2

/-- **`netdev` and `canfd` deliver on time exactly if no frame is skipped.** -/
theorem devices_punctual_iff (HN : Heap (Arrived (List UInt8))) (maxBacklog : UInt64)
    (HC : Heap (Arrived Canfd.QemuCanFrame)) (fb : Devices.Flatbuffers)
    (bus : ℕ → List Canfd.BusCall) (eventsN eventsC : List TimedEvent)
    (hnetdev : SmallTimes (netdevDevice HN maxBacklog) eventsN)
    (hcanfd : SmallTimes (canfdDevice HC fb bus) eventsC) : (Punctual (netdevDevice HN maxBacklog) eventsN ↔
        ∀ entry ∈ timedRun (netdevDevice HN maxBacklog) eventsN, ¬ Skipped entry) ∧
      (Punctual (canfdDevice HC fb bus) eventsC ↔
        ∀ entry ∈ timedRun (canfdDevice HC fb bus) eventsC, ¬ Skipped entry) :=
  ⟨punctual_iff (netdevDevice_lawful HN maxBacklog) hnetdev,
    punctual_iff (canfdDevice_lawful HC fb bus) hcanfd⟩

/-! ## A frame that comes late to a device that waits -/

/-- A message for `netdev`. -/
def netdevMessage (vtime : UInt64) : List UInt8 := DeterministicCoordinator.encodeFrame vtime 0 []

/-- A message for `canfd`, in the layout of `plainFlatbuffers`. -/
def canfdMessage (vtime : UInt64) : List UInt8 := leBytes 8 vtime.toNat ++ List.replicate 16 0

/-- Frames for 100 and 200 arrive at the start; when the first has been delivered, one for `vtime`
arrives at 110. -/
def lateArrival (message : UInt64 → List UInt8) (vtime : UInt64) : List TimedEvent :=
  [.message (message 100), .message (message 200), .tick 100, .fire, .tick 110,
    .message (message vtime), .tick 200, .fire, .tick vtime.toNat, .fire]

/-- A network card whose heap is a list. -/
def plainNetdev : TimedDevice (List UInt8) := netdevDevice (listQueue Ordered.key) 256

/-- A CAN controller; with each frame the bus asks whether it can receive. -/
def plainCanfd : TimedDevice Canfd.QemuCanFrame :=
  canfdDevice (listQueue Ordered.key) Devices.plainFlatbuffers fun _ => [.canReceive]

/-- A frame for 250 is not skipped, and all are on time. -/
theorem devices_punctual_iff_250 : Punctual plainNetdev (lateArrival netdevMessage 250) ∧
      Punctual plainCanfd (lateArrival canfdMessage 250) := by
  have hiff := devices_punctual_iff (listQueue Ordered.key) 256 (listQueue Ordered.key)
    Devices.plainFlatbuffers (fun _ => [.canReceive]) (lateArrival netdevMessage 250)
    (lateArrival canfdMessage 250) (by decide +kernel) (by decide +kernel)
  exact ⟨hiff.1.mpr (by decide +kernel), hiff.2.mpr (by decide +kernel)⟩

/-- **A frame for 150 is delivered at 200**, by both devices. -/
theorem not_punctual_150 : ¬ Punctual plainNetdev (lateArrival netdevMessage 150) ∧
      ¬ Punctual plainCanfd (lateArrival canfdMessage 150) ∧
      (Netdev.State.handed (finalState (timedStep plainNetdev) (Clocked.start plainNetdev)
        (lateArrival netdevMessage 150)).device).map (fun entry => (entry.1.vtime, entry.2)) =
          [(100, 100), (150, 200), (200, 200)] ∧
      (Canfd.State.sent (finalState (timedStep plainCanfd) (Clocked.start plainCanfd)
        (lateArrival canfdMessage 150)).device).map (fun entry => (entry.1.vtime, entry.2)) =
          [(100, 100), (150, 200), (200, 200)] := by
  decide +kernel

end Virtmcu.Comms
