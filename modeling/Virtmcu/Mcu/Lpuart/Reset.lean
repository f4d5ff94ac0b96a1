import Virtmcu.Mcu.Lpuart.Flags

/-! # What a reset of the LPUART forgets

`lpuart_reset` clears the registers, the buffers, the timers and `earliest_vtime`, and leaves the channel, the
heap and the interrupt line as they are. A frame that waits there is not lost: as soon as a later frame arms
the timer again, the callback takes it with the others, or is armed for it (`not_forgets_oldByte`). Even a
frame that carries nothing has the callback run once more, and that recomputes the line.

What a device does after a reset is compared with what it would do if none of the frames from before had
come. The two agree, whatever comes, if nothing waits at the reset and the line is where it would be without
them (`reset_forgets_of_settled`). The frames from after the reset are delivered in time in any case
(`delivers_step`). -/

namespace Virtmcu.Mcu.Lpuart

open Devices Comms List

variable {H : LinHeap}

/-! ## Before and after -/

/-- The device after a reset, with the frames that were received since and that wait. -/
structure Aftermath (H : LinHeap) where
  device : State H
  fresh : Multiset OrderedLinFrame

/-- The moment of the reset. -/
def Aftermath.start (s : State H) : Aftermath H := ⟨lpuartReset s, 0⟩

/-- Which of these frames still wait after an event: the callback takes those that are due. -/
def leftBy (s : State H) (event : Event) (frames : Multiset OrderedLinFrame) : Multiset OrderedLinFrame :=
  match event with
  | .rxTimer now =>
      if isExpired s.rxTimer now then frames.filter (OrderedLinFrame.isDue now · = false) else frames
  | _ => frames

def aftermathStep (fb : Flatbuffers) (a : Aftermath H) (event : Event) : Aftermath H × Option UInt32 :=
  (⟨(step fb a.device event).1, arrivedBy fb event + leftBy a.device event a.fresh⟩,
    (step fb a.device event).2)

/-- What an event says of the clock; it is an `i64` that is not negative. -/
def Event.clock : Event → ℕ
  | .write now _ _ => now
  | .txTimer now => now
  | .rxTimer now => now
  | _ => 0

/-- An event up to the next reset. -/
def Event.Follows (event : Event) : Prop := event ≠ .reset ∧ event.clock < 2 ^ 63

instance (event : Event) : Decidable event.Follows := inferInstanceAs (Decidable (_ ∧ _))

/-- The interrupt line, the registers and the buffers. -/
def State.visible (s : State H) : Bool × List UInt32 × List UInt8 × List UInt8 :=
  (s.irq, [s.baud, s.stat, s.ctrl, s.match_, s.modir, s.fifo, s.water], s.rxBuffer, s.txFifo)

def Event.isMessage : Event → Bool
  | .message _ => true
  | _ => false

/-- Where the past leads. -/
def stateAfter (fb : Flatbuffers) (H : LinHeap) (past : List Event) : State H :=
  finalState (step fb) (initial H) past

/-- Where it would lead without the frames. -/
def withoutFrames (fb : Flatbuffers) (H : LinHeap) (past : List Event) : State H :=
  stateAfter fb H (past.filter (!·.isMessage))

/-- The frames from after the reset: the timer is armed no later than any of them, and a timer event at its
time or later handles it. -/
structure Delivers (entry : Entry (Aftermath H) Event (Option UInt32)) : Prop where
  armed : ∀ p ∈ entry.after.fresh, p.vtime.toNat < 2 ^ 63 →
    ∃ expiry, entry.after.device.rxTimer = some expiry ∧ expiry ≤ p.vtime.toNat
  handled : ∀ now, entry.input = .rxTimer now → ∀ p ∈ entry.before.fresh, p.vtime.toNat ≤ now →
    p ∈ handledBy entry.before.device entry.input

/-! ## After the reset -/

/-- What holds after a reset, up to the next one. -/
structure Aftermath.Sound (a : Aftermath H) : Prop where
  waiting : ∀ p ∈ a.fresh, p ∈ a.device.waiting
  earliest : ∀ p ∈ a.fresh, a.device.earliestVtime.toNat ≤ p.vtime.toNat
  armed : a.device.earliestVtime ≠ maxVtime →
    a.device.rxTimer = some (expiryOf a.device.earliestVtime)

theorem sound_start (s : State H) : (Aftermath.start s).Sound where
  waiting := fun p hp => absurd hp (Multiset.notMem_zero p)
  earliest := fun p hp => absurd hp (Multiset.notMem_zero p)
  armed := fun hne => absurd rfl hne

variable {a : Aftermath H}

theorem AfterRx.sound {now : ℕ} {t : State H} (ha : a.Sound) (h : AfterRx now a.device t) :
    (⟨t, a.fresh.filter (OrderedLinFrame.isDue now · = false)⟩ : Aftermath H).Sound := by
  have hwaiting : ∀ p ∈ a.fresh.filter (OrderedLinFrame.isDue now · = false), p ∈ t.waiting := by
    intro p hp
    obtain ⟨hfresh, hdue⟩ := Multiset.mem_filter.mp hp
    rw [h.waiting]
    exact Multiset.mem_filter.mpr ⟨ha.waiting p hfresh, hdue⟩
  exact ⟨hwaiting, fun p hp => h.least.le p (hwaiting p hp),
    fun hne => h.armed fun hzero => hne (h.least.none hzero)⟩

theorem AfterFrame.sound {t : State H} (ha : a.Sound)
    (h : AfterFrame p a.device t) : (⟨t, {p} + a.fresh⟩ : Aftermath H).Sound := by
  have hwaiting : ∀ q ∈ {p} + a.fresh, q ∈ t.waiting := by
    intro q hq
    rw [h.waiting]
    rcases Multiset.mem_cons.mp (Multiset.singleton_add p _ ▸ hq) with rfl | hq
    · exact Multiset.mem_cons_self q _
    · exact Multiset.mem_cons_of_mem (ha.waiting q hq)
  by_cases hlt : p.vtime < a.device.earliestVtime
  · obtain ⟨hearliest, htimer⟩ := h.earlier hlt
    refine ⟨hwaiting, fun q hq => ?_, fun _ => by rw [htimer, hearliest]⟩
    rw [hearliest]
    rcases Multiset.mem_cons.mp (Multiset.singleton_add p _ ▸ hq) with rfl | hq
    · exact le_rfl
    · exact (UInt64.lt_iff_toNat_lt.mp hlt).le.trans (ha.earliest q hq)
  · obtain ⟨hearliest, htimer⟩ := h.later hlt
    refine ⟨hwaiting, fun q hq => ?_, fun hne => ?_⟩
    · rw [hearliest]
      rcases Multiset.mem_cons.mp (Multiset.singleton_add p _ ▸ hq) with rfl | hq
      · exact not_lt.mp fun hq => hlt (UInt64.lt_iff_toNat_lt.mpr hq)
      · exact ha.earliest q hq
    · rw [htimer, hearliest]
      exact ha.armed (hearliest ▸ hne)

theorem KeepsRx.sound {a : Aftermath H} {t : State H} (ha : a.Sound) (h : KeepsRx a.device t) :
    (⟨t, a.fresh⟩ : Aftermath H).Sound where
  waiting := h.waiting ▸ ha.waiting
  earliest := h.earliestVtime ▸ ha.earliest
  armed := by
    rw [h.earliestVtime, h.rxTimer]
    exact ha.armed

theorem sound_step (fb : Flatbuffers) {event : Event} (ha : a.Sound)
    (hevent : event ≠ .reset) : (aftermathStep fb a event).1.Sound := by
  cases event with
  | rxTimer now =>
    show (⟨_, 0 + leftBy a.device (.rxTimer now) a.fresh⟩ : Aftermath H).Sound
    rw [zero_add]
    by_cases hexpired : isExpired a.device.rxTimer now = true
    · rw [leftBy, if_pos hexpired]
      exact (afterRx_step fb hexpired).sound ha
    · rw [leftBy, if_neg hexpired, step_rxTimer_of_not_expired fb (Bool.eq_false_iff.mpr hexpired)]
      exact ha
  | message data =>
    show (⟨subCallback fb data a.device, (frameOf fb data).toList + a.fresh⟩ : Aftermath H).Sound
    cases hframe : frameOf fb data with
    | none =>
      rw [subCallback_of_none _ hframe, Option.toList_none, Multiset.coe_nil, zero_add]
      exact ha
    | some p => exact (afterFrame_subCallback a.device hframe).sound ha
  | reset => exact absurd rfl hevent
  | _ =>
    have h := (keepsRx_step fb a.device hevent nofun nofun).sound ha
    rwa [← zero_add a.fresh] at h

/-- A frame from after the reset has the timer armed for its time, or an earlier one. -/
theorem Aftermath.Sound.timer (ha : a.Sound) (hp : p ∈ a.fresh) (hlt : p.vtime.toNat < 2 ^ 63) :
    ∃ expiry, a.device.rxTimer = some expiry ∧ expiry ≤ p.vtime.toNat := by
  have hle := ha.earliest p hp
  refine ⟨_, ha.armed fun hmax => ?_, (expiryOf_le _).trans hle⟩
  rw [hmax] at hle
  exact absurd (hle.trans_lt hlt) (by decide)

/-- **What comes after the reset is delivered in time**, whatever is left from before. -/
theorem delivers_step (fb : Flatbuffers) {event : Event} (ha : a.Sound)
    (hevent : event.Follows) : Delivers (entryAt (aftermathStep fb) a event) where
  armed := fun p hp hlt => (sound_step fb ha hevent.1).timer hp hlt
  handled := by
    rintro now hnow p hp hdue
    have hinput : event = .rxTimer now := hnow
    subst hinput
    obtain ⟨expiry, htimer, hexpiry⟩ := ha.timer hp (hdue.trans_lt hevent.2)
    have hexpired : isExpired a.device.rxTimer now = true :=
      isExpired_iff.mpr ⟨expiry, htimer, hexpiry.trans hdue⟩
    show p ∈ handledBy a.device (.rxTimer now)
    rw [handledBy, if_pos hexpired, mem_dueAt]
    exact ⟨ha.waiting p hp, hdue⟩

/-! ## Where nothing waits -/

/-- What waits after an event waited before, or has arrived. -/
theorem mem_waiting_step (fb : Flatbuffers) (s : State H) (event : Event)
    (hp : p ∈ (step fb s event).1.waiting) : p ∈ s.waiting ∨ p ∈ arrivedBy fb event := by
  by_cases hreset : event = .reset
  · -- the reset keeps both the channel and the heap
    subst hreset
    exact .inl hp
  cases event with
  | reset => exact absurd rfl hreset
  | rxTimer now =>
    left
    by_cases hexpired : isExpired s.rxTimer now = true
    · rw [(afterRx_step fb hexpired).waiting] at hp
      exact Multiset.mem_of_mem_filter hp
    · rwa [step_rxTimer_of_not_expired fb (Bool.eq_false_iff.mpr hexpired)] at hp
  | message data =>
    have hp : p ∈ (subCallback fb data s).waiting := hp
    cases hframe : frameOf fb data with
    | none =>
      rw [subCallback_of_none _ hframe] at hp
      exact .inl hp
    | some q =>
      rw [(afterFrame_subCallback s hframe).waiting] at hp
      rw [arrivedBy, hframe, Option.toList_some, mem_singleton]
      exact (Multiset.mem_cons.mp hp).symm
  | _ =>
    rw [(keepsRx_step fb s hreset (fun _ => Event.noConfusion) fun _ => Event.noConfusion).waiting] at hp
    exact .inl hp

/-- Without frames nothing waits. -/
theorem waiting_withoutFrames (fb : Flatbuffers) (past : List Event) :
    (withoutFrames fb H past).waiting = 0 := by
  refine (entries_of_inputs (step fb) (P := fun s : State H => s.waiting = 0) (R := fun _ => True)
    (Q := fun event => event.isMessage = false) ?_ ?_ ?_).1
  · refine fun s event hevent hs => ⟨Multiset.eq_zero_iff_forall_notMem.mpr fun p hp => ?_, trivial⟩
    rcases mem_waiting_step fb s event hp with hp | hp
    · exact absurd (hs ▸ hp) (Multiset.notMem_zero p)
    · cases event with
      | message data => cases hevent
      | _ => exact absurd hp not_mem_nil
  · show H.items H.empty + 0 = 0
    rw [H.items_empty, add_zero]
  · exact fun event hevent => by simpa using (List.mem_filter.mp hevent).2

/-- What belongs to the transmitter. -/
def State.tx (s : State H) : UInt32 × UInt32 × List UInt8 × Option ℕ × List LinFrame :=
  (s.baud, s.ctrl, s.txFifo, s.txTimer, s.published)

/-- Frames that are received leave it alone. -/
theorem tx_rxTimer (fb : Flatbuffers) (now : ℕ) (s : State H) : (step fb s (.rxTimer now)).1.tx = s.tx := by
  cases hexpired : isExpired s.rxTimer now with
  | false => rw [step_rxTimer_of_not_expired fb hexpired]
  | true =>
    have h := afterRx_step fb hexpired
    simp only [State.tx, h.baud, h.ctrl, h.txFifo, h.txTimer, h.published]

theorem tx_message (fb : Flatbuffers) (data : List UInt8) (s : State H) :
    (step fb s (.message data)).1.tx = s.tx := by
  simp only [step, subCallback]
  cases fb.linFrame data with
  | none => rfl
  | some frame => dsimp only; split <;> rfl

/-- It does not depend on what is received. -/
theorem tx_step (fb : Flatbuffers) {s t : State H} (h : s.tx = t.tx) (event : Event) :
    (step fb s event).1.tx = (step fb t event).1.tx := by
  cases event with
  | rxTimer now => rw [tx_rxTimer, tx_rxTimer, h]
  | message data => rw [tx_message, tx_message, h]
  | reset => simp_all [State.tx, step, lpuartReset]
  | read offset =>
    have hread (s : State H) : (step fb s (.read offset)).1.tx = s.tx := by
      simp only [step, lpuartRead, readData]
      cases registerAt offset with
      | data => dsimp only; split <;> rfl
      | _ => rfl
    rw [hread, hread, h]
  | write now offset value =>
    simp only [State.tx, Prod.mk.injEq] at h ⊢
    simp only [step, lpuartWrite, writeCtrl, writeData, updateIrqs, sendLinMsg]
    cases registerAt offset <;> grind
  | txTimer now =>
    simp only [State.tx, Prod.mk.injEq] at h ⊢
    simp only [step, lpuartTxTimerCb, sendByte, updateIrqs, sendLinMsg]
    grind

theorem tx_withoutFrames (fb : Flatbuffers) (past : List Event) :
    (withoutFrames fb H past).tx = (stateAfter fb H past).tx := by
  unfold withoutFrames stateAfter
  induction past using List.reverseRecOn with
  | nil => rfl
  | append_singleton past event ih =>
    rw [List.filter_append, finalState_concat]
    cases event with
    | message data =>
      rw [List.filter_singleton, finalState_append, tx_message]
      exact ih
    | _ =>
      rw [List.filter_singleton, finalState_append]
      exact tx_step fb ih _

/-- A device in which nothing waits is the one to which nothing came, once it is reset. -/
theorem reset_eq (fb : Flatbuffers) (hempty : ∀ q : H.Carrier, H.items q = 0 → q = H.empty)
    {past : List Event} (hwaiting : (stateAfter fb H past).waiting = 0)
    (hirq : (stateAfter fb H past).irq = (withoutFrames fb H past).irq) :
    lpuartReset (stateAfter fb H past) = lpuartReset (withoutFrames fb H past) := by
  have hnone {s : State H} (h : s.waiting = 0) : s.channel = [] ∧ s.heap = H.empty := by
    obtain ⟨hheap, hchannel⟩ := (add_eq_zero_iff_of_nonneg (Multiset.zero_le _) (Multiset.zero_le _)).mp h
    exact ⟨(Multiset.coe_eq_zero _).mp hchannel, hempty _ hheap⟩
  obtain ⟨hchannel, hheap⟩ := hnone hwaiting
  obtain ⟨hchannel', hheap'⟩ := hnone (waiting_withoutFrames (H := H) fb past)
  have hpublished : (withoutFrames fb H past).published = (stateAfter fb H past).published :=
    congrArg (fun tx => tx.2.2.2.2) (tx_withoutFrames (H := H) fb past)
  simp only [lpuartReset, hchannel, hheap, hchannel', hheap', hpublished, hirq]

/-! ## When a reset forgets -/

/-- **When a reset forgets the past**: if nothing waits and the line is where it would be without the frames.
What comes after the reset is delivered in time in any case. -/
theorem reset_forgets_of_settled (fb : Flatbuffers)
    (hempty : ∀ q : H.Carrier, H.items q = 0 → q = H.empty) (past future : List Event)
    (hfuture : ∀ event ∈ future, event.Follows) :
    ((stateAfter fb H past).waiting = 0 → (stateAfter fb H past).irq = (withoutFrames fb H past).irq →
        (finalState (step fb) (lpuartReset (stateAfter fb H past)) future).visible =
          (finalState (step fb) (lpuartReset (withoutFrames fb H past)) future).visible) ∧
      ∀ entry ∈ entries (aftermathStep fb) (Aftermath.start (stateAfter fb H past)) future,
        Delivers entry := by
  constructor
  · intro hwaiting hirq
    rw [reset_eq fb hempty hwaiting hirq]
  · exact (entries_of_inputs (aftermathStep fb) (P := Aftermath.Sound)
      (fun a event hevent ha => ⟨sound_step fb ha hevent.1, delivers_step fb ha hevent⟩)
      (sound_start _) hfuture).2

/-- A byte arrives and waits for its time. -/
def oldByte : List Event := [.message (leBytes 8 200 ++ [0, 65])]

/-- The driver turns the receiver and its interrupt on, a break arrives and the timer fires for it. -/
def newBreak : List Event :=
  [.write 210 0x18 0x240000, .message (leBytes 8 300 ++ [1]), .rxTimer 300]

/-- Once its time has come, a reset forgets the byte. -/
theorem reset_forgets_handled : (finalState (step plainFlatbuffers)
        (lpuartReset (stateAfter plainFlatbuffers plainHeap (oldByte ++ [.rxTimer 200]))) newBreak).visible =
      (finalState (step plainFlatbuffers)
        (lpuartReset (withoutFrames plainFlatbuffers plainHeap (oldByte ++ [.rxTimer 200])))
        newBreak).visible := by
  have hwaiting : (stateAfter plainFlatbuffers plainHeap (oldByte ++ [.rxTimer 200])).waiting = 0 := by
    decide +kernel
  refine (reset_forgets_of_settled (H := plainHeap) plainFlatbuffers
    (fun q hq => (Multiset.coe_eq_zero q).mp hq) _ newBreak (by decide +kernel)).1 hwaiting ?_
  decide +kernel

/-- **A byte from before the reset is received after it**, and raises the interrupt. Without it the same
events leave the buffer empty and the line down. -/
theorem not_forgets_oldByte : let run := finalState (step plainFlatbuffers) (initial plainHeap)
    (run (oldByte ++ .reset :: newBreak)).rxBuffer = [65] ∧
      (run (oldByte ++ .reset :: newBreak)).irq = true ∧
      (run (.reset :: newBreak)).rxBuffer = [] ∧ (run (.reset :: newBreak)).irq = false ∧
      ¬ ∀ future : List Event, (∀ event ∈ future, event.Follows) →
        (finalState (step plainFlatbuffers)
            (lpuartReset (stateAfter plainFlatbuffers plainHeap oldByte)) future).visible =
          (finalState (step plainFlatbuffers)
            (lpuartReset (withoutFrames plainFlatbuffers plainHeap oldByte)) future).visible := by
  refine ⟨by decide +kernel, by decide +kernel, by decide +kernel, by decide +kernel, fun hall => ?_⟩
  exact absurd (hall newBreak (by decide +kernel)) (by decide +kernel)

end Virtmcu.Mcu.Lpuart
