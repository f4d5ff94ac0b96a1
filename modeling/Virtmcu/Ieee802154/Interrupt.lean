import Virtmcu.Ieee802154.Queue

/-! # The interrupt line of the radio

The line is raised where a bit of the status register is set, and lowered where the receive bit is found
clear after a write of the register. Two things are missing for the line to follow the register: the reset
clears both bits and leaves the line alone, and the write lowers the line although the transmit-done bit
may still be set. Apart from these two the line follows (`mirrors_status_iff`). -/

namespace Virtmcu.Ieee802154

open Comms Devices Option

variable {fb : Flatbuffers} {search : BinarySearch (ℕ ×ₗ ℕ)} {s t : State}

/-- One of the two bits is set. -/
def State.pending (s : State) : Bool := hasBit s.status statusRx || hasBit s.status statusDone

/-- The line is high exactly if one of the two bits is set. -/
def Mirrors (s : State) : Prop := s.irq = s.pending

/-- It depends on the line and the status register only. -/
theorem Mirrors.of_eq (h : Mirrors s) (hirq : t.irq = s.irq) (hstatus : t.status = s.status) :
    Mirrors t := by
  rw [Mirrors, State.pending, hirq, hstatus]
  exact h

/-- All is low at the start. -/
theorem mirrors_initial (nodeId : UInt32) : Mirrors (initial nodeId) := by
  change false = (hasBit 0 statusRx || hasBit 0 statusDone)
  decide

/-! ## What keeps them together -/

/-- A frame that is delivered raises both. -/
theorem Mirrors.checkRxQueue (h : Mirrors s) (ht : checkRxQueue s = some t) : Mirrors t := by
  obtain ⟨_, _, _, _, _, _, delivers, rfl⟩ := checkRxQueue_changes ht
  cases delivers with
  | false => exact h.of_eq rfl rfl
  | true =>
    simp only [Mirrors, State.pending, if_true, hasBit_or]
    rw [show hasBit statusRx statusRx = true by decide, Bool.or_true, Bool.true_or]
    rfl

/-- The end of a transmission raises both. -/
theorem mirrors_finishTx (s : State) : Mirrors (finishTx s) := by
  simp only [Mirrors, State.pending, finishTx, hasBit_or]
  rw [show hasBit statusDone statusDone = true by decide, Bool.or_true, Bool.or_true]

/-- A backoff that ends in a transmission or gives up. -/
theorem Mirrors.backoffTimerCb (h : Mirrors s) (ht : backoffTimerCb s = some t) : Mirrors t := by
  unfold Ieee802154.backoffTimerCb at ht
  split at ht
  next =>
    split at ht
    next => exact Option.some.inj ht ▸ mirrors_finishTx _
    next => exact Option.some.inj ht ▸ h.of_eq rfl rfl
  next =>
    obtain ⟨payload, -, rfl⟩ := map_eq_some_iff.mp ht
    exact h.of_eq rfl rfl

/-- Everything but the writes and the reset keeps the line right. -/
theorem Mirrors.step (h : Mirrors s) (hinv : Inv s) {event : Event}
    (hwrite : ∀ offset value, event ≠ .write offset value) (hreset : event ≠ .reset) :
    Mirrors (step fb search s event).1 := by
  have hstep := stepChecked_eq_step fb search event hinv
  generalize (Ieee802154.step fb search s event).1 = t at hstep
  cases event with
  | tick time =>
    simp only [stepChecked] at hstep
    split at hstep <;> exact Option.some.inj hstep ▸ h.of_eq rfl rfl
  | read offset =>
    obtain ⟨rxReadPos, rfl⟩ := read_changes hstep
    exact h.of_eq rfl rfl
  | write offset value => exact absurd rfl (hwrite offset value)
  | frame data =>
    obtain ⟨_, _, _, _, _, rfl⟩ := onRxFrame_changes hstep
    exact h.of_eq rfl rfl
  | rxTimer =>
    simp only [stepChecked] at hstep
    split at hstep
    · have hfired : Mirrors { s with rxTimer := none } := h.of_eq rfl rfl
      exact hfired.checkRxQueue hstep
    · exact Option.some.inj hstep ▸ h
  | backoffTimer =>
    simp only [stepChecked] at hstep
    split at hstep
    · have hfired : Mirrors { s with backoffTimer := none } := h.of_eq rfl rfl
      exact hfired.backoffTimerCb hstep
    · exact Option.some.inj hstep ▸ h
  | ackTimer =>
    simp only [stepChecked, Option.some.injEq] at hstep
    subst hstep
    unfold ackTimerCb
    split
    · split <;> exact h.of_eq rfl rfl
    · exact h
  | txTimer =>
    simp only [stepChecked, Option.some.injEq] at hstep
    subst hstep
    split
    · exact mirrors_finishTx _
    · exact h
  | reset => exact absurd rfl hreset

/-- The transmit command leaves both alone. -/
theorem line_txGo (s : State) : (txGo s).irq = s.irq ∧ (txGo s).status = s.status := by
  unfold txGo
  split <;> exact ⟨rfl, rfl⟩

/-- So does a write of the state register. -/
theorem line_writeState (value : UInt64) (s : State) :
    (writeState value s).irq = s.irq ∧ (writeState value s).status = s.status := by
  unfold writeState
  split
  case h_4 => exact line_txGo s
  case h_5 =>
    split
    · exact line_txGo s
    · exact ⟨rfl, rfl⟩
  all_goals exact ⟨rfl, rfl⟩

/-- The other registers have nothing to do with the line. -/
theorem line_write {offset value : UInt64} (hregister : registerAt offset ≠ .status)
    (ht : write offset value s = some t) : t.irq = s.irq ∧ t.status = s.status := by
  unfold write at ht
  split at ht
  case h_1 =>
    unfold loadByte at ht
    split at ht
    · obtain ⟨fifo, -, rfl⟩ := map_eq_some_iff.mp ht
      exact ⟨rfl, rfl⟩
    · exact Option.some.inj ht ▸ ⟨rfl, rfl⟩
  case h_3 => exact Option.some.inj ht ▸ line_txGo s
  case h_4 hstatus => exact absurd hstatus hregister
  case h_5 => exact Option.some.inj ht ▸ line_writeState value s
  all_goals exact Option.some.inj ht ▸ ⟨rfl, rfl⟩

/-! ## What drives them apart -/

/-- The next frame of the queue is due. -/
def State.HasDue (s : State) : Prop := ∃ f ∈ s.rxQueue.head?, f.deliveryVtime.toNat ≤ s.now

/-- A reset finds no bit set, and a write of the status register does not leave the done bit alone: the receive
bit stays too, or the next frame sets it again. -/
def LeavesLine (entry : Entry State Event Unit) : Prop :=
  match entry.input with
  | .reset => entry.before.pending = false
  | .write offset value => registerAt offset = .status →
      hasBit (entry.before.status &&& ~~~value.toUInt32) statusDone = true →
        hasBit (entry.before.status &&& ~~~value.toUInt32) statusRx = true ∨ entry.before.HasDue
  | _ => True

/-- A reset clears the register, and the line stays. -/
theorem mirrors_reset_iff (h : Mirrors s) : Mirrors (reset s) ↔ s.pending = false := by
  have hcleared : (reset s).pending = false := by
    change (hasBit 0 statusRx || hasBit 0 statusDone) = false
    decide
  rw [Mirrors, hcleared, ← h]
  exact Iff.rfl

/-- Clearing bits lowers the line unless the receive bit stays or is set again. -/
theorem mirrors_clearStatus_iff {value : UInt64} (h : Mirrors s) (ht : clearStatus value s = some t) :
    Mirrors t ↔ (hasBit (s.status &&& ~~~value.toUInt32) statusDone = true →
      hasBit (s.status &&& ~~~value.toUInt32) statusRx = true ∨ s.HasDue) := by
  unfold clearStatus at ht
  dsimp only at ht
  split at ht
  next hbit =>
    -- the receive bit was set before as well, so that the line is high
    have hline : s.irq = true := by
      rw [h, State.pending, hasBit_of_hasBit_clear hbit, Bool.true_or]
    obtain rfl := Option.some.inj ht
    refine iff_of_true ?_ fun _ => .inl hbit
    simp only [Mirrors, State.pending, hline, hbit, Bool.true_or]
  next hbit =>
    unfold checkRxQueue at ht
    dsimp only at ht
    split at ht
    next hqueue =>
      obtain rfl := Option.some.inj ht
      simp [Mirrors, State.pending, hbit, State.HasDue, hqueue]
    next f rest hqueue =>
      split at ht
      next hdue =>
        -- the next frame is delivered at once, and the line is high again
        obtain ⟨bytes, -, hcopied⟩ := Option.bind_eq_some_iff.mp ht
        obtain ⟨fifo, -, rfl⟩ := Option.map_eq_some_iff.mp hcopied
        refine iff_of_true ?_ fun _ => .inr ⟨f, by rw [hqueue]; rfl, hdue⟩
        simp only [Mirrors, State.pending, hasBit_or, show hasBit statusRx statusRx = true by decide,
          Bool.or_true, Bool.true_or]
      next hlate =>
        obtain rfl := Option.some.inj ht
        simp [Mirrors, State.pending, hbit, State.HasDue, hqueue, hlate]

/-- **What each event does to the line.** -/
theorem mirrors_step_iff (hinv : Inv s) (event : Event) (h : Mirrors s) :
    Mirrors (step fb search s event).1 ↔ LeavesLine (entryAt (step fb search) s event) := by
  have hstep := stepChecked_eq_step fb search event hinv
  simp only [LeavesLine, entryAt_before, entryAt_input]
  cases event with
  | write offset value =>
    dsimp only
    generalize (step fb search s (.write offset value)).1 = t at hstep
    by_cases hregister : registerAt offset = .status
    · have hclear : clearStatus value s = some t := by
        simpa only [stepChecked, write, hregister] using hstep
      rw [mirrors_clearStatus_iff h hclear]
      exact ⟨fun hall _ => hall, fun hall => hall hregister⟩
    · obtain ⟨hirq, hstatus⟩ := line_write hregister hstep
      exact iff_of_true (h.of_eq hirq hstatus) fun hyes => absurd hyes hregister
  | reset => exact Option.some.inj hstep ▸ mirrors_reset_iff h
  | tick time | read offset | frame data | rxTimer | backoffTimer | ackTimer | txTimer =>
    exact iff_of_true (h.step hinv (by simp) (by simp)) trivial

/-- **The line follows the status register all along exactly if no event drives them apart.** -/
theorem mirrors_status_iff (fb : Flatbuffers) (search : BinarySearch (ℕ ×ₗ ℕ)) (nodeId : UInt32)
    (events : List Event) :
    (∀ entry ∈ entries (step fb search) (initial nodeId) events, Mirrors entry.after) ↔
      ∀ entry ∈ entries (step fb search) (initial nodeId) events, LeavesLine entry :=
  forall_entries_iff (step fb search) (I := Inv) (fun _ event h => h.step fb search event)
    (fun _ event hinv h => mirrors_step_iff hinv event h) (inv_initial nodeId) (mirrors_initial nodeId)
    events

/-- An empty frame is transmitted. -/
def transmitting : List Event :=
  [.write 0x08 0, .tick 10000000, .backoffTimer, .tick 20000000, .txTimer]

/-- The transmission is done and the line is high. A write of zero, which clears nothing, lowers the line;
a reset clears the bit, and the line stays high. -/
theorem not_mirrors_done : ¬ Mirrors (finalState (step plainFlatbuffers (linearSearch _)) (initial 0)
        (transmitting ++ [.write 0x14 0])) ∧
      ¬ Mirrors (finalState (step plainFlatbuffers (linearSearch _)) (initial 0)
        (transmitting ++ [.reset])) := by
  unfold Mirrors
  decide +kernel

end Virtmcu.Ieee802154
