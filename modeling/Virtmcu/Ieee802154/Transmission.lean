import Virtmcu.Ieee802154.Queue

/-! # Transmissions of the radio

A transmit command arms the backoff timer, its callback publishes the frame and arms the airtime timer, and
that one's callback ends the transmission. None of the callbacks looks at the state of the radio, and
neither a write of the state register nor one of the FIFO or its length has any regard for a transmission
under way. A guest that leaves the radio alone until the transmission is done gets what it asked for
(`transmits_of_undisturbed`); one that does not can see a frame published in `Idle`, other bytes than it
had loaded, or its new transmission ended by the old one (`not_transmits_abandoned`). -/

namespace Virtmcu.Ieee802154

open Comms Devices List Option

variable {fb : Flatbuffers} {search : BinarySearch (ℕ ×ₗ ℕ)} {s t : State}

/-! ## The transmit side -/

/-- The data frames that were published. -/
def State.dataFrames (s : State) : List Published := s.published.filter fun p => decide (p.kind = .data)

/-- What a transmission is about. -/
structure SameTx (s t : State) : Prop where
  state : t.state = s.state
  txFifo : t.txFifo = s.txFifo
  txLen : t.txLen = s.txLen
  nb : t.nb = s.nb
  backoffTimer : t.backoffTimer = s.backoffTimer
  txTimer : t.txTimer = s.txTimer
  loaded : t.loaded = s.loaded
  transmission : t.transmission = s.transmission
  airing : t.airing = s.airing
  dataFrames : t.dataFrames = s.dataFrames

theorem SameTx.refl (s : State) : SameTx s s := ⟨rfl, rfl, rfl, rfl, rfl, rfl, rfl, rfl, rfl, rfl⟩

theorem sameTx_checkRxQueue (h : checkRxQueue s = some t) : SameTx s t := by
  obtain ⟨_, _, _, _, _, _, _, rfl⟩ := checkRxQueue_changes h
  exact { SameTx.refl s with }

/-- An acknowledgement is not a data frame. -/
theorem sameTx_ackTimerCb (s : State) : SameTx s (ackTimerCb s) := by
  unfold ackTimerCb
  split
  · refine { SameTx.refl s with dataFrames := ?_ }
    simp [State.dataFrames, filter_append]
  · exact .refl s

/-- The events that belong to reception, and the clock. -/
def Event.isPassive : Event → Bool
  | .tick _ | .read _ | .frame _ | .rxTimer | .ackTimer => true
  | _ => false

theorem sameTx_of_isPassive {event : Event} (hpassive : event.isPassive = true)
    (hstep : stepChecked fb search s event = some t) : SameTx s t := by
  cases event with
  | tick time =>
    simp only [stepChecked, Option.some.injEq] at hstep
    subst hstep
    split
    · exact { SameTx.refl s with }
    · exact .refl s
  | read offset =>
    obtain ⟨rxReadPos, rfl⟩ := read_changes hstep
    exact { SameTx.refl s with }
  | frame data =>
    obtain ⟨_, _, _, _, _, rfl⟩ := onRxFrame_changes hstep
    exact { SameTx.refl s with }
  | rxTimer =>
    simp only [stepChecked] at hstep
    split at hstep
    · have hsame := sameTx_checkRxQueue hstep
      exact { hsame with }
    · exact Option.some.inj hstep ▸ .refl s
  | ackTimer =>
    simp only [stepChecked, Option.some.injEq] at hstep
    subst hstep
    split
    · have hsame := sameTx_ackTimerCb { s with ackTimer := none }
      exact { hsame with }
    · exact .refl s
  | write offset value | backoffTimer | txTimer | reset => cases hpassive

/-! ## Writes -/

/-- A write that loads a byte, changes the length or switches to another state. -/
def Reconfigures (offset value : UInt64) (s : State) : Prop :=
  registerAt offset = .txData ∧ s.txLen < 128 ∨
    registerAt offset = .txLen ∧ (value &&& 0x7F).toNat ≠ s.txLen ∨
    registerAt offset = .state ∧ value.toNat < 3

instance (offset value : UInt64) (s : State) : Decidable (Reconfigures offset value s) :=
  inferInstanceAs (Decidable (_ ∨ _))

/-- A write that does so while a transmission is under way. -/
def Disturbs (entry : Entry State Event Unit) : Prop :=
  match entry.input with
  | .write offset value => entry.before.state = .tx ∧ Reconfigures offset value entry.before
  | _ => False

/-- A transmit command that has an effect. -/
def started (s : State) : State :=
  scheduleBackoff
    { s with
      nb := 0
      be := macMinBe
      state := .tx
      loaded := s.txFifo.take s.txLen
      transmission := s.transmission + 1 }

theorem txGo_eq (s : State) : txGo s = if s.state = .tx then s else started s := rfl

/-- What a write can do: start a transmission, load a frame, switch to another state, or something that
has nothing to do with the transmit side. -/
theorem write_changes {offset value : UInt64} (h : write offset value s = some t) :
    SameTx s t ∨ (s.state ≠ .tx ∧ t = started s) ∨
      (∃ txFifo txLen, t = { s with txFifo := txFifo, txLen := txLen } ∧
        (Reconfigures offset value s ∨ txFifo = s.txFifo ∧ txLen = s.txLen)) ∨
      ∃ state, Reconfigures offset value s ∧ t = { s with state := state } := by
  have hgo : SameTx s (txGo s) ∨ s.state ≠ .tx ∧ txGo s = started s := by
    rw [txGo_eq]
    split
    next => exact .inl (.refl s)
    next hidle => exact .inr ⟨hidle, rfl⟩
  unfold write at h
  split at h
  case h_1 hregister =>
    unfold loadByte at h
    split at h
    · rename_i hroom
      obtain ⟨fifo, -, rfl⟩ := map_eq_some_iff.mp h
      exact .inr (.inr (.inl ⟨_, _, rfl, .inl (.inl ⟨hregister, hroom⟩)⟩))
    · exact .inl (Option.some.inj h ▸ .refl s)
  case h_2 hregister =>
    refine .inr (.inr (.inl ⟨s.txFifo, _, (Option.some.inj h).symm, ?_⟩))
    by_cases hlen : (value &&& 0x7F).toNat = s.txLen
    · exact .inr ⟨rfl, hlen⟩
    · exact .inl (.inr (.inl ⟨hregister, hlen⟩))
  -- the transmit command
  case h_3 =>
    obtain rfl := Option.some.inj h
    exact hgo.imp id .inl
  -- the status register, where a frame may be delivered
  case h_4 =>
    left
    unfold clearStatus at h
    dsimp only at h
    split at h
    · exact Option.some.inj h ▸ { SameTx.refl s with }
    · have hsame := sameTx_checkRxQueue h
      exact { hsame with }
  case h_5 hregister =>
    obtain rfl := Option.some.inj h
    have hswitch (hlt : value.toNat < 3) : Reconfigures offset value s := .inr (.inr ⟨hregister, hlt⟩)
    unfold writeState
    split
    · exact .inr (.inr (.inr ⟨.off, hswitch (by omega), rfl⟩))
    · exact .inr (.inr (.inr ⟨.idle, hswitch (by omega), rfl⟩))
    · exact .inr (.inr (.inr ⟨.rx, hswitch (by omega), rfl⟩))
    · exact hgo.imp id .inl
    · split
      · exact hgo.imp id .inl
      · exact .inl (.refl s)
  all_goals exact .inl (Option.some.inj h ▸ { SameTx.refl s with })

/-! ## Callbacks -/

/-- The frame that is published if the channel is free. -/
def State.frame (s : State) : Published := ⟨.data, s.now.toUInt64, s.txSequence, s.txFifo.take s.txLen⟩

/-- The channel was busy too often. -/
def givenUp (s : State) : State := finishTx { s with backoffTimer := none, nb := s.nb + 1 }

/-- The channel was busy. -/
def backedOff (s : State) : State :=
  scheduleBackoff { s with backoffTimer := none, nb := s.nb + 1, be := min (s.be + 1) macMaxBe }

/-- The channel was free: the frame is on the air. -/
def aired (s : State) : State :=
  { s with
    backoffTimer := none
    txSequence := s.txSequence + 1
    published := s.published ++ [s.frame]
    txTimer := some (expiryOf (s.now.toUInt64 + ((6 + s.txLen) * 32000).toUInt64))
    airing := s.transmission }

theorem dataFrames_aired (s : State) : (aired s).dataFrames = s.dataFrames ++ [s.frame] := by
  simp [aired, State.dataFrames, State.frame, filter_append]

/-- What the backoff timer does when it fires. -/
theorem step_backoffTimer (fb : Flatbuffers) (search : BinarySearch (ℕ ×ₗ ℕ)) (hinv : Inv s)
    (hexpired : isExpired s.backoffTimer s.now = true) :
    (macMaxCsmaBackoffs < s.nb + 1 ∧ (step fb search s .backoffTimer).1 = givenUp s) ∨
      (s.nb + 1 ≤ macMaxCsmaBackoffs ∧ (step fb search s .backoffTimer).1 = backedOff s) ∨
      (step fb search s .backoffTimer).1 = aired s := by
  have hslice : slice s.txFifo 0 s.txLen = some (s.txFifo.take s.txLen) :=
    slice_zero (by rw [hinv.bounds.length_txFifo]; exact hinv.bounds.txLen_le)
  simp only [step, stepChecked, hexpired, if_true, backoffTimerCb, txReal, hslice, map_some]
  split
  next =>
    split
    next hlast => exact .inl ⟨hlast, rfl⟩
    next hmore => exact .inr (.inl ⟨not_lt.mp hmore, rfl⟩)
  next => exact .inr (.inr rfl)

theorem step_backoffTimer_of_not (hexpired : isExpired s.backoffTimer s.now = false) :
    (step fb search s .backoffTimer).1 = s := by
  simp [step, stepChecked, hexpired]

/-! ## A guest that leaves the transmission alone -/

/-- A timer runs only for the transmission under way, and what is in the FIFO is what was loaded for it. -/
structure Attended (s : State) : Prop where
  inv : Inv s
  backoff : s.backoffTimer.isSome → s.state = .tx ∧ s.txTimer = none ∧ s.loaded = s.txFifo.take s.txLen
  airtime : s.txTimer.isSome → s.state = .tx ∧ s.airing = s.transmission

theorem attended_initial (nodeId : UInt32) : Attended (initial nodeId) :=
  ⟨inv_initial nodeId, (fun h => nomatch h), fun h => nomatch h⟩

/-- Outside `Tx` no timer of the transmit side runs. -/
theorem Attended.timers_none (h : Attended s) (hstate : s.state ≠ .tx) :
    s.backoffTimer = none ∧ s.txTimer = none := by
  constructor
  · rw [← not_isSome_iff_eq_none]
    exact fun hsome => hstate (h.backoff hsome).1
  · rw [← not_isSome_iff_eq_none]
    exact fun hsome => hstate (h.airtime hsome).1

/-- With no timer running there is nothing to attend to. -/
theorem Attended.of_none (hinv : Inv t) (hbackoff : t.backoffTimer = none) (hair : t.txTimer = none) :
    Attended t := by
  refine ⟨hinv, fun hsome => ?_, fun hsome => ?_⟩
  · rw [hbackoff] at hsome
    cases hsome
  · rw [hair] at hsome
    cases hsome

theorem SameTx.attended (hsame : SameTx s t) (h : Attended s) (hinv : Inv t) : Attended t := by
  refine ⟨hinv, ?_, ?_⟩
  · rw [hsame.backoffTimer, hsame.state, hsame.txTimer, hsame.loaded, hsame.txFifo, hsame.txLen]
    exact h.backoff
  · rw [hsame.txTimer, hsame.state, hsame.airing, hsame.transmission]
    exact h.airtime

/-- A write that does not disturb. -/
theorem Attended.write (h : Attended s) {offset value : UInt64} (hinv : Inv t)
    (hstep : write offset value s = some t)
    (hquiet : s.state = .tx → ¬ Reconfigures offset value s) : Attended t := by
  by_cases hstate : s.state = .tx
  · -- a transmission is under way: what the write changes is none of its parts
    rcases write_changes hstep with hsame | ⟨hidle, -⟩ | ⟨_, _, rfl, hload⟩ | ⟨_, hswitch, rfl⟩
    · exact hsame.attended h hinv
    · exact absurd hstate hidle
    · obtain ⟨rfl, rfl⟩ := hload.resolve_left (hquiet hstate)
      exact h
    · exact absurd hswitch (hquiet hstate)
  · -- no timer runs, and a transmission may begin
    obtain ⟨hbackoff, hair⟩ := h.timers_none hstate
    rcases write_changes hstep with hsame | ⟨-, rfl⟩ | ⟨_, _, rfl, -⟩ | ⟨_, -, rfl⟩
    · exact hsame.attended h hinv
    · refine ⟨hinv, fun _ => ⟨rfl, hair, rfl⟩, fun hsome => ?_⟩
      change s.txTimer.isSome = true at hsome
      rw [hair] at hsome
      cases hsome
    · exact .of_none hinv hbackoff hair
    · exact .of_none hinv hbackoff hair

theorem Attended.backoffTimer (h : Attended s) : Attended (step fb search s .backoffTimer).1 := by
  have hinv := h.inv.step fb search .backoffTimer
  cases hexpired : isExpired s.backoffTimer s.now with
  | false =>
    rw [step_backoffTimer_of_not hexpired]
    exact h
  | true =>
    obtain ⟨expiry, htimer, -⟩ := isExpired_iff.mp hexpired
    obtain ⟨hstate, hair, hloaded⟩ := h.backoff (by rw [htimer]; rfl)
    rcases step_backoffTimer fb search h.inv hexpired with ⟨-, heq⟩ | ⟨-, heq⟩ | heq
    all_goals rw [heq] at hinv ⊢
    · exact .of_none hinv rfl hair
    · -- the same transmission waits for its next backoff
      refine ⟨hinv, fun _ => ⟨hstate, hair, hloaded⟩, fun hsome => ?_⟩
      change s.txTimer.isSome = true at hsome
      rw [hair] at hsome
      cases hsome
    · exact ⟨hinv, (fun hsome => nomatch hsome), fun _ => ⟨hstate, rfl⟩⟩

theorem Attended.step (h : Attended s) (event : Event)
    (hquiet : ¬ Disturbs (entryAt (step fb search) s event)) : Attended (step fb search s event).1 := by
  by_cases hevent : event = .backoffTimer
  · subst hevent
    exact h.backoffTimer
  have hinv := h.inv.step fb search event
  have hstep := stepChecked_eq_step fb search event h.inv
  generalize (Ieee802154.step fb search s event).1 = t at hinv hstep
  cases event with
  | write offset value => exact h.write hinv hstep fun hstate hchange => hquiet ⟨hstate, hchange⟩
  | backoffTimer => exact absurd rfl hevent
  | txTimer =>
    simp only [stepChecked, Option.some.injEq] at hstep
    split at hstep
    next hexpired =>
      subst hstep
      obtain ⟨expiry, htimer, -⟩ := isExpired_iff.mp hexpired
      refine .of_none hinv ?_ rfl
      -- the backoff of this transmission is over
      rw [← not_isSome_iff_eq_none]
      intro hsome
      obtain ⟨-, hnone, -⟩ := h.backoff hsome
      rw [hnone] at htimer
      cases htimer
    next => exact hstep ▸ h
  | reset => exact Option.some.inj hstep ▸ .of_none (inv_reset h.inv) rfl rfl
  | tick time | read offset | frame data | rxTimer | ackTimer =>
    exact (sameTx_of_isPassive rfl hstep).attended h hinv

/-! ## What is published -/

/-- Only the backoff timer publishes data. -/
theorem dataFrames_step (hinv : Inv s) {event : Event} (hevent : event ≠ .backoffTimer) :
    (step fb search s event).1.dataFrames = s.dataFrames := by
  have hstep := stepChecked_eq_step fb search event hinv
  generalize (step fb search s event).1 = t at hstep
  cases event with
  | write offset value =>
    rcases write_changes hstep with hsame | ⟨-, rfl⟩ | ⟨_, _, rfl, -⟩ | ⟨_, -, rfl⟩
    exacts [hsame.dataFrames, rfl, rfl, rfl]
  | backoffTimer => exact absurd rfl hevent
  | txTimer =>
    simp only [stepChecked, Option.some.injEq] at hstep
    subst hstep
    split <;> rfl
  | reset => exact Option.some.inj hstep ▸ rfl
  | tick time | read offset | frame data | rxTimer | ackTimer =>
    exact (sameTx_of_isPassive rfl hstep).dataFrames

/-- A data frame is published in `Tx` only and carries what was loaded; a callback that ends a transmission
or goes on with it is of the one under way. -/
structure Transmits (entry : Entry State Event Unit) : Prop where
  published : ∀ f, entry.after.dataFrames = entry.before.dataFrames ++ [f] →
    entry.before.state = .tx ∧ f.payload = entry.before.loaded
  backoff : entry.input = .backoffTimer →
    isExpired entry.before.backoffTimer entry.before.now = true → entry.before.state = .tx
  airtime : entry.input = .txTimer → isExpired entry.before.txTimer entry.before.now = true →
    entry.before.state = .tx ∧ entry.before.airing = entry.before.transmission

theorem ne_append_singleton {α : Type*} (l : List α) (a : α) : l ≠ l ++ [a] := by
  intro h
  have hlength := congrArg List.length h
  simp at hlength

theorem Attended.payload_eq (h : Attended s) {f : Published}
    (hf : (Ieee802154.step fb search s .backoffTimer).1.dataFrames = s.dataFrames ++ [f]) :
    s.state = .tx ∧ f.payload = s.loaded := by
  cases hexpired : isExpired s.backoffTimer s.now with
  | false =>
    rw [step_backoffTimer_of_not hexpired] at hf
    exact absurd hf (ne_append_singleton _ f)
  | true =>
    obtain ⟨expiry, htimer, -⟩ := isExpired_iff.mp hexpired
    obtain ⟨hstate, -, hloaded⟩ := h.backoff (by rw [htimer]; rfl)
    rcases step_backoffTimer fb search h.inv hexpired with ⟨-, heq⟩ | ⟨-, heq⟩ | heq
    all_goals rw [heq] at hf
    · exact absurd hf (ne_append_singleton _ f)
    · exact absurd hf (ne_append_singleton _ f)
    · rw [dataFrames_aired] at hf
      obtain rfl := singleton_inj.mp (append_cancel_left hf)
      exact ⟨hstate, hloaded.symm⟩

theorem Attended.transmits (h : Attended s) (event : Event) :
    Transmits (entryAt (Ieee802154.step fb search) s event) where
  published := by
    intro f hf
    rw [entryAt_after, entryAt_before] at hf
    by_cases hevent : event = .backoffTimer
    · subst hevent
      exact h.payload_eq hf
    · rw [dataFrames_step h.inv hevent] at hf
      exact absurd hf (ne_append_singleton _ f)
  backoff := by
    intro _ hexpired
    obtain ⟨expiry, htimer, -⟩ := isExpired_iff.mp hexpired
    exact (h.backoff (by rw [show s.backoffTimer = some expiry from htimer]; rfl)).1
  airtime := by
    intro _ hexpired
    obtain ⟨expiry, htimer, -⟩ := isExpired_iff.mp hexpired
    exact h.airtime (by rw [show s.txTimer = some expiry from htimer]; rfl)

/-- **A guest that does not disturb its transmissions gets them.** -/
theorem transmits_of_undisturbed (fb : Flatbuffers) (search : BinarySearch (ℕ ×ₗ ℕ)) (nodeId : UInt32)
    (events : List Event)
    (hquiet : ∀ entry ∈ entries (step fb search) (initial nodeId) events, ¬ Disturbs entry) :
    ∀ entry ∈ entries (step fb search) (initial nodeId) events, Transmits entry := by
  have hrun := entries_invariant (step fb search) (s := initial nodeId)
    (P := fun es s => (∀ e ∈ es, ¬ Disturbs e) → Attended s ∧ ∀ e ∈ es, Transmits e)
    (fun _ => ⟨attended_initial nodeId, by simp⟩) ?_ events
  · exact (hrun hquiet).2
  · intro es s event ih hquiet
    rw [List.forall_mem_append, List.forall_mem_singleton] at hquiet
    obtain ⟨hattended, hall⟩ := ih hquiet.1
    refine ⟨hattended.step event hquiet.2, ?_⟩
    rw [List.forall_mem_append, List.forall_mem_singleton]
    exact ⟨hall, hattended.transmits event⟩

/-- One byte is loaded and transmitted. -/
def loading : List Event :=
  [.write 0x00 0xAB, .write 0x08 0, .tick 10000000, .backoffTimer, .tick 20000000, .txTimer]

instance (entry : Entry State Event Unit) : Decidable (Disturbs entry) := by
  unfold Disturbs
  split <;> infer_instance

theorem transmits_of_undisturbed_loading :
    (finalState (step plainFlatbuffers (linearSearch _)) (initial 0) loading).dataFrames.map
        Published.payload = [[0xAB]] ∧
      ∀ entry ∈ entries (step plainFlatbuffers (linearSearch _)) (initial 0) loading,
        Transmits entry :=
  ⟨by decide +kernel, transmits_of_undisturbed _ _ 0 loading (by decide +kernel)⟩

/-! ## A guest that gives up -/

/-- A transmit command, and back to `Idle` before the backoff is over. -/
def abandoned : List Event := [.write 0x00 0xAB, .write 0x08 0, .write 0x1C 1, .tick 10000000]

/-- The first transmission is abandoned on the air. The next one waits for its backoff. -/
def restarted : List Event :=
  [.write 0x00 0xAB, .write 0x08 0, .tick 10000000, .backoffTimer, .write 0x1C 1, .write 0x00 0xCD,
    .write 0x08 0, .tick 10224000]

/-- The abandoned frame is published although the radio is in `Idle`. And the airtime timer of an abandoned
transmission ends the next one: back to `Idle`, with length 0 and the done bit set, before anything of it
was published. -/
theorem not_transmits_abandoned :
    ((finalState (step plainFlatbuffers (linearSearch _)) (initial 0) abandoned).state = .idle ∧
      (finalState (step plainFlatbuffers (linearSearch _)) (initial 0)
        (abandoned ++ [.backoffTimer])).dataFrames.map Published.payload = [[0xAB]] ∧
      ¬ Transmits (entryAt (step plainFlatbuffers (linearSearch _))
        (finalState (step plainFlatbuffers (linearSearch _)) (initial 0) abandoned) .backoffTimer)) ∧
    ((finalState (step plainFlatbuffers (linearSearch _)) (initial 0) restarted).state = .tx ∧
      (finalState (step plainFlatbuffers (linearSearch _)) (initial 0) (restarted ++ [.txTimer])).state =
        .idle ∧
      (finalState (step plainFlatbuffers (linearSearch _)) (initial 0) (restarted ++ [.txTimer])).txLen =
        0 ∧ hasBit (finalState (step plainFlatbuffers (linearSearch _)) (initial 0)
        (restarted ++ [.txTimer])).status statusDone = true ∧
      ¬ Transmits (entryAt (step plainFlatbuffers (linearSearch _))
        (finalState (step plainFlatbuffers (linearSearch _)) (initial 0) restarted) .txTimer)) := by
  refine ⟨⟨by decide +kernel, by decide +kernel, fun h => ?_⟩, by decide +kernel, by decide +kernel,
    by decide +kernel, by decide +kernel, fun h => ?_⟩
  · have hstate := h.backoff rfl (by decide +kernel)
    exact absurd hstate (by decide +kernel)
  · have hair := (h.airtime rfl (by decide +kernel)).2
    exact absurd hair (by decide +kernel)

end Virtmcu.Ieee802154
