import Virtmcu.Foundations.Transition
import Virtmcu.Qom.Subscription

/-! # Is the subscription gone when it is dropped?

A wrapper that has found the subscription valid kicks the timer whatever happens meanwhile. If the
kick comes after the timer was deleted, the timer fires with a pointer to a record that is then freed.
And a drop that does not hold the big lock can free the record between the firing of the timer and the
first count of the callback.

The record is not used after it is freed (`noUseAfterFree_of_orderly`) if the timer is deleted with the
big lock held and no wrapper between its check and its kick. Then the timer stays silent, the wait for
the count outlasts every user callback, and the lock that is taken back at the end outlasts the rest of
the timer callback. -/

namespace Virtmcu.Qom

variable {k : ℕ}

/-- The step keeps to the discipline: the timer is deleted with the big lock held, and no wrapper is
between its check and its kick. -/
def Orderly (s : State k) : Action k → Prop
  | .deleteTimer => s.bql = .dropper ∧ ∀ i, s.wrapper i = .idle
  | _ => True

instance (s : State k) (action : Action k) : Decidable (Orderly s action) := by
  -- not `cases`, which leaves casts in the instance
  apply @Action.casesOn k (Decidable <| Orderly s ·) action <;> intros <;> dsimp only [Orderly] <;>
    infer_instance

/-! ## The timer callback -/

/-- The share of the main loop in `active_count`. -/
def MainPc.count : MainPc → ℕ
  | .idle => 0
  | .dispatched => 0
  | .leaving => 0
  | _ => 1

/-- The timer callback runs under the big lock, except for the user callback, and is counted. -/
structure CallbackOk (s : State k) : Prop where
  locked : s.main.mayYield = false → s.bql = .mainLoop
  counted : s.activeCount = s.main.count

variable {action : Action k}

namespace CallbackOk

variable {s s' : State k}

/-- Where the callback cannot have given up the lock, the main loop has it. -/
theorem bql_of_main (hs : CallbackOk s) {pc : MainPc} (hmain : s.main = pc)
    (hpc : pc.mayYield = false) : s.bql = .mainLoop := by
  rw [← hmain] at hpc
  exact hs.locked hpc

/-- A step of the main loop that has the lock, and that counts itself in and out. -/
theorem of_main (hs : CallbackOk s) {pc : MainPc} (hmain : s.main = pc) (hbql : s'.bql = .mainLoop)
    (hcount : s'.activeCount + pc.count = s.activeCount + s'.main.count) : CallbackOk s' := by
  refine ⟨fun _ => hbql, ?_⟩
  rw [hs.counted, hmain] at hcount
  omega

/-- A step of another thread does not take the lock from the main loop. -/
theorem of_other (hs : CallbackOk s) (hmain : s'.main = s.main)
    (hcount : s'.activeCount = s.activeCount) (hbql : s.bql = .mainLoop → s'.bql = .mainLoop) :
    CallbackOk s' where
  locked := by
    rw [hmain]
    intro hyield
    exact hbql (hs.locked hyield)
  counted := by rw [hcount, hmain, hs.counted]

/-- The same for a thread that finds the lock in other hands than the main loop's. -/
theorem of_bql_ne (hs : CallbackOk s) {owner : BqlOwner} (hbql : s.bql = owner)
    (hother : owner ≠ .mainLoop) (hmain : s'.main = s.main)
    (hcount : s'.activeCount = s.activeCount) : CallbackOk s' :=
  hs.of_other hmain hcount fun hhas => absurd (hbql.symm.trans hhas) hother

/-- **The callback stays locked and counted**, whoever takes the step. -/
protected theorem step (hs : CallbackOk s) (henabled : Enabled s action) : CallbackOk (step s action) := by
  cases action with
  | check i payload | send i payload | sendFails i payload | kick i => exact hs.of_other rfl rfl id
  | mainLock => exact ⟨fun _ => rfl, hs.counted⟩
  | mainUnlock =>
    exact ⟨fun hno => absurd (henabled.2.symm.trans hno) nofun, hs.counted⟩
  | fire =>
    obtain ⟨hmain, hbql, _⟩ := henabled
    exact hs.of_main hmain hbql rfl
  | addActive =>
    have hmain : s.main = .dispatched := henabled
    exact hs.of_main hmain (hs.bql_of_main hmain rfl) rfl
  | tryRecv payload rest | tryRecvFails =>
    obtain ⟨hmain, _⟩ := henabled
    exact hs.of_main hmain (hs.bql_of_main hmain rfl) rfl
  | loadValid payload =>
    have hmain : s.main = .popped payload := henabled
    refine hs.of_main hmain (hs.bql_of_main hmain rfl) ?_
    cases hvalid : s.isValid <;> simp [Qom.step, hvalid, MainPc.count]
  | loadGeneration payload =>
    have hmain : s.main = .validated payload := henabled
    refine hs.of_main hmain (hs.bql_of_main hmain rfl) ?_
    by_cases hsame : s.generation = s.expectedGeneration <;>
      simp [Qom.step, hsame, MainPc.count]
  | callbackReturns payload =>
    obtain ⟨hmain, hbql⟩ := henabled
    exact hs.of_main hmain hbql rfl
  | subActive =>
    have hmain : s.main = .drained := henabled
    have hone : s.activeCount = 1 := by rw [hs.counted, hmain]; rfl
    refine hs.of_main hmain (hs.bql_of_main hmain rfl) ?_
    show s.activeCount - 1 + 1 = s.activeCount + 0
    omega
  | notify =>
    have hmain : s.main = .leaving := henabled
    exact hs.of_main hmain (hs.bql_of_main hmain rfl) rfl
  | dropperLock | dropperUnlock => exact hs.of_bql_ne henabled.1 nofun rfl rfl
  | markInvalid | deleteTimer => exact hs.of_other rfl rfl id
  | temporaryUnlock =>
    refine hs.of_other rfl rfl fun hbql => ?_
    show (if s.bql = .dropper then .nobody else s.bql) = _
    rw [hbql]
    rfl
  | countZero held => exact hs.of_other rfl rfl id
  | relock held =>
    cases held with
    | true => exact hs.of_bql_ne (henabled.2 rfl) nofun rfl rfl
    | false => exact hs.of_other rfl rfl id
  | free => exact hs.of_other rfl rfl id
  | otherLock | otherUnlock => exact hs.of_bql_ne henabled nofun rfl rfl
  | bumpGeneration => exact hs.of_other rfl rfl id

end CallbackOk

/-! ## Silence -/

/-- Nothing will ever arm the timer again. -/
structure Silent (s : State k) : Prop where
  invalid : s.isValid = false
  unarmed : s.armed = false
  quiet : ∀ i, s.wrapper i = .idle

variable {s : State k}

/-- **Silence is kept.** -/
protected theorem Silent.step (hs : Silent s) (henabled : Enabled s action) : Silent (step s action) := by
  have hkeep {s' : State k} (hvalid : s'.isValid = s.isValid) (harmed : s'.armed = s.armed)
      (hwrapper : s'.wrapper = s.wrapper) : Silent s' :=
    ⟨hvalid.trans hs.invalid, harmed.trans hs.unarmed, fun i => by rw [hwrapper, hs.quiet]⟩
  cases action with
  | check i payload =>
    exact absurd (hs.invalid.symm.trans henabled.2) nofun
  | send i payload | sendFails i payload => exact absurd ((hs.quiet i).symm.trans henabled.1) nofun
  | kick i => exact absurd ((hs.quiet i).symm.trans henabled) nofun
  | fire => exact ⟨hs.invalid, rfl, hs.quiet⟩
  | markInvalid => exact ⟨rfl, hs.unarmed, hs.quiet⟩
  | deleteTimer => exact ⟨hs.invalid, rfl, hs.quiet⟩
  | _ => exact hkeep rfl rfl rfl

/-- The callback will not touch the record any more, except for its last notification. -/
def MainPc.isPast : MainPc → Bool
  | .idle => true
  | .leaving => true
  | _ => false

/-- **In silence the timer callback is not entered again**: it only gets nearer to its end. -/
theorem Silent.main_step (hs : Silent s) (henabled : Enabled s action) :
    (s.main ≠ .dispatched → (step s action).main ≠ .dispatched) ∧
      (s.main.isPast = true → (step s action).main.isPast = true) ∧
      (s.main = .idle → (step s action).main = .idle) := by
  -- a step within the callback: it starts from a place that is neither past nor idle
  have hwithin {pc pc' : MainPc} (hmain : s.main = pc) (hpast : pc.isPast = false)
      (hpc' : pc' ≠ .dispatched) :
      (s.main ≠ .dispatched → pc' ≠ .dispatched) ∧ (s.main.isPast = true → pc'.isPast = true) ∧
        (s.main = .idle → pc' = .idle) := by
    refine ⟨fun _ => hpc', fun h => ?_, fun h => ?_⟩
    · rw [hmain, hpast] at h
      cases h
    · rw [← hmain, h] at hpast
      cases hpast
  cases action with
  | fire =>
    exact absurd (hs.unarmed.symm.trans henabled.2.2) nofun
  | addActive => exact hwithin henabled rfl nofun
  | tryRecv payload rest | tryRecvFails => exact hwithin henabled.1 rfl nofun
  | loadValid payload =>
    refine hwithin henabled rfl ?_
    show (if s.isValid then MainPc.validated payload else .draining) ≠ _
    split <;> exact nofun
  | loadGeneration payload =>
    refine hwithin henabled rfl ?_
    show (if s.generation = s.expectedGeneration then MainPc.calling payload else .draining) ≠ _
    split <;> exact nofun
  | callbackReturns payload => exact hwithin henabled.1 rfl nofun
  | subActive => exact hwithin henabled rfl nofun
  | notify => exact ⟨fun _ => nofun, fun _ => rfl, fun _ => rfl⟩
  | _ => exact ⟨id, id, id⟩

/-! ## The drop -/

/-- What is settled at each point of the drop. -/
def DropOk (s : State k) : DropPc → Prop
  | .notStarted => True
  | .marked => s.isValid = false
  | .deleted => Silent s ∧ s.bql = .dropper
  | .waiting held => Silent s ∧ held = true ∧ s.main ≠ .dispatched
  | .counted held => Silent s ∧ held = true ∧ s.main.isPast = true
  | .returned => Silent s ∧ s.main = .idle
  | .freed => Silent s ∧ s.main = .idle

/-- The invariant of the orderly runs. -/
structure TeardownInv (s : State k) : Prop where
  callback : CallbackOk s
  drop : DropOk s s.drop

theorem teardownInv_initial (generation : ℕ) : TeardownInv (initial k generation) :=
  ⟨⟨nofun, rfl⟩, trivial⟩

/-- The step is one of the drop. -/
def Action.isDrop : Action k → Bool
  | .markInvalid => true
  | .deleteTimer => true
  | .temporaryUnlock => true
  | .countZero _ => true
  | .relock _ => true
  | .free => true
  | _ => false

/-- No other step moves the drop. -/
theorem drop_step_of_not_isDrop (h : action.isDrop = false) : (step s action).drop = s.drop := by
  cases action <;> first | rfl | cases h

/-- No other step marks the subscription valid. -/
theorem isValid_step_of_not_isDrop (h : action.isDrop = false) : (step s action).isValid = s.isValid := by
  cases action <;> first | rfl | cases h

/-- No other step takes the lock from a drop that has begun. -/
theorem bql_step_of_not_isDrop (h : action.isDrop = false)
    (henabled : Enabled s action) (hdrop : s.drop = .deleted) (hbql : s.bql = .dropper) :
    (step s action).bql = .dropper := by
  have hother {owner : BqlOwner} (howner : s.bql = owner) (hne : owner ≠ .dropper) : False :=
    hne (howner.symm.trans hbql)
  cases action with
  | mainLock | mainUnlock => exact (hother henabled.1 nofun).elim
  | dropperUnlock =>
    rcases henabled.2 with hstart | hfreed
    · exact absurd (hdrop.symm.trans hstart) nofun
    · exact absurd (hdrop.symm.trans hfreed) nofun
  | dropperLock => exact (hother henabled.1 nofun).elim
  | otherLock | otherUnlock => exact (hother henabled nofun).elim
  | markInvalid | deleteTimer | temporaryUnlock | countZero held | relock held | free => cases h
  | _ => exact hbql

/-- What is settled stays so while the drop does nothing. -/
theorem dropOk_step_of_not_isDrop (hs : DropOk s s.drop)
    (h : action.isDrop = false) (henabled : Enabled s action) :
    DropOk (step s action) (step s action).drop := by
  rw [drop_step_of_not_isDrop h]
  cases hdrop : s.drop with
  | notStarted => trivial
  | marked =>
    rw [hdrop] at hs
    exact (isValid_step_of_not_isDrop h).trans hs
  | deleted =>
    rw [hdrop] at hs
    obtain ⟨hsilent, hbql⟩ := hs
    exact ⟨hsilent.step henabled, bql_step_of_not_isDrop h henabled hdrop hbql⟩
  | waiting held =>
    rw [hdrop] at hs
    obtain ⟨hsilent, hheld, hmain⟩ := hs
    exact ⟨hsilent.step henabled, hheld, (hsilent.main_step henabled).1 hmain⟩
  | counted held =>
    rw [hdrop] at hs
    obtain ⟨hsilent, hheld, hmain⟩ := hs
    exact ⟨hsilent.step henabled, hheld, (hsilent.main_step henabled).2.1 hmain⟩
  | returned | freed =>
    rw [hdrop] at hs
    obtain ⟨hsilent, hmain⟩ := hs
    exact ⟨hsilent.step henabled, (hsilent.main_step henabled).2.2 hmain⟩

/-- An orderly step settles what it should. -/
theorem TeardownInv.dropOk_step (hs : TeardownInv s)
    (henabled : Enabled s action) (horderly : Orderly s action) :
    DropOk (step s action) (step s action).drop := by
  have hok := hs.drop
  cases hisDrop : action.isDrop with
  | false => exact dropOk_step_of_not_isDrop hok hisDrop henabled
  | true =>
    cases action with
    | markInvalid => exact rfl
    | deleteTimer =>
      rw [show s.drop = .marked from henabled] at hok
      obtain ⟨hbql, hquiet⟩ := horderly
      exact ⟨⟨hok, rfl, hquiet⟩, hbql⟩
    | temporaryUnlock =>
      rw [show s.drop = .deleted from henabled] at hok
      obtain ⟨hsilent, hbql⟩ := hok
      -- the drop has the lock, so the timer callback is not at its beginning
      have hmain : s.main ≠ .dispatched := by
        intro hmain
        exact absurd (hbql.symm.trans (hs.callback.bql_of_main hmain rfl)) nofun
      exact ⟨hsilent.step henabled, decide_eq_true hbql, hmain⟩
    | countZero held =>
      have ⟨hdrop, hzero⟩ := henabled
      rw [hdrop] at hok
      obtain ⟨hsilent, hheld, hmain⟩ := hok
      refine ⟨hsilent.step henabled, hheld, ?_⟩
      -- the count is zero only before the first and after the last access of the callback
      show s.main.isPast = true
      have hcount := hs.callback.counted
      rw [hzero] at hcount
      cases hpc : s.main with
      | idle | leaving => rfl
      | dispatched => exact absurd hpc hmain
      | _ =>
        rw [hpc] at hcount
        cases hcount
    | relock held =>
      have ⟨hdrop, hfree⟩ := henabled
      rw [hdrop] at hok
      obtain ⟨hsilent, rfl, hmain⟩ := hok
      refine ⟨hsilent.step henabled, ?_⟩
      -- nobody has the lock, so the callback is not at its last notification either
      show s.main = .idle
      cases hpc : s.main with
      | idle => rfl
      | leaving => exact absurd ((hfree rfl).symm.trans (hs.callback.bql_of_main hpc rfl)) nofun
      | _ =>
        rw [hpc] at hmain
        cases hmain
    | free =>
      rw [show s.drop = .returned from henabled] at hok
      obtain ⟨hsilent, hmain⟩ := hok
      exact ⟨hsilent.step henabled, hmain⟩
    | _ => cases hisDrop

/-! ## Orderly runs -/

theorem TeardownInv.noUseAfterFree (hs : TeardownInv s) : NoUseAfterFree s := by
  have hok := hs.drop
  constructor
  · intro hfreed
    rw [hfreed] at hok
    exact hok.2
  · intro hreturned payload hmain
    cases hdrop : s.drop with
    | returned | freed =>
      rw [hdrop] at hok
      exact absurd (hok.2.symm.trans hmain) nofun
    | _ =>
      rw [hdrop] at hreturned
      cases hreturned

/-- **A subscription that is dropped in order is not used after it is freed.** -/
theorem noUseAfterFree_of_orderly (generation : ℕ) (actions : List (Action k))
    (h : passes step (fun s a => decide (Enabled s a ∧ Orderly s a)) (initial k generation)
      actions = true) : NoUseAfterFree (actions.foldl step (initial k generation)) := by
  have hpath := steps_of_passes step _ h
  refine (steps_invariant ?_ hpath (teardownInv_initial generation)).noUseAfterFree
  rintro s _ ⟨action, hok, rfl⟩ hs
  obtain ⟨henabled, horderly⟩ := of_decide_eq_true hok
  exact ⟨hs.callback.step henabled, hs.dropOk_step henabled horderly⟩

/-! ## Runs -/

/-- The one thread of the transport in the runs below. -/
def lone : Fin 1 := ⟨0, Nat.one_pos⟩

/-- A message gets through to the user callback, which gives up the lock; the drop begins meanwhile,
waits for the callback and frees the record. -/
def orderlyRun : List (Action 1) :=
  [.otherUnlock, .check lone [7], .send lone [7], .kick lone, .mainLock, .fire, .addActive,
    .tryRecv [7] [], .loadValid [7], .loadGeneration [7], .mainUnlock, .dropperLock, .markInvalid,
    .deleteTimer, .temporaryUnlock, .mainLock, .callbackReturns [7], .tryRecvFails, .subActive,
    .countZero true, .notify, .mainUnlock, .relock true, .free]

/-- The drop is orderly and comes to its end. -/
theorem noUseAfterFree_orderlyRun :
    passes step (fun s a => decide (Enabled s a ∧ Orderly s a)) (initial 1 0) orderlyRun = true ∧
      (orderlyRun.foldl step (initial 1 0)).drop = .freed ∧
      NoUseAfterFree (orderlyRun.foldl step (initial 1 0)) :=
  have horderly : passes step (fun s a => decide (Enabled s a ∧ Orderly s a)) (initial 1 0)
      orderlyRun = true := by decide +kernel
  ⟨horderly, by decide +kernel, noUseAfterFree_of_orderly 0 orderlyRun horderly⟩

/-- The drop runs, with the big lock held, between the send and the kick of a wrapper. -/
def lateKickRun : List (Action 1) :=
  [.otherUnlock, .dropperLock, .check lone [7], .send lone [7], .markInvalid, .deleteTimer,
    .temporaryUnlock, .countZero true, .relock true, .free, .kick lone, .dropperUnlock, .mainLock,
    .fire]

/-- The drop runs, without the big lock, between the firing of the timer and the count. -/
def unlockedDropRun : List (Action 1) :=
  [.otherUnlock, .check lone [7], .send lone [7], .kick lone, .mainLock, .fire, .markInvalid,
    .deleteTimer, .temporaryUnlock, .countZero false, .relock false, .free]

/-- Each part of the discipline is needed: the timer callback begins, or goes on, after the record was
freed. -/
theorem not_noUseAfterFree_disorderly :
    (passes step (fun s a => decide (Enabled s a)) (initial 1 0) lateKickRun = true ∧
      ¬ NoUseAfterFree (lateKickRun.foldl step (initial 1 0))) ∧
    (passes step (fun s a => decide (Enabled s a)) (initial 1 0) unlockedDropRun = true ∧
      ¬ NoUseAfterFree (unlockedDropRun.foldl step (initial 1 0))) := by
  have hlate : (lateKickRun.foldl step (initial 1 0)).drop = .freed ∧
      (lateKickRun.foldl step (initial 1 0)).main = .dispatched := by decide +kernel
  have hunlocked : (unlockedDropRun.foldl step (initial 1 0)).drop = .freed ∧
      (unlockedDropRun.foldl step (initial 1 0)).main = .dispatched := by decide +kernel
  refine ⟨⟨by decide +kernel, fun h => ?_⟩, ⟨by decide +kernel, fun h => ?_⟩⟩
  · exact absurd (hlate.2.symm.trans (h.1 hlate.1)) nofun
  · exact absurd (hunlocked.2.symm.trans (h.1 hunlocked.1)) nofun

end Virtmcu.Qom
