import Virtmcu.Clock.Hooks

/-! # Is the end of the clock device safe?

A hook that is in the quantum wait when the shutdown flag is set leaves the wait within a few steps of
its own, and no other thread sets it back. It can be held up by the mutex and, on its way out, by the big
lock. The finalizer holds both in turn, and gives both up whenever it finds hooks that are still counted.
In a run that is fair to the hooks, to the finalizer and to the release of the big lock by the others,
every hook that is counted after the flag is set comes out again (`exists_outside`), as long as the
process is alive.

It is not always: the finalizer clears `rust_state` before it waits for the hooks, and a hook that has
just looked at it, without the big lock, follows a null pointer. The teardown is safe exactly when no hook
is caught there (`isSafe_iff`). -/

namespace Virtmcu.Clock.Hooks

open Filter Function

variable {k : ℕ} {device : Device}

/-! ## What other threads leave alone -/

section

variable {s : State k} {move : Move k} {i : Fin k}

@[simp] theorem hook_finalizeStep : (finalizeStep s).hook = s.hook := by
  unfold finalizeStep
  repeat' split
  all_goals rfl

/-- A step leaves a hook alone, or its vCPU comes by, or it is a step of the hook. -/
theorem hook_step_cases (hs : Inv s) (h : enabled s move = true) (i : Fin k) :
    (step s move).hook i = s.hook i ∨ (s.hook i = .outside ∧ (step s move).hook i = .counted) ∨
      ∃ c, move = .hook i c ∧ HookEffect s (step s move) i ((step s move).hook i) := by
  have hready := (enabled_eq_true.mp h).2
  cases move with
  | enter j =>
    rcases eq_or_ne i j with rfl | hne
    · exact .inr (.inl ⟨of_decide_eq_true hready, update_self _ _ _⟩)
    · exact .inl (update_of_ne hne _ _)
  | hook j c =>
    have heffect := hs.hookEffect hready c
    rcases eq_or_ne i j with rfl | hne
    · exact .inr (.inr ⟨c, rfl, heffect⟩)
    · refine .inl ?_
      show (hookStep c j s).hook i = _
      rw [heffect.hook, update_of_ne hne]
  | finalize => exact .inl (congrFun hook_finalizeStep i)
  | _ => exact .inl rfl

/-- The finalizer is moved by its own thread only. -/
theorem finalizer_step_of_ne (hs : Inv s) (h : enabled s move = true) (hmove : move ≠ .finalize)
    (hi : s.finalizer ≠ .idle) : (step s move).finalizer = s.finalizer := by
  have hready := (enabled_eq_true.mp h).2
  cases move with
  | begin => exact absurd (of_decide_eq_true hready) hi
  | hook j c => exact (hs.hookEffect hready c).finalizer
  | finalize => exact absurd rfl hmove
  | _ => rfl

/-- The shutdown flag stays set. -/
theorem shutdown_step_of_shutdown (hs : Inv s) (h : enabled s move = true)
    (hset : s.backend.shutdown = true) : (step s move).backend.shutdown = true := by
  have hready := (enabled_eq_true.mp h).2
  cases move with
  | hook j c => exact (hs.hookEffect hready c).shutdown.trans hset
  | worker c => exact (shutdown_step (m := .worker c) nofun).trans hset
  | finalize =>
    show (finalizeStep s).backend.shutdown = true
    unfold finalizeStep
    repeat' split
    all_goals first | exact hset | rfl
  | _ => exact hset

/-- The big lock goes from hand to hand through nobody's. -/
theorem bql_step (hs : Inv s) (h : enabled s move = true) (howned : s.bql ≠ .nobody) :
    (step s move).bql = s.bql ∨ (step s move).bql = .nobody := by
  have hready := (enabled_eq_true.mp h).2
  cases move with
  | hook j c =>
    rcases (hs.hookEffect hready c).bql with hsame | ⟨_, hnobody⟩ | ⟨hnobody, _⟩
    · exact .inl hsame
    · exact .inr hnobody
    · exact absurd hnobody howned
  | finalize =>
    show (finalizeStep s).bql = s.bql ∨ (finalizeStep s).bql = .nobody
    unfold finalizeStep
    cases hpc : s.finalizer with
    | drainUnlock =>
      rcases s.temporaryUnlock_bql .finalizer with hsame | ⟨_, hnobody⟩
      · exact .inl hsame
      · exact .inr hnobody
    | drainRelock released =>
      cases released with
      | false => exact .inl rfl
      | true =>
        simp only [ready, finalizerReady, hpc, Bool.not_true, Bool.false_or, Bool.or_eq_true,
          decide_eq_true_eq] at hready
        exact .inl (hready.resolve_left howned).symm
    | checkState | drainLoad =>
      simp only
      split <;> exact .inl rfl
    | _ => exact .inl rfl
  | vcpuLock j | finalizerLock =>
    simp only [ready, Bool.and_eq_true, decide_eq_true_eq] at hready
    exact absurd hready.2 howned
  | otherLock => exact absurd (of_decide_eq_true hready) howned
  | vcpuUnlock j | finalizerUnlock | otherUnlock => exact .inr rfl
  | _ => exact .inl rfl

/-! ## After the shutdown -/

/-- The shutdown flag is set, and the process is alive. -/
structure Closing (s : State k) : Prop where
  inv : Inv s
  shutdown : s.backend.shutdown = true
  alive : s.crashed = false

namespace Closing

theorem started (hs : Closing s) : s.finalizer ≠ .idle := by
  intro hidle
  have hpast := hs.inv.shutdown hs.shutdown
  rw [hidle] at hpast
  rcases hpast with h | h <;> cases h

theorem global (hs : Closing s) : s.global = false := hs.inv.cleared hs.started

/-- No hook finds the device any more. -/
theorem isInside_step (hs : Closing s) (h : enabled s move = true)
    (hi : (s.hook i).isInside = false) : ((step s move).hook i).isInside = false := by
  rcases hook_step_cases hs.inv h i with hsame | ⟨_, hcounted⟩ | ⟨c, _, heffect⟩
  · rwa [hsame]
  · rw [hcounted]
    rfl
  · by_contra hin
    rcases heffect.inside (Bool.eq_true_of_not_eq_false hin) with hwas | hset
    · exact Bool.false_ne_true (hi.symm.trans hwas)
    · exact Bool.false_ne_true (hs.global.symm.trans hset)

end Closing

theorem HookPc.rank_eq_zero {pc : HookPc} (h : pc.isInside = false) : pc.rank = 0 := by
  cases pc <;> first | rfl | cases h

/-- The steps before all hooks at most until they are done with the device. -/
def hookRank (s : State k) : ℕ := ∑ i, (s.hook i).rank

namespace Closing

/-- A step of a hook that has the device brings it nearer to its end. -/
theorem rank_lt (hs : Closing s) (h : enabled s move = true) (halive : (step s move).crashed = false)
    (hi : (s.hook i).isInside = true) {c : HookChoice} (hmove : move = .hook i c) :
    ((step s move).hook i).rank < (s.hook i).rank := by
  subst hmove
  have heffect := hs.inv.hookEffect (enabled_eq_true.mp h).2 c
  exact heffect.rank hs.shutdown hi halive

/-- No step sets a hook back. -/
theorem rank_le (hs : Closing s) (h : enabled s move = true) (halive : (step s move).crashed = false)
    (i : Fin k) : ((step s move).hook i).rank ≤ (s.hook i).rank := by
  cases hi : (s.hook i).isInside with
  | false =>
    rw [HookPc.rank_eq_zero (hs.isInside_step h hi)]
    exact Nat.zero_le _
  | true =>
    rcases hook_step_cases hs.inv h i with hsame | ⟨hout, _⟩ | ⟨c, hmove, _⟩
    · rw [hsame]
    · rw [hout] at hi
      cases hi
    · exact (hs.rank_lt h halive hi hmove).le

theorem hookRank_le (hs : Closing s) (h : enabled s move = true)
    (halive : (step s move).crashed = false) : hookRank (step s move) ≤ hookRank s :=
  Finset.sum_le_sum fun i _ => hs.rank_le h halive i

theorem hookRank_lt (hs : Closing s) (h : enabled s move = true)
    (halive : (step s move).crashed = false) (hi : (s.hook i).isInside = true) {c : HookChoice}
    (hmove : move = .hook i c) : hookRank (step s move) < hookRank s :=
  Finset.sum_lt_sum (fun j _ => hs.rank_le h halive j)
    ⟨i, Finset.mem_univ i, hs.rank_lt h halive hi hmove⟩

end Closing

/-- A hook that is counted and does not have the device is on its way in or out. -/
theorem HookPc.eq_counted_or_eq_leaving {pc : HookPc} (hout : pc ≠ .outside)
    (hin : pc.isInside = false) : pc = .counted ∨ pc = .leaving := by
  cases pc with
  | outside => exact absurd rfl hout
  | counted => exact .inl rfl
  | leaving => exact .inr rfl
  | _ => cases hin

/-- The steps before a hook that is counted and does not have the device. -/
def HookPc.rankBetween : HookPc → ℕ
  | .counted => 2
  | .leaving => 1
  | _ => 0

/-- A hook that does not find the device is soon out again. -/
theorem Closing.rankBetween_lt (hs : Closing s) (hpc : s.hook i = .counted ∨ s.hook i = .leaving)
    (c : HookChoice) : ((hookStep c i s).hook i).rankBetween < (s.hook i).rankBetween := by
  rcases hpc with hpc | hpc
  · have hnext : (hookStep c i s).hook i = .leaving := by
      simp only [hookStep, hpc, hs.global, Bool.false_eq_true, if_false]
      exact update_self _ _ _
    rw [hnext, hpc]
    exact Nat.le_of_ble_eq_true rfl
  · have hnext : (hookStep c i s).hook i = .outside := by
      simp only [hookStep, hpc]
      exact update_self _ _ _
    rw [hnext, hpc]
    exact Nat.le_of_ble_eq_true rfl

/-! ## Locks -/

/-- What holds up a hook that has the device. -/
theorem held_up (hi : (s.hook i).isInside = true) (hready : hookReady s i = false) :
    (s.backend.locked = true ∧ ∃ now released vcpu, s.hook i = .waiting now released vcpu) ∨
      ((s.bql ≠ .nobody ∧ s.bql ≠ .vcpu i) ∧ ∃ now delta, s.hook i = .relock now true delta) := by
  unfold hookReady at hready
  cases hpc : s.hook i with
  | waiting now released vcpu =>
    simp only [hpc, Bool.not_eq_false', Bool.and_eq_true] at hready
    exact .inl ⟨hready.2, now, released, vcpu, rfl⟩
  | relock now released delta =>
    cases released with
    | false =>
      rw [hpc] at hready
      cases hready
    | true =>
      simp only [hpc, Bool.not_true, Bool.false_or, Bool.or_eq_false_iff, decide_eq_false_iff_not] at hready
      exact .inr ⟨hready, now, delta, rfl⟩
  | outside =>
    rw [hpc] at hi
    cases hi
  | _ =>
    rw [hpc] at hready
    cases hready

/-- A hook that is held up does not have the big lock. -/
theorem bql_ne_of_held_up (hs : Inv s) (hi : (s.hook i).isInside = true)
    (hready : hookReady s i = false) : s.bql ≠ .vcpu i := by
  rcases held_up hi hready with ⟨_, now, released, vcpu, hpc⟩ | ⟨⟨_, hne⟩, _⟩
  · exact hs.hookUnlocked i (by rw [hpc]; rfl)
  · exact hne

/-- If all hooks are held up, a locked mutex is the finalizer's. -/
theorem hasMutex_of_held_up (hs : Inv s) (hheld : ∀ i, (s.hook i).isInside = true → hookReady s i = false)
    (hlocked : s.backend.locked = true) : s.finalizer.hasMutex = true := by
  refine (hs.holder hlocked).resolve_right ?_
  rintro ⟨i, hi⟩
  cases hpc : s.hook i with
  | waiting now released vcpu =>
    rw [hpc] at hi
    have hneeds : vcpu.pc.needsMutex = false := VcpuPc.needsMutex_of_hasMutex hi
    have hready := hheld i (by rw [hpc]; rfl)
    simp only [hookReady, hpc, hneeds, Bool.false_and, Bool.not_false] at hready
    cases hready
  | _ =>
    rw [hpc] at hi
    cases hi

namespace FinalizerPc

/-- The finalizer is in `cond.wait_timeout`. -/
def isAsleep : FinalizerPc → Bool
  | .drainAsleep _ => true
  | _ => false

/-- The steps before the finalizer until it sleeps in the drain loop. -/
def rank : FinalizerPc → ℕ
  | .lock => 5
  | .drainRelock _ => 4
  | .drainLoad => 3
  | .drainUnlock => 2
  | .drainWait _ => 1
  | _ => 0

theorem hasMutex_of_isAsleep {pc : FinalizerPc} (h : pc.isAsleep = true) : pc.hasMutex = false := by
  cases pc <;> first | rfl | cases h

theorem isUnlocked_of_isAsleep {pc : FinalizerPc} (h : pc.isAsleep = true) : pc.isUnlocked = true := by
  cases pc <;> first | rfl | cases h

end FinalizerPc

/-- The finalizer gets nearer to its sleep. -/
theorem rank_finalizeStep (hdrain : s.finalizer.isDraining = true) (hawake : s.finalizer.isAsleep = false) :
    (finalizeStep s).finalizer.rank < s.finalizer.rank := by
  unfold finalizeStep
  cases hpc : s.finalizer with
  | drainLoad =>
    simp only
    split <;> exact Nat.le_of_ble_eq_true rfl
  | lock | drainUnlock | drainWait released | drainRelock released => exact Nat.le_of_ble_eq_true rfl
  | drainAsleep released =>
    rw [hpc] at hawake
    cases hawake
  | _ =>
    rw [hpc] at hdrain
    cases hdrain

/-- If all hooks are held up, only the big lock can hold up the finalizer on its way to sleep. -/
theorem finalizer_held_up (hs : Inv s) (hheld : ∀ i, (s.hook i).isInside = true → hookReady s i = false)
    (hdrain : s.finalizer.isDraining = true) (hawake : s.finalizer.isAsleep = false)
    (hready : finalizerReady s = false) : s.bql ≠ .nobody ∧ s.bql ≠ .finalizer := by
  unfold finalizerReady at hready
  cases hpc : s.finalizer with
  | lock =>
    rw [hpc] at hready
    have hmutex := hasMutex_of_held_up hs hheld (by simpa using hready)
    rw [hpc] at hmutex
    cases hmutex
  | drainRelock released =>
    cases released with
    | false =>
      rw [hpc] at hready
      cases hready
    | true =>
      simpa only [hpc, Bool.not_true, Bool.false_or, Bool.or_eq_false_iff,
        decide_eq_false_iff_not] using hready
  | drainAsleep released =>
    rw [hpc] at hawake
    cases hawake
  | drainLoad | drainUnlock | drainWait released =>
    rw [hpc] at hready
    cases hready
  | _ =>
    rw [hpc] at hdrain
    cases hdrain

end

/-! ## Fair runs -/

/-- The endless runs of a device. -/
abbrev Run (k : ℕ) (device : Device) : Type := Behaviour step enabled (initial k device)

/-- Every thread that can move again and again does so: a hook, the finalizer, and the other holders of
the big lock, which release it. -/
structure Run.IsFair (r : Run k device) : Prop where
  hook : ∀ i, r.Fair {move | ∃ c, move = .hook i c}
  finalizer : r.Fair {.finalize}
  vcpuUnlock : ∀ i, r.Fair {.vcpuUnlock i}
  otherUnlock : r.Fair {.otherUnlock}

section

variable {r : Run k device}

/-- After the shutdown a run is closing as long as the process is alive. -/
theorem eventually_closing {n : ℕ} (hset : (r.state n).backend.shutdown = true)
    (halive : ∀ m, n ≤ m → (r.state m).crashed = false) : ∀ m, n ≤ m → Closing (r.state m) := by
  intro m hm
  have hinv (m : ℕ) : Inv (r.state m) := inv_of_steps (r.steps m)
  refine ⟨hinv m, ?_, halive m hm⟩
  refine r.of_le (P := fun s => s.backend.shutdown = true) hset (fun m _ hset => ?_) hm
  exact r.next_of_step (P := fun s => s.backend.shutdown = true) hset
    fun move _ h => shutdown_step_of_shutdown (hinv m) h hset

/-- A hook has the device for good, or never finds it again. -/
theorem eventually_isInside_or (hclosing : ∀ᶠ n in atTop, Closing (r.state n)) (i : Fin k) :
    (∀ᶠ n in atTop, ((r.state n).hook i).isInside = false) ∨
      ∀ᶠ n in atTop, ((r.state n).hook i).isInside = true := by
  have hstay : ∀ᶠ n in atTop, ((r.state n).hook i).isInside = false →
      ((r.state (n + 1)).hook i).isInside = false := by
    filter_upwards [hclosing] with n hn hi
    exact r.next_of_step (P := fun s => (s.hook i).isInside = false) hi
      fun move _ h => hn.isInside_step h hi
  rcases r.eventually_or_eventually_not (P := fun s => (s.hook i).isInside = false) hstay with
    hout | hin
  · exact .inl hout
  · exact .inr (hin.mono fun _ h => Bool.eq_true_of_not_eq_false h)

/-- **A hook that keeps the device is held up**, from some time on at every time. -/
theorem eventually_held_up (hfair : r.IsFair) (hclosing : ∀ᶠ n in atTop, Closing (r.state n)) :
    ∀ᶠ n in atTop, ∀ i, ((r.state n).hook i).isInside = true → hookReady (r.state n) i = false := by
  refine eventually_all.mpr fun i => ?_
  rcases eventually_isInside_or hclosing i with hout | hin
  · filter_upwards [hout] with n hn hi
    exact absurd (hn.symm.trans hi) Bool.false_ne_true
  · -- its steps would lower the rank for ever
    have hstuck := (hfair.hook i).eventually_not_ok hookRank ?_ ?_
    · filter_upwards [hstuck, hclosing] with n hn hs _
      have hno := hn (.hook i ⟨0, ⟨0, false, false, false, false⟩⟩) ⟨_, rfl⟩
      rwa [enabled, hs.alive] at hno
    · filter_upwards [hclosing, eventually_succ hclosing] with n hn hnext
      refine r.next_of_step (P := fun s => hookRank s ≤ hookRank (r.state n)) le_rfl
        fun move hmove h => hn.hookRank_le h ?_
      rw [← (r.next n move hmove).2]
      exact hnext.alive
    · filter_upwards [hclosing, eventually_succ hclosing, hin] with n hn hnext hi
      rintro move ⟨c, rfl⟩ hmove
      obtain ⟨h, heq⟩ := r.next n _ hmove
      rw [heq]
      exact hn.hookRank_lt h (heq ▸ hnext.alive) hi rfl

/-- A hook does not stay counted without the device. -/
theorem not_eventually_between (hfair : r.IsFair) (hclosing : ∀ᶠ n in atTop, Closing (r.state n))
    (i : Fin k) : ¬ ∀ᶠ n in atTop, (r.state n).hook i = .counted ∨ (r.state n).hook i = .leaving := by
  intro hbetween
  have hstuck := (hfair.hook i).eventually_not_ok (fun s => (s.hook i).rankBetween) ?_ ?_
  · obtain ⟨n, hn, hpc, hs⟩ := (hstuck.and (hbetween.and hclosing)).exists
    have hno := hn (.hook i ⟨0, ⟨0, false, false, false, false⟩⟩) ⟨_, rfl⟩
    rw [enabled, hs.alive, ready, hookReady] at hno
    rcases hpc with hpc | hpc <;> rw [hpc] at hno <;> cases hno
  · filter_upwards [hclosing, hbetween] with n hs hpc
    refine r.next_of_step (P := fun s => (s.hook i).rankBetween ≤ ((r.state n).hook i).rankBetween)
      le_rfl fun move _ h => ?_
    rcases hook_step_cases hs.inv h i with hsame | ⟨hout, _⟩ | ⟨c, rfl, _⟩
    · rw [hsame]
    · rcases hpc with hpc | hpc <;> cases hout.symm.trans hpc
    · exact (hs.rankBetween_lt hpc c).le
  · filter_upwards [hclosing, hbetween] with n hs hpc
    rintro move ⟨c, rfl⟩ hmove
    rw [(r.next n _ hmove).2]
    exact hs.rankBetween_lt hpc c

/-- A big lock that is never free stays in the same hands. -/
theorem exists_eventually_bql (hclosing : ∀ᶠ n in atTop, Closing (r.state n))
    (howned : ∀ᶠ n in atTop, (r.state n).bql ≠ .nobody) :
    ∃ owner, ∀ᶠ n in atTop, (r.state n).bql = owner := by
  refine exists_eventually_eq (f := fun n => (r.state n).bql) ?_
  filter_upwards [hclosing, howned, eventually_succ howned] with n hn hown hnext
  refine r.next_of_step (P := fun s => s.bql = (r.state n).bql) rfl fun move hmove h => ?_
  refine (bql_step hn.inv h hown).resolve_right ?_
  rwa [← (r.next n move hmove).2]

/-- **The big lock comes back**, or is the finalizer's. -/
theorem frequently_bql (hfair : r.IsFair) (hclosing : ∀ᶠ n in atTop, Closing (r.state n)) :
    ∃ᶠ n in atTop, (r.state n).bql = .nobody ∨ (r.state n).bql = .finalizer := by
  by_contra hnever
  rw [not_frequently] at hnever
  obtain ⟨owner, howner⟩ := exists_eventually_bql hclosing (hnever.mono fun n hn h => hn (.inl h))
  cases owner with
  | nobody =>
    obtain ⟨n, hn, hown⟩ := (howner.and hnever).exists
    exact hown (.inl hn)
  | finalizer =>
    obtain ⟨n, hn, hown⟩ := (howner.and hnever).exists
    exact hown (.inr hn)
  | other =>
    have hstuck := hfair.otherUnlock.eventually_not_ok_of_unused ?_
    · obtain ⟨n, hn, hown, hs⟩ := (hstuck.and (howner.and hclosing)).exists
      have hno := hn .otherUnlock rfl
      rw [enabled, hs.alive, ready, hown] at hno
      cases hno
    · filter_upwards [eventually_succ howner] with n hnext
      rintro move rfl hmove
      rw [(r.next n _ hmove).2] at hnext
      cases hnext
  | vcpu i =>
    have hunused : ∀ᶠ n in atTop, ∀ move ∈ ({.vcpuUnlock i} : Set (Move k)),
        r.move n ≠ some move := by
      filter_upwards [eventually_succ howner] with n hnext
      rintro move rfl hmove
      rw [(r.next n _ hmove).2] at hnext
      cases hnext
    have hstuck := (hfair.vcpuUnlock i).eventually_not_ok_of_unused hunused
    refine not_eventually_between hfair hclosing i ?_
    filter_upwards [hstuck, howner, hclosing, eventually_held_up hfair hclosing] with n hn hown hs hheld
    have hout : (r.state n).hook i ≠ .outside := by
      intro hout
      have hno := hn (.vcpuUnlock i) rfl
      rw [enabled, hs.alive, ready, hown, hout] at hno
      simp at hno
    have hin : ((r.state n).hook i).isInside = false := by
      by_contra hin
      have hin' := Bool.eq_true_of_not_eq_false hin
      exact bql_ne_of_held_up hs.inv hin' (hheld i hin') hown
    exact HookPc.eq_counted_or_eq_leaving hout hin

/-- **The finalizer sleeps again and again** while it drains. -/
theorem frequently_isAsleep (hfair : r.IsFair) (hclosing : ∀ᶠ n in atTop, Closing (r.state n))
    (hdraining : ∀ᶠ n in atTop, (r.state n).finalizer.isDraining = true) :
    ∃ᶠ n in atTop, (r.state n).finalizer.isAsleep = true := by
  by_contra hnever
  have hawake : ∀ᶠ n in atTop, (r.state n).finalizer.isAsleep = false := by
    filter_upwards [not_frequently.mp hnever] with n hn
    exact Bool.eq_false_of_not_eq_true hn
  have hstuck := hfair.finalizer.eventually_not_ok (fun s => s.finalizer.rank) ?_ ?_
  · have howned : ∀ᶠ n in atTop, ¬ ((r.state n).bql = .nobody ∨ (r.state n).bql = .finalizer) := by
      filter_upwards [hstuck, hclosing, hdraining, hawake, eventually_held_up hfair hclosing] with
        n hn hs hdrain hawake hheld
      have hno := hn .finalize rfl
      rw [enabled, hs.alive] at hno
      obtain ⟨hne, hne'⟩ := finalizer_held_up hs.inv hheld hdrain hawake hno
      exact fun h => h.elim hne hne'
    obtain ⟨n, hfree, hown⟩ := ((frequently_bql hfair hclosing).and_eventually howned).exists
    exact hown hfree
  · filter_upwards [hclosing, hdraining, hawake] with n hs hdrain hawake
    refine r.next_of_step (P := fun s => s.finalizer.rank ≤ (r.state n).finalizer.rank) le_rfl
      fun move _ h => ?_
    by_cases hmove : move = .finalize
    · subst hmove
      exact (rank_finalizeStep hdrain hawake).le
    · rw [finalizer_step_of_ne hs.inv h hmove hs.started]
  · filter_upwards [hdraining, hawake] with n hdrain hawake
    rintro move rfl hmove
    rw [(r.next n _ hmove).2]
    exact rank_finalizeStep hdrain hawake

/-- A hook that is held up stays where it is. -/
theorem exists_eventually_hook (hclosing : ∀ᶠ n in atTop, Closing (r.state n)) {i : Fin k}
    (hin : ∀ᶠ n in atTop, ((r.state n).hook i).isInside = true)
    (hheld : ∀ᶠ n in atTop, hookReady (r.state n) i = false) :
    ∃ pc, ∀ᶠ n in atTop, (r.state n).hook i = pc := by
  refine exists_eventually_eq (f := fun n => (r.state n).hook i) ?_
  filter_upwards [hclosing, hin, hheld] with n hs hin hheld
  refine r.next_of_step (P := fun s => s.hook i = (r.state n).hook i) rfl fun move _ h => ?_
  rcases hook_step_cases hs.inv h i with hsame | ⟨hout, _⟩ | ⟨c, rfl, _⟩
  · exact hsame
  · rw [hout] at hin
    cases hin
  · exact absurd (hheld.symm.trans (enabled_eq_true.mp h).2) Bool.false_ne_true

/-- **No hook keeps the device.** -/
theorem not_eventually_isInside (hfair : r.IsFair) (hclosing : ∀ᶠ n in atTop, Closing (r.state n))
    (i : Fin k) : ¬ ∀ᶠ n in atTop, ((r.state n).hook i).isInside = true := by
  intro hin
  have hheld := eventually_held_up hfair hclosing
  have hdraining : ∀ᶠ n in atTop, (r.state n).finalizer.isDraining = true := by
    filter_upwards [hclosing, hin] with n hs hin
    refine (hs.inv.shutdown hs.shutdown).resolve_right fun hpast => ?_
    exact Bool.false_ne_true ((hs.inv.drained hpast i).symm.trans hin)
  have hasleep := frequently_isAsleep hfair hclosing hdraining
  -- while the finalizer sleeps the mutex is free, so the hook waits for the big lock
  have hrelock : ∃ᶠ n in atTop, ∃ now delta, (r.state n).hook i = .relock now true delta := by
    refine (hasleep.and_eventually (hclosing.and (hheld.and hin))).mono ?_
    rintro n ⟨hasleep, hs, hheld, hin⟩
    rcases held_up hin (hheld i hin) with ⟨hlocked, _⟩ | ⟨_, hrelock⟩
    · have hmutex := hasMutex_of_held_up hs.inv hheld hlocked
      rw [FinalizerPc.hasMutex_of_isAsleep hasleep] at hmutex
      cases hmutex
    · exact hrelock
  -- and goes on waiting there
  obtain ⟨pc, hpc⟩ := exists_eventually_hook hclosing hin
    ((hheld.and hin).mono fun _ h => h.1 i h.2)
  obtain ⟨_, ⟨now, delta, hrelock⟩, hn⟩ := (hrelock.and_eventually hpc).exists
  obtain rfl : pc = .relock now true delta := hn.symm.trans hrelock
  have howned : ∀ᶠ n in atTop, (r.state n).bql ≠ .nobody := by
    filter_upwards [hheld, hin, hpc] with n hheld hin hpc
    rcases held_up hin (hheld i hin) with ⟨_, _, _, _, hwaiting⟩ | ⟨⟨hne, _⟩, _⟩
    · exact absurd (hpc.symm.trans hwaiting) nofun
    · exact hne
  -- so the finalizer has the big lock for good, also in its sleep
  obtain ⟨owner, howner⟩ := exists_eventually_bql hclosing howned
  obtain ⟨_, hfree, hne, hn⟩ :=
    ((frequently_bql hfair hclosing).and_eventually (howned.and howner)).exists
  obtain rfl : owner = .finalizer := hn.symm.trans (hfree.resolve_left hne)
  obtain ⟨_, hasleep, hs, hn⟩ := (hasleep.and_eventually (hclosing.and howner)).exists
  exact hs.inv.finalizerUnlocked (FinalizerPc.isUnlocked_of_isAsleep hasleep) hn

/-- **Every hook comes out after a shutdown**, if the process stays alive. -/
theorem exists_outside (hfair : r.IsFair) {n : ℕ} (hset : (r.state n).backend.shutdown = true)
    (i : Fin k) : ∃ m, n ≤ m ∧ ((r.state m).hook i = .outside ∨ (r.state m).crashed = true) := by
  by_contra hnever
  push Not at hnever
  have hclosing : ∀ᶠ m in atTop, Closing (r.state m) := by
    refine eventually_atTop.mpr ⟨n, eventually_closing hset fun m hm => ?_⟩
    exact Bool.eq_false_of_not_eq_true (hnever m hm).2
  have hcounted : ∀ᶠ m in atTop, (r.state m).hook i ≠ .outside :=
    eventually_atTop.mpr ⟨n, fun m hm => (hnever m hm).1⟩
  rcases eventually_isInside_or hclosing i with hout | hin
  · -- then it is on its way in or out, and does not stay there
    refine not_eventually_between hfair hclosing i ?_
    filter_upwards [hout, hcounted] with m hout hcounted
    exact HookPc.eq_counted_or_eq_leaving hcounted hout
  · exact not_eventually_isInside hfair hclosing i hin

end

/-! ## Safe teardown -/

/-- The teardown is safe: the process lives, no hook has the device after the manager is freed, and every
hook comes out after the shutdown. -/
structure Run.IsSafe (r : Run k device) : Prop where
  alive : ∀ n, (r.state n).crashed = false
  noUseAfterFree : ∀ n i, ((r.state n).hook i).isInside = true →
    (r.state n).finalizer.hasFreed = false
  leaves : ∀ n, (r.state n).backend.shutdown = true →
    ∀ i, ∃ m, n ≤ m ∧ (r.state m).hook i = .outside

/-- No hook is between its last look at `rust_state` and its use when the finalizer clears it. -/
def CanClear (s : State k) : Prop :=
  s.finalizer = .clearState → ∀ i, (s.hook i).isDeref = false

instance (s : State k) : Decidable (CanClear s) :=
  inferInstanceAs (Decidable (s.finalizer = .clearState → ∀ i, (s.hook i).isDeref = false))

/-- The process is alive, and a hook that follows `rust_state` finds it. -/
structure Sound (s : State k) : Prop where
  alive : s.crashed = false
  deref : ∀ i, (s.hook i).isDeref = true → s.device.hasState = true

theorem sound_initial : Sound (initial k device) := ⟨rfl, fun _ => nofun⟩

section

variable {s : State k} {move : Move k} {i : Fin k}

/-- The finalizer clears `rust_state` at one place. -/
theorem hasState_finalizeStep (h : s.finalizer ≠ .clearState) :
    (finalizeStep s).device.hasState = s.device.hasState := by
  unfold finalizeStep
  cases hpc : s.finalizer with
  | clearState => exact absurd hpc h
  | checkState | drainLoad =>
    simp only
    split <;> rfl
  | _ => rfl

@[simp] theorem crashed_finalizeStep : (finalizeStep s).crashed = s.crashed := by
  unfold finalizeStep
  repeat' split
  all_goals rfl

/-- Only the finalizer clears `rust_state`, and nothing sets it again. -/
theorem hasState_step (hs : Inv s) (h : enabled s move = true)
    (hmove : move = .finalize → s.finalizer ≠ .clearState) :
    (step s move).device.hasState = s.device.hasState := by
  have hready := (enabled_eq_true.mp h).2
  cases move with
  | hook j c => exact (hs.hookEffect hready c).state
  | finalize => exact hasState_finalizeStep (hmove rfl)
  | _ => rfl

/-- Nothing sets `rust_state` again. -/
theorem hasState_step_of_not (hs : Inv s) (h : enabled s move = true)
    (hstate : s.device.hasState = false) : (step s move).device.hasState = false := by
  by_cases hclear : move = .finalize ∧ s.finalizer = .clearState
  · obtain ⟨rfl, hpc⟩ := hclear
    show (finalizeStep s).device.hasState = false
    rw [finalizeStep, hpc]
    rfl
  · rw [hasState_step hs h fun hmove hpc => hclear ⟨hmove, hpc⟩]
    exact hstate

/-- `rust_state` is cleared under the hook. -/
structure Lost (s : State k) (i : Fin k) : Prop where
  deref : (s.hook i).isDeref = true
  state : s.device.hasState = false

/-- A hook is caught by the finalizer. -/
theorem exists_lost (h : ¬ CanClear s) : ∃ i, Lost (finalizeStep s) i := by
  unfold CanClear at h
  push Not at h
  obtain ⟨hpc, i, hi⟩ := h
  refine ⟨i, ?_, ?_⟩
  · rw [hook_finalizeStep]
    exact Bool.eq_true_of_not_eq_false hi
  · rw [finalizeStep, hpc]
    rfl

namespace Lost

/-- Nothing holds up a lost hook. -/
theorem ready (hl : Lost s i) : hookReady s i = true := by
  have hderef := hl.deref
  cases hpc : s.hook i with
  | deref now => rw [hookReady, hpc]
  | _ =>
    rw [hpc] at hderef
    cases hderef

/-- It follows a null pointer. -/
theorem crashed (hl : Lost s i) (c : HookChoice) : (hookStep c i s).crashed = true := by
  have hderef := hl.deref
  cases hpc : s.hook i with
  | deref now => simp only [hookStep, hpc, hl.state, Bool.false_eq_true, if_false]
  | _ =>
    rw [hpc] at hderef
    cases hderef

/-- No other step saves it. -/
protected theorem step (hl : Lost s i) (hs : Inv s) (h : enabled s move = true)
    (halive : (step s move).crashed = false) : Lost (step s move) i := by
  refine ⟨?_, hasState_step_of_not hs h hl.state⟩
  have hderef := hl.deref
  rcases hook_step_cases hs h i with hsame | ⟨hout, _⟩ | ⟨c, rfl, _⟩
  · rwa [hsame]
  · rw [hout] at hderef
    cases hderef
  · exact absurd (halive.symm.trans (hl.crashed c)) Bool.false_ne_true

end Lost

/-- **A step keeps the process alive** if `rust_state` is not cleared under a hook. -/
protected theorem Sound.step (hsound : Sound s) (hs : Inv s) (h : enabled s move = true)
    (hmove : move = .finalize → CanClear s) : Sound (step s move) := by
  have hready := (enabled_eq_true.mp h).2
  have halive : (step s move).crashed = false := by
    cases move with
    | hook j c =>
      by_contra hcrash
      rcases (hs.hookEffect hready c).crashed (Bool.eq_true_of_not_eq_false hcrash) with
        hwas | ⟨hderef, hstate⟩
      · exact Bool.false_ne_true (hsound.alive.symm.trans hwas)
      · exact Bool.false_ne_true (hstate.symm.trans (hsound.deref j hderef))
    | finalize => exact crashed_finalizeStep.trans hsound.alive
    | _ => exact hsound.alive
  refine ⟨halive, fun i hi => ?_⟩
  rcases hook_step_cases hs h i with hsame | ⟨_, hcounted⟩ | ⟨c, _, heffect⟩
  · rw [hsame] at hi
    rw [hasState_step hs h fun hfinal hclear =>
      Bool.false_ne_true ((hmove hfinal hclear i).symm.trans hi)]
    exact hsound.deref i hi
  · rw [hcounted] at hi
    cases hi
  · rw [heffect.state]
    refine (heffect.deref hi).resolve_right ?_
    rw [halive]
    exact Bool.false_ne_true

end

section

variable {r : Run k device}

/-- The process lives if `rust_state` is never cleared under a hook. -/
theorem sound_of_canClear (h : ∀ n, r.move n = some .finalize → CanClear (r.state n)) (n : ℕ) :
    Sound (r.state n) := by
  refine r.forall_state sound_initial (fun n move hmove henabled hsound => ?_) n
  refine hsound.step (inv_of_steps (r.steps n)) henabled ?_
  rintro rfl
  exact h n hmove

/-- **A hook under which `rust_state` is cleared ends the process.** -/
theorem exists_crashed (hfair : r.IsFair) {n : ℕ} (hmove : r.move n = some .finalize)
    (hclear : ¬ CanClear (r.state n)) : ∃ m, (r.state m).crashed = true := by
  have hinv (m : ℕ) : Inv (r.state m) := inv_of_steps (r.steps m)
  by_contra hnever
  have halive (m : ℕ) : (r.state m).crashed = false :=
    Bool.eq_false_of_not_eq_true fun h => hnever ⟨m, h⟩
  obtain ⟨i, hi⟩ := exists_lost hclear
  have hlost (m : ℕ) (hm : n + 1 ≤ m) : Lost (r.state m) i := by
    refine r.of_le (P := fun s => Lost s i) ?_ (fun m _ hl => ?_) hm
    · rw [(r.next n _ hmove).2]
      exact hi
    · refine r.next_of_step (P := fun s => Lost s i) hl fun move hmove h => hl.step (hinv m) h ?_
      rw [← (r.next m move hmove).2]
      exact halive (m + 1)
  -- the step that ends the process is due for ever
  have hstuck := (hfair.hook i).eventually_not_ok_of_unused ?_
  · obtain ⟨m, hm, hlater⟩ := (hstuck.and (eventually_ge_atTop (n + 1))).exists
    have hno := hm (.hook i ⟨0, ⟨0, false, false, false, false⟩⟩) ⟨_, rfl⟩
    rw [enabled, halive m, ready, (hlost m hlater).ready] at hno
    cases hno
  · filter_upwards [eventually_ge_atTop (n + 1)] with m hm
    rintro move ⟨c, rfl⟩ hmove
    have hcrash := halive (m + 1)
    rw [(r.next m _ hmove).2] at hcrash
    exact Bool.false_ne_true (hcrash.symm.trans ((hlost m hm).crashed c))

end

/-- **When the teardown is safe.** In every fair run with any number of vCPUs: the process lives, no hook
has the device after the manager is freed, and every hook comes out after the shutdown, exactly when the
finalizer never clears `rust_state` while a hook is between its last look at it and its use. -/
theorem isSafe_iff (r : Run k device) (hfair : r.IsFair) :
    r.IsSafe ↔ ∀ n, r.move n = some .finalize → CanClear (r.state n) := by
  constructor
  · intro hsafe n hmove
    by_contra hclear
    obtain ⟨m, hcrash⟩ := exists_crashed hfair hmove hclear
    exact Bool.false_ne_true ((hsafe.alive m).symm.trans hcrash)
  · intro hclear
    have halive (n : ℕ) : (r.state n).crashed = false := (sound_of_canClear hclear n).alive
    refine ⟨halive, fun n i hi => ?_, fun n hset i => ?_⟩
    · exact hasFreed_of_isInside (r.steps n) hi
    · obtain ⟨m, hm, hout | hcrash⟩ := exists_outside hfair hset i
      · exact ⟨m, hm, hout⟩
      · exact absurd ((halive m).symm.trans hcrash) Bool.false_ne_true

/-! ## Runs -/

/-- The process is gone, or all threads are done. -/
def AtRest (s : State k) : Prop :=
  s.crashed = true ∨ ((∀ i, s.hook i = .outside) ∧ s.finalizer = .finished ∧ s.bql = .nobody)

instance (s : State k) : Decidable (AtRest s) :=
  inferInstanceAs (Decidable (s.crashed = true ∨
    ((∀ i, s.hook i = .outside) ∧ s.finalizer = .finished ∧ s.bql = .nobody)))

/-- A run that comes to rest is fair. -/
theorem isFair_ofMoves {moves : List (Move k)} (h : passes step enabled (initial k device) moves = true)
    (hrest : AtRest (moves.foldl step (initial k device))) : Run.IsFair (Behaviour.ofMoves moves h) := by
  have hnot {move : Move k}
      (hdone : ∀ s : State k, (∀ i, s.hook i = .outside) → s.finalizer = .finished →
        s.bql = .nobody → ready s move = false) :
      enabled (moves.foldl step (initial k device)) move = false := by
    rcases hrest with hcrashed | ⟨hhook, hfinalizer, hbql⟩
    · rw [enabled, hcrashed]
      rfl
    · rw [enabled, hdone _ hhook hfinalizer hbql, Bool.and_false]
  refine ⟨fun i => ?_, ?_, fun i => ?_, ?_⟩
  · refine Behaviour.fair_ofMoves h ?_
    rintro move ⟨c, rfl⟩
    refine hnot fun s hhook _ _ => ?_
    rw [ready, hookReady, hhook]
  · refine Behaviour.fair_ofMoves h ?_
    rintro move rfl
    refine hnot fun s _ hfinalizer _ => ?_
    rw [ready, finalizerReady, hfinalizer]
  · refine Behaviour.fair_ofMoves h ?_
    rintro move rfl
    refine hnot fun s _ _ hbql => ?_
    rw [ready, hbql]
    exact Bool.and_false _
  · refine Behaviour.fair_ofMoves h ?_
    rintro move rfl
    refine hnot fun s _ _ hbql => ?_
    rw [ready, hbql]
    rfl

/-- A node with an id, whose next boundary is due. -/
def dueDevice : Device := ⟨1, 0, false, true, true⟩

/-- A step of a hook that does not spin for long. -/
def plainHook (i : Fin k) : Move k := .hook i ⟨0, ⟨0, false, false, true, false⟩⟩

/-- The vCPU comes by and falls asleep in the quantum wait. -/
def sleepMoves (i : Fin k) : List (Move k) := .enter i :: List.replicate 17 (plainHook i)

/-- The vCPU that sleeps in the runs below. -/
def sleeper : Fin (k + 1) := ⟨0, k.succ_pos⟩

/-- The hook sleeps when the finalizer begins, and is drained. -/
def drainedMoves : List (Move 1) :=
  .finalizerLock :: (sleepMoves sleeper ++ .begin :: (List.replicate 7 .finalize ++
    (List.replicate 7 (plainHook sleeper) ++ (List.replicate 4 .finalize ++
      .worker ⟨none, false⟩ :: (List.replicate 3 .finalize ++ [.finalizerUnlock])))))

def drainedRun : Run 1 dueDevice := Behaviour.ofMoves drainedMoves (by decide +kernel)

/-- The steps of the finalizer find no hook in the way. -/
def clearsOk (s : State k) : Move k → Bool
  | .finalize => decide (CanClear s)
  | _ => true

/-- The sleeping hook is woken and leaves, and the device is finalized. -/
theorem isSafe_drainedRun :
    drainedRun.IsFair ∧ drainedRun.IsSafe ∧ (drainedRun.state 43).finalizer = .finished := by
  have hfair : drainedRun.IsFair := isFair_ofMoves _ (by decide +kernel)
  have hclears : passes step clearsOk (initial 1 dueDevice) drainedMoves = true := by decide +kernel
  refine ⟨hfair, (isSafe_iff _ hfair).mpr fun n hmove => ?_, by decide +kernel⟩
  exact of_decide_eq_true (ok_of_passes step clearsOk hclears hmove)

/-- The other of two vCPUs. -/
def racer : Fin 2 := ⟨1, Nat.one_lt_two⟩

/-- A hook without the big lock has looked at `rust_state` when the finalizer clears it. -/
def raceMoves : List (Move 2) :=
  .finalizerLock :: (sleepMoves sleeper ++ .enter racer :: (List.replicate 4 (plainHook racer) ++
    .begin :: (List.replicate 3 .finalize ++ [plainHook racer])))

def raceRun : Run 2 dueDevice := Behaviour.ofMoves raceMoves (by decide +kernel)

/-- **The race**: the hook follows a null pointer. The other vCPU is in the quantum wait when the shutdown
flag is set, and never leaves it. -/
theorem not_isSafe_raceRun :
    raceRun.IsFair ∧ ¬ raceRun.IsSafe ∧ (raceRun.state 28).backend.shutdown = true ∧
      ∀ m, 28 ≤ m → (raceRun.state m).hook 0 = .waiting 0 false ⟨.asleep, false⟩ := by
  have hcrash : (raceRun.state 29).crashed = true := by decide +kernel
  refine ⟨isFair_ofMoves _ (by decide +kernel), fun hsafe => ?_, by decide +kernel, fun m hm => ?_⟩
  · exact Bool.false_ne_true ((hsafe.alive 29).symm.trans hcrash)
  · rcases Nat.eq_or_lt_of_le hm with rfl | hlater
    · decide +kernel
    · rw [raceRun, Behaviour.state_ofMoves _ (show raceMoves.length ≤ m from hlater)]
      decide +kernel

end Virtmcu.Clock.Hooks
