import Virtmcu.Foundations.Fairness
import Virtmcu.Ieee802154.Transmission

/-! # Transmissions come to an end

After a transmit command the radio is in one of three phases: it backs off, its frame is on the air, or the
transmission is done (`Phase`). What arrives meanwhile decides whether the channel is busy when the backoff
timer fires, and nothing more: the timer gives up at the fifth time. Every callback of the two timers lowers
the number of callbacks that are left, so that in a run where the timers fire the last phase is reached
(`transmission_finishes`). -/

namespace Virtmcu.Ieee802154

open Comms Devices Filter Option

variable {fb : Flatbuffers} {search : BinarySearch (ℕ ×ₗ ℕ)} {s t : State}

/-! ## Runs without the guest -/

/-- The state after an event. -/
def advance (fb : Flatbuffers) (search : BinarySearch (ℕ ×ₗ ℕ)) (s : State) (event : Event) : State :=
  (step fb search s event).1

/-- What may happen while the guest writes no register and nobody resets the device. -/
def mayHappen (s : State) : Event → Bool
  | .write _ _ | .reset => false
  | .backoffTimer => isExpired s.backoffTimer s.now
  | .txTimer => isExpired s.txTimer s.now
  | _ => true

/-- The transmit command, by the register of its own or by the state register. -/
def IsTransmit (event : Event) : Prop :=
  ∃ offset value, event = .write offset value ∧
    (registerAt offset = .txGo ∨ registerAt offset = .state ∧ value = 3)

/-- The timer was armed at the state `s`, for a whole number of periods below `2 ^ 5`. -/
def ArmedFrom (s : State) (timer : Option ℕ) : Prop :=
  ∃ count < 2 ^ 5, timer = some (expiryOf (s.now.toUInt64 + (count * unitBackoffPeriodNs).toUInt64))

theorem armedFrom_scheduleBackoff (hbe : s.be ≤ macMaxBe) :
    ArmedFrom s (scheduleBackoff s).backoffTimer := by
  refine ⟨_, ?_, rfl⟩
  calc (deterministicRandom s.nodeId s.now.toUInt64 s.txSequence).toNat % 2 ^ s.be
      < 2 ^ s.be := Nat.mod_lt _ (Nat.two_pow_pos _)
    _ ≤ 2 ^ 5 := Nat.pow_le_pow_right (by decide) hbe

theorem step_transmit {command : Event} (hcommand : IsTransmit command) (hstate : s.state ≠ .tx) :
    advance fb search s command = started s := by
  obtain ⟨offset, value, rfl, hregister⟩ := hcommand
  have hgo : txGo s = started s := by rw [txGo_eq, if_neg hstate]
  have hwrite : write offset value s = some (started s) := by
    rcases hregister with hregister | ⟨hregister, rfl⟩
    · simp only [write, hregister, hgo]
    · simp only [write, hregister]
      rw [← hgo]
      rfl
  rw [advance, step, stepChecked, hwrite, getD_some]

/-! ## Phases -/

/-- How far the transmission is, after some callbacks of the backoff timer. The data frames published
before it are `frames`. -/
inductive Phase (frames : List Published) (count : ℕ) (s : State) : Prop
  | backoff (hstate : s.state = .tx) (htimer : s.backoffTimer.isSome) (hair : s.txTimer = none)
      (hnb : s.nb = count) (hcount : count ≤ macMaxCsmaBackoffs) (hframes : s.dataFrames = frames)
  | airtime (hstate : s.state = .tx) (hback : s.backoffTimer = none) (htimer : s.txTimer.isSome)
      (hcount : count ≤ macMaxCsmaBackoffs + 1) (hframes : ∃ f, s.dataFrames = frames ++ [f])
  | done (hstate : s.state = .idle) (hback : s.backoffTimer = none) (hair : s.txTimer = none)
      (hlen : s.txLen = 0) (hdone : hasBit s.status statusDone = true)
      (hcount : count ≤ macMaxCsmaBackoffs + 1)

theorem phase_started (s : State) (hair : s.txTimer = none) : Phase s.dataFrames 0 (started s) :=
  .backoff rfl rfl hair rfl (Nat.zero_le _) rfl

variable {frames : List Published} {count : ℕ}

/-- Reception leaves the phase alone. -/
theorem Phase.of_sameTx (h : Phase frames count s) (hsame : SameTx s t)
    (hdone : hasBit s.status statusDone = true → hasBit t.status statusDone = true) :
    Phase frames count t := by
  cases h with
  | backoff hstate htimer hair hnb hcount hframes =>
    refine .backoff ?_ ?_ ?_ ?_ hcount ?_
    · rw [hsame.state, hstate]
    · rw [hsame.backoffTimer, htimer]
    · rw [hsame.txTimer, hair]
    · rw [hsame.nb, hnb]
    · rw [hsame.dataFrames, hframes]
  | airtime hstate hback htimer hcount hframes =>
    refine .airtime ?_ ?_ ?_ hcount ?_
    · rw [hsame.state, hstate]
    · rw [hsame.backoffTimer, hback]
    · rw [hsame.txTimer, htimer]
    · rw [hsame.dataFrames]
      exact hframes
  | done hstate hback hair hlen hbit hcount =>
    refine .done ?_ ?_ ?_ ?_ (hdone hbit) hcount
    · rw [hsame.state, hstate]
    · rw [hsame.backoffTimer, hback]
    · rw [hsame.txTimer, hair]
    · rw [hsame.txLen, hlen]

/-- A passive event clears no bit of the status register, and the clock does not go back. -/
theorem status_of_isPassive {event : Event} (hpassive : event.isPassive = true)
    (hstep : stepChecked fb search s event = some t) :
    (hasBit s.status statusDone = true → hasBit t.status statusDone = true) ∧ s.now ≤ t.now := by
  cases event with
  | tick time =>
    simp only [stepChecked, Option.some.injEq] at hstep
    subst hstep
    split
    next hlater => exact ⟨id, hlater.1⟩
    next => exact ⟨id, le_rfl⟩
  | read offset =>
    obtain ⟨rxReadPos, rfl⟩ := read_changes hstep
    exact ⟨id, le_rfl⟩
  | frame data =>
    obtain ⟨_, _, _, _, _, rfl⟩ := onRxFrame_changes hstep
    exact ⟨id, le_rfl⟩
  | rxTimer =>
    simp only [stepChecked] at hstep
    split at hstep
    · obtain ⟨_, _, _, _, _, _, delivers, rfl⟩ := checkRxQueue_changes hstep
      refine ⟨fun hbit => ?_, le_rfl⟩
      cases delivers with
      | false => exact hbit
      | true =>
        change hasBit (s.status ||| statusRx) statusDone = true
        rw [hasBit_or, hbit, Bool.true_or]
    · exact Option.some.inj hstep ▸ ⟨id, le_rfl⟩
  | ackTimer =>
    simp only [stepChecked, Option.some.injEq] at hstep
    subst hstep
    unfold ackTimerCb
    split
    · split <;> exact ⟨id, le_rfl⟩
    · exact ⟨id, le_rfl⟩
  | write offset value | backoffTimer | txTimer | reset => cases hpassive

theorem hasBit_finishTx (s : State) : hasBit (finishTx s).status statusDone = true := by
  rw [finishTx, hasBit_or, show hasBit statusDone statusDone = true by decide, Bool.or_true]

/-- The backoff timer: the next backoff, the frame, or the end. -/
theorem Phase.backoffTimer (fb : Flatbuffers) (search : BinarySearch (ℕ ×ₗ ℕ))
    (h : Phase frames count s) (hinv : Inv s) (hexpired : isExpired s.backoffTimer s.now = true) :
    Phase frames (count + 1) (advance fb search s .backoffTimer) ∧
      ((advance fb search s .backoffTimer).dataFrames = frames ∨
        ∃ f, (advance fb search s .backoffTimer).dataFrames = frames ++ [f] ∧
          (advance fb search s .backoffTimer).txTimer.isSome) := by
  obtain ⟨expiry, htimer, -⟩ := isExpired_iff.mp hexpired
  cases h with
  | airtime _ hback | done _ hback =>
    rw [hback] at htimer
    cases htimer
  | backoff hstate _ hair hnb hcount hframes =>
    unfold advance
    -- given up, again, or on the air
    rcases step_backoffTimer fb search hinv hexpired with ⟨-, heq⟩ | ⟨hmore, heq⟩ | heq
    all_goals rw [heq]
    · exact ⟨.done rfl rfl hair rfl (hasBit_finishTx _) (Nat.succ_le_succ hcount), .inl hframes⟩
    · refine ⟨.backoff hstate rfl hair ?_ (hnb ▸ hmore) hframes, .inl hframes⟩
      change s.nb + 1 = count + 1
      rw [hnb]
    · have hnew := dataFrames_aired s
      rw [hframes] at hnew
      exact ⟨.airtime hstate rfl rfl (Nat.succ_le_succ hcount) ⟨_, hnew⟩, .inr ⟨_, hnew, rfl⟩⟩

theorem step_txTimer (hexpired : isExpired s.txTimer s.now = true) :
    (step fb search s .txTimer).1 = finishTx { s with txTimer := none } := by
  simp only [step, stepChecked, hexpired, if_true, getD_some]
  rfl

/-- The airtime timer ends the transmission. -/
theorem Phase.txTimer (fb : Flatbuffers) (search : BinarySearch (ℕ ×ₗ ℕ))
    (h : Phase frames count s) (hexpired : isExpired s.txTimer s.now = true) :
    Phase frames count (advance fb search s .txTimer) ∧ ∃ f, s.dataFrames = frames ++ [f] := by
  obtain ⟨expiry, htimer, -⟩ := isExpired_iff.mp hexpired
  cases h with
  | backoff _ _ hair | done _ _ hair =>
    rw [hair] at htimer
    cases htimer
  | airtime hstate hback _ hcount hframes =>
    refine ⟨?_, hframes⟩
    rw [advance, step_txTimer hexpired]
    exact .done rfl hback rfl rfl (hasBit_finishTx _) hcount

/-! ## Along a run -/

section Run

variable {start : State} (r : Behaviour (advance fb search) mayHappen start)

/-- How often the backoff timer fired before a time. -/
def backoffs (n : ℕ) : ℕ :=
  ((List.range n).filter fun m => decide (r.move m = some .backoffTimer)).length

theorem backoffs_succ (n : ℕ) :
    backoffs r (n + 1) = backoffs r n + if r.move n = some .backoffTimer then 1 else 0 := by
  unfold backoffs
  rw [List.range_succ, List.filter_append, List.length_append]
  split
  next hmove => simp [hmove]
  next hmove => simp [hmove]

/-- No data frame was published, or one whose airtime is running or has been completed. -/
def Outcome (frames : List Published) (n : ℕ) : Prop :=
  (r.state n).dataFrames = frames ∨ ∃ f, (r.state n).dataFrames = frames ++ [f] ∧
    ((r.state n).txTimer.isSome ∨
      ∃ k < n, r.move k = some .txTimer ∧ (r.state k).dataFrames = frames ++ [f])

/-- The transmission is done: at most five callbacks of the backoff timer, and no data frame or one whose
airtime timer has fired. -/
structure Finished (frames : List Published) (n : ℕ) : Prop where
  state : (r.state n).state = .idle
  txLen : (r.state n).txLen = 0
  done : hasBit (r.state n).status statusDone = true
  backoffs_le : backoffs r n ≤ 5
  outcome : (r.state n).dataFrames = frames ∨ ∃ f, (r.state n).dataFrames = frames ++ [f] ∧
    ∃ k < n, r.move k = some .txTimer ∧ (r.state k).dataFrames = frames ++ [f]

/-- A timer that is armed will be due. -/
def ReachesTimers : Prop :=
  ∀ n expiry, (r.state n).backoffTimer = some expiry ∨ (r.state n).txTimer = some expiry →
    ∃ m, expiry ≤ (r.state m).now

/-- What is known at a time of the run. -/
structure Tracked (frames : List Published) (n : ℕ) : Prop where
  inv : Inv (r.state n)
  phase : Phase frames (backoffs r n) (r.state n)
  outcome : Outcome r frames n

variable {r}

variable {n : ℕ}

/-- What a move can be. -/
theorem move_cases {event : Event} (hmove : r.move n = some event) :
    event.isPassive = true ∨ (event = .backoffTimer ∧
      isExpired (r.state n).backoffTimer (r.state n).now = true) ∨
      (event = .txTimer ∧ isExpired (r.state n).txTimer (r.state n).now = true) := by
  obtain ⟨hok, -⟩ := r.next n event hmove
  cases event with
  | write offset value | reset => cases hok
  | backoffTimer => exact .inr (.inl ⟨rfl, hok⟩)
  | txTimer => exact .inr (.inr ⟨rfl, hok⟩)
  | tick time | read offset | frame data | rxTimer | ackTimer => exact .inl rfl

theorem sameTx_of_move {event : Event} (hinv : Inv (r.state n)) (hmove : r.move n = some event)
    (hpassive : event.isPassive = true) : SameTx (r.state n) (r.state (n + 1)) ∧
      (hasBit (r.state n).status statusDone = true → hasBit (r.state (n + 1)).status statusDone = true) ∧
      (r.state n).now ≤ (r.state (n + 1)).now := by
  have hstep := stepChecked_eq_step fb search event hinv
  rw [(r.next n event hmove).2]
  exact ⟨sameTx_of_isPassive hpassive hstep, status_of_isPassive hpassive hstep⟩

theorem Outcome.of_sameTx (h : Outcome r frames n)
    (hframes : (r.state (n + 1)).dataFrames = (r.state n).dataFrames)
    (htimer : (r.state (n + 1)).txTimer = (r.state n).txTimer) : Outcome r frames (n + 1) := by
  unfold Outcome
  rw [hframes, htimer]
  refine h.imp_right ?_
  rintro ⟨f, hf, hsome⟩
  refine ⟨f, hf, hsome.imp_right ?_⟩
  rintro ⟨k, hk, hfired⟩
  exact ⟨k, Nat.lt_succ_of_lt hk, hfired⟩

theorem Tracked.succ (h : Tracked r frames n) : Tracked r frames (n + 1) := by
  cases hmove : r.move n with
  | none =>
    have hsame := r.idle n hmove
    have hcount : backoffs r (n + 1) = backoffs r n := by rw [backoffs_succ, hmove]; rfl
    exact ⟨hsame ▸ h.inv, hcount ▸ hsame ▸ h.phase, h.outcome.of_sameTx (by rw [hsame]) (by rw [hsame])⟩
  | some event =>
    have hnext := (r.next n event hmove).2
    have hinv : Inv (r.state (n + 1)) := hnext ▸ h.inv.step fb search event
    have hcount := backoffs_succ r n
    rw [hmove] at hcount
    rcases move_cases hmove with hpassive | ⟨rfl, hexpired⟩ | ⟨rfl, hexpired⟩
    · -- reception: neither the phase nor the count of callbacks changes
      obtain ⟨hsame, hdone, -⟩ := sameTx_of_move h.inv hmove hpassive
      have hne : (some event : Option Event) ≠ some .backoffTimer := by
        rintro ⟨⟩
        cases hpassive
      rw [if_neg hne, Nat.add_zero] at hcount
      exact ⟨hinv, hcount ▸ h.phase.of_sameTx hsame hdone,
        h.outcome.of_sameTx hsame.dataFrames hsame.txTimer⟩
    · rw [if_pos rfl] at hcount
      obtain ⟨hphase, houtcome⟩ := h.phase.backoffTimer fb search h.inv hexpired
      rw [← hnext, ← hcount] at hphase
      rw [← hnext] at houtcome
      refine ⟨hinv, hphase, houtcome.imp_right ?_⟩
      rintro ⟨f, hf, htimer⟩
      exact ⟨f, hf, .inl htimer⟩
    · -- the frame on the air is the one of the record
      replace hcount : backoffs r (n + 1) = backoffs r n := hcount
      obtain ⟨hphase, f, hf⟩ := h.phase.txTimer fb search hexpired
      rw [← hnext, ← hcount] at hphase
      refine ⟨hinv, hphase, .inr ⟨f, ?_, .inr ⟨n, Nat.lt_succ_self n, hmove, hf⟩⟩⟩
      rw [hnext, ← hf]
      exact dataFrames_step h.inv (by simp)

theorem tracked (frames : List Published) (hstart : Tracked r frames 0) (n : ℕ) : Tracked r frames n := by
  induction n with
  | zero => exact hstart
  | succ n ih => exact ih.succ

theorem now_le_succ (hinv : Inv (r.state n)) : (r.state n).now ≤ (r.state (n + 1)).now := by
  refine r.next_of_step (P := fun s => (r.state n).now ≤ s.now) le_rfl ?_
  intro event hmove _
  rcases move_cases hmove with hpassive | ⟨rfl, hexpired⟩ | ⟨rfl, hexpired⟩
  · rw [← (r.next n event hmove).2]
    exact (sameTx_of_move hinv hmove hpassive).2.2
  · unfold advance
    rcases step_backoffTimer fb search hinv hexpired with ⟨-, heq⟩ | ⟨-, heq⟩ | heq
    all_goals rw [heq]; exact le_rfl
  · rw [advance, step_txTimer hexpired]
    exact le_rfl

/-- The callbacks that are left. -/
def remaining (s : State) : ℕ :=
  (if s.backoffTimer.isSome then macMaxCsmaBackoffs + 2 - s.nb else 0) +
    if s.txTimer.isSome then 1 else 0

theorem remaining_of_sameTx (h : SameTx s t) : remaining t = remaining s := by
  rw [remaining, remaining, h.backoffTimer, h.nb, h.txTimer]

/-- A callback of the backoff timer leaves one less. -/
theorem Phase.remaining_backoffTimer (fb : Flatbuffers) (search : BinarySearch (ℕ ×ₗ ℕ))
    (h : Phase frames count s) (hinv : Inv s) (hexpired : isExpired s.backoffTimer s.now = true) :
    remaining (advance fb search s .backoffTimer) < remaining s := by
  obtain ⟨expiry, htimer, -⟩ := isExpired_iff.mp hexpired
  cases h with
  | airtime _ hback | done _ hback =>
    rw [hback] at htimer
    cases htimer
  | backoff hstate _ hair hnb hcount hframes =>
    have hbefore : remaining s = macMaxCsmaBackoffs + 2 - s.nb := by
      simp [remaining, htimer, hair]
    rw [hbefore, advance]
    rcases step_backoffTimer fb search hinv hexpired with ⟨-, heq⟩ | ⟨hmore, heq⟩ | heq
    all_goals rw [heq]
    · have hafter : remaining (givenUp s) = 0 := by
        simp [remaining, givenUp, finishTx, hair]
      omega
    · have hafter : remaining (backedOff s) = macMaxCsmaBackoffs + 2 - (s.nb + 1) := by
        simp [remaining, backedOff, scheduleBackoff, hair]
      omega
    · have hafter : remaining (aired s) = 1 := by simp [remaining, aired]
      omega

theorem remaining_txTimer (fb : Flatbuffers) (search : BinarySearch (ℕ ×ₗ ℕ))
    (hexpired : isExpired s.txTimer s.now = true) :
    remaining (advance fb search s .txTimer) < remaining s := by
  obtain ⟨expiry, htimer, -⟩ := isExpired_iff.mp hexpired
  rw [advance, step_txTimer hexpired, remaining, remaining, htimer]
  exact Nat.lt_succ_self _

/-- No move adds a callback, and a callback takes one away. -/
theorem remaining_succ (h : Tracked r frames n) : remaining (r.state (n + 1)) ≤ remaining (r.state n) ∧
      ∀ event ∈ ({.backoffTimer, .txTimer} : Set Event), r.move n = some event →
        remaining (r.state (n + 1)) < remaining (r.state n) := by
  cases hmove : r.move n with
  | none =>
    rw [r.idle n hmove]
    exact ⟨le_rfl, fun _ _ hevent => nomatch hevent⟩
  | some event =>
    have hnext := (r.next n event hmove).2
    rcases move_cases hmove with hpassive | ⟨rfl, hexpired⟩ | ⟨rfl, hexpired⟩
    · rw [remaining_of_sameTx (sameTx_of_move h.inv hmove hpassive).1]
      refine ⟨le_rfl, ?_⟩
      rintro event' hmem ⟨⟩
      rcases hmem with rfl | rfl <;> cases hpassive
    · have hlt := h.phase.remaining_backoffTimer fb search h.inv hexpired
      rw [hnext]
      exact ⟨hlt.le, fun _ _ _ => hlt⟩
    · have hlt := remaining_txTimer fb search hexpired
      rw [hnext]
      exact ⟨hlt.le, fun _ _ _ => hlt⟩

/-- From some time on no timer is due. -/
theorem exists_no_timer_due (h : ∀ n, Tracked r frames n) (hfair : r.Fair {.backoffTimer, .txTimer}) :
    ∃ N, ∀ n ≥ N, isExpired (r.state n).backoffTimer (r.state n).now = false ∧
      isExpired (r.state n).txTimer (r.state n).now = false := by
  have hnone := hfair.eventually_not_ok remaining
    (Eventually.of_forall fun n => (remaining_succ (h n)).1)
    (Eventually.of_forall fun n => (remaining_succ (h n)).2)
  obtain ⟨N, hN⟩ := eventually_atTop.mp hnone
  exact ⟨N, fun n hn => ⟨hN n hn .backoffTimer (by simp), hN n hn .txTimer (by simp)⟩⟩

/-- While no timer is due, none fires, and the timers stay as they are. -/
theorem timers_of_no_timer_due (h : ∀ n, Tracked r frames n) {N : ℕ}
    (hN : ∀ n ≥ N, isExpired (r.state n).backoffTimer (r.state n).now = false ∧
      isExpired (r.state n).txTimer (r.state n).now = false) (hn : N ≤ n) :
    (r.state n).backoffTimer = (r.state N).backoffTimer ∧ (r.state n).txTimer = (r.state N).txTimer := by
  refine r.of_le (P := fun s => s.backoffTimer = (r.state N).backoffTimer ∧
    s.txTimer = (r.state N).txTimer) ⟨rfl, rfl⟩ ?_ hn
  intro m hm hsame
  cases hmove : r.move m with
  | none =>
    rw [r.idle m hmove]
    exact hsame
  | some event =>
    rcases move_cases hmove with hpassive | ⟨-, hexpired⟩ | ⟨-, hexpired⟩
    · have htx := (sameTx_of_move (h m).inv hmove hpassive).1
      rw [htx.backoffTimer, htx.txTimer]
      exact hsame
    · rw [(hN m hm).1] at hexpired
      cases hexpired
    · rw [(hN m hm).2] at hexpired
      cases hexpired

theorem now_mono (h : ∀ n, Tracked r frames n) {m n : ℕ} (hmn : m ≤ n) :
    (r.state m).now ≤ (r.state n).now :=
  r.of_le (P := fun s => (r.state m).now ≤ s.now) le_rfl
    (fun k _ hk => hk.trans (now_le_succ (h k).inv)) hmn

/-- A timer that stays as it is and is never due is not armed, if the clock reaches its deadline. -/
theorem not_armed (h : ∀ n, Tracked r frames n) {N expiry : ℕ}
    (timer : State → Option ℕ) (hsame : ∀ n ≥ N, timer (r.state n) = timer (r.state N))
    (hdue : ∀ n ≥ N, isExpired (timer (r.state n)) (r.state n).now = false)
    (hreach : ∃ m, expiry ≤ (r.state m).now) : timer (r.state N) ≠ some expiry := by
  intro hexpiry
  obtain ⟨m, hm⟩ := hreach
  have hexpired : isExpired (timer (r.state (max N m))) (r.state (max N m)).now = true := by
    refine isExpired_iff.mpr ⟨expiry, ?_, hm.trans (now_mono h (le_max_right N m))⟩
    rw [hsame _ (le_max_left N m), hexpiry]
  rw [hdue _ (le_max_left N m)] at hexpired
  cases hexpired

/-- The transmission is done when no timer is due any more. -/
theorem finished_of_no_timer_due (h : ∀ n, Tracked r frames n) {N : ℕ}
    (hN : ∀ n ≥ N, isExpired (r.state n).backoffTimer (r.state n).now = false ∧
      isExpired (r.state n).txTimer (r.state n).now = false) (hclock : ReachesTimers r) :
    Finished r frames N := by
  have hsame := fun n hn => timers_of_no_timer_due h hN (n := n) hn
  cases (h N).phase with
  | backoff _ htimer =>
    obtain ⟨expiry, hexpiry⟩ := isSome_iff_exists.mp htimer
    exact absurd hexpiry (not_armed h State.backoffTimer (fun n hn => (hsame n hn).1)
      (fun n hn => (hN n hn).1) (hclock N expiry (.inl hexpiry)))
  | airtime _ _ htimer =>
    obtain ⟨expiry, hexpiry⟩ := isSome_iff_exists.mp htimer
    exact absurd hexpiry (not_armed h State.txTimer (fun n hn => (hsame n hn).2)
      (fun n hn => (hN n hn).2) (hclock N expiry (.inr hexpiry)))
  | done hstate _ hair hlen hdone hcount =>
    refine ⟨hstate, hlen, hdone, hcount, (h N).outcome.imp_right ?_⟩
    rintro ⟨f, hf, htimer | hfired⟩
    · rw [hair] at htimer
      cases htimer
    · exact ⟨f, hf, hfired⟩

/-- Each backoff is scheduled for a whole number of periods. -/
theorem armedFrom_of_move (hinv : Inv (r.state n)) (hmove : r.move n = some .backoffTimer)
    (harmed : (r.state (n + 1)).backoffTimer.isSome) :
    ArmedFrom (r.state n) (r.state (n + 1)).backoffTimer := by
  obtain ⟨hok, hnext⟩ := r.next n .backoffTimer hmove
  rw [hnext] at harmed ⊢
  unfold advance at harmed ⊢
  rcases step_backoffTimer fb search hinv hok with ⟨-, heq⟩ | ⟨-, heq⟩ | heq
  all_goals rw [heq] at harmed ⊢
  · cases harmed
  · exact armedFrom_scheduleBackoff (s := { r.state n with
      backoffTimer := none, nb := (r.state n).nb + 1, be := min ((r.state n).be + 1) macMaxBe })
      (min_le_right _ _)
  · cases harmed

end Run

/-- What a transmit command in state `s` leads to, in a run that goes on from there. -/
structure Finishes (s : State) {start : State} (r : Behaviour (advance fb search) mayHappen start) :
    Prop where
  first_delay : ArmedFrom s (r.state 0).backoffTimer
  delays : ∀ n, r.move n = some .backoffTimer → (r.state (n + 1)).backoffTimer.isSome →
    ArmedFrom (r.state n) (r.state (n + 1)).backoffTimer
  finished : ∃ N, ∀ n ≥ N, Finished r s.dataFrames n

/-- **Every transmission comes to its end.** -/
theorem transmission_finishes (fb : Flatbuffers) (search : BinarySearch (ℕ ×ₗ ℕ)) (nodeId : UInt32)
    (events : List Event) (s : State) (hs : finalState (step fb search) (initial nodeId) events = s)
    (hstate : s.state ≠ .tx) (hair : s.txTimer = none) (command : Event) (hcommand : IsTransmit command)
    (r : Behaviour (advance fb search) mayHappen (advance fb search s command))
    (hfair : r.Fair {.backoffTimer, .txTimer}) (hclock : ReachesTimers r) : Finishes s r := by
  have hinv : Inv s := hs ▸ finalState_invariant (step fb search)
    (fun _ event h => h.step fb search event) (inv_initial nodeId) events
  have hzero : r.state 0 = started s := by rw [r.state_zero, step_transmit hcommand hstate]
  have hstart : Tracked r s.dataFrames 0 := by
    refine ⟨?_, ?_, .inl ?_⟩
    · rw [r.state_zero]
      exact hinv.step fb search command
    · rw [hzero]
      exact phase_started s hair
    · rw [hzero]
      rfl
  have htracked := tracked s.dataFrames hstart
  refine ⟨?_, fun n => armedFrom_of_move (htracked n).inv, ?_⟩
  · rw [hzero]
    exact armedFrom_scheduleBackoff (s := { s with
      nb := 0, be := macMinBe, state := .tx, loaded := s.txFifo.take s.txLen,
      transmission := s.transmission + 1 }) (show macMinBe ≤ macMaxBe by decide)
  · obtain ⟨N, hN⟩ := exists_no_timer_due htracked hfair
    exact ⟨N, fun n hn => finished_of_no_timer_due htracked (fun m hm => hN m (hn.trans hm)) hclock⟩

/-- One byte in the transmit FIFO. -/
def oneByte : State := advance plainFlatbuffers (linearSearch _) (initial 1) (.write 0x00 0xAB)

/-- The channel is free when the backoff ends, and the airtime passes. -/
def quietMoves : List Event := [.tick 10000000, .backoffTimer, .tick 20000000, .txTimer]

def quietRun : Behaviour (advance plainFlatbuffers (linearSearch _)) mayHappen
    (advance plainFlatbuffers (linearSearch _) oneByte (.write 0x08 0)) :=
  Behaviour.ofMoves quietMoves (by decide +kernel)

theorem transmission_finishes_quiet : Finishes oneByte quietRun := by
  refine transmission_finishes plainFlatbuffers (linearSearch _) 1 [.write 0x00 0xAB] oneByte rfl
    (by decide +kernel) (by decide +kernel) (.write 0x08 0) ⟨0x08, 0, rfl, .inl rfl⟩ quietRun
    (Behaviour.fair_ofMoves _ ?_) ?_
  · rintro event (rfl | rfl) <;> decide +kernel
  · have hdeadlines : ∀ n, (∀ e ∈ (quietRun.state n).backoffTimer, e ≤ 20000000) ∧
        ∀ e ∈ (quietRun.state n).txTimer, e ≤ 20000000 :=
      Behaviour.forall_state_ofMoves (P := fun s : State =>
        (∀ e ∈ s.backoffTimer, e ≤ 20000000) ∧ ∀ e ∈ s.txTimer, e ≤ 20000000) _ (by decide +kernel)
    intro n expiry harmed
    have hle : expiry ≤ 20000000 := harmed.elim ((hdeadlines n).1 expiry) ((hdeadlines n).2 expiry)
    exact ⟨4, hle.trans (by decide +kernel)⟩

end Virtmcu.Ieee802154
