import Virtmcu.Comms.NetdevTx
import Virtmcu.Foundations.Fairness

/-! # Does the network card transmit what it accepted?

The guard with which `netdev_cleanup` waits for the vCPUs lives to the end of the block, so the thread is
joined with the mutex held; and the thread takes the mutex before every packet, and before it exits. If it
is not through when `netdev_cleanup` takes the mutex for the second time, the two wait for each other
(`Jammed`). During the join the big lock is free: a call of the guest then takes it and waits for the
mutex, and `netdev_cleanup` does not get it back (`Crossed`).

In a run without either, and with sizes the header can hold, `netdev_cleanup` returns and everything
accepted has been published. A packet without data is published too, though `netdev_receive` returns 0
for it (`transmits_iff`). -/

namespace Virtmcu.Comms.NetdevTx

open Filter List

/-! ## Waiting for each other -/

section

variable {s : State} {move : Move}

/-- A call of the guest leaves the other threads alone. -/
theorem guestStep_frame : ∃ active sequence channel bql guest accepted overflowed, guestStep s =
      { s with
        activeVcpuCount := active
        txSequence := sequence
        channel := channel
        bql := bql
        guest := guest
        accepted := accepted
        overflowed := overflowed } := by
  unfold guestStep
  simp only [trySend_eq]
  repeat' split
  all_goals exact ⟨_, _, _, _, _, _, _, rfl⟩

theorem txStep_frame : ∃ channel tx published aborted, txStep s =
    { s with channel := channel, tx := tx, published := published, aborted := aborted } := by
  unfold txStep
  repeat' split
  all_goals exact ⟨_, _, _, _, rfl⟩

variable (choice : CleanupChoice)

theorem cleanupStep_frame : ∃ running bql cleanup, cleanupStep choice s =
    { s with running := running, bql := bql, cleanup := cleanup } := by
  unfold cleanupStep
  repeat' split
  all_goals exact ⟨_, _, _, rfl⟩

@[simp] theorem cleanup_guestStep : (guestStep s).cleanup = s.cleanup := by
  obtain ⟨_, _, _, _, _, _, _, h⟩ := guestStep_frame (s := s)
  rw [h]

@[simp] theorem tx_guestStep : (guestStep s).tx = s.tx := by
  obtain ⟨_, _, _, _, _, _, _, h⟩ := guestStep_frame (s := s)
  rw [h]

@[simp] theorem aborted_guestStep : (guestStep s).aborted = s.aborted := by
  obtain ⟨_, _, _, _, _, _, _, h⟩ := guestStep_frame (s := s)
  rw [h]

@[simp] theorem cleanup_txStep : (txStep s).cleanup = s.cleanup := by
  obtain ⟨_, _, _, _, h⟩ := txStep_frame (s := s)
  rw [h]

@[simp] theorem guest_txStep : (txStep s).guest = s.guest := by
  obtain ⟨_, _, _, _, h⟩ := txStep_frame (s := s)
  rw [h]

@[simp] theorem accepted_txStep : (txStep s).accepted = s.accepted := by
  obtain ⟨_, _, _, _, h⟩ := txStep_frame (s := s)
  rw [h]

@[simp] theorem tx_cleanupStep : (cleanupStep choice s).tx = s.tx := by
  obtain ⟨_, _, _, h⟩ := cleanupStep_frame (s := s) choice
  rw [h]

@[simp] theorem guest_cleanupStep : (cleanupStep choice s).guest = s.guest := by
  obtain ⟨_, _, _, h⟩ := cleanupStep_frame (s := s) choice
  rw [h]

@[simp] theorem aborted_cleanupStep :
    (cleanupStep choice s).aborted = s.aborted := by
  obtain ⟨_, _, _, h⟩ := cleanupStep_frame (s := s) choice
  rw [h]

/-- The steps of `netdev_cleanup` in their order; the loop around `wait_timeout` is not entered. -/
def CleanupPc.next (subscribed : Bool) : CleanupPc → CleanupPc
  | .stopping => .stopped
  | .stopped => if subscribed then .draining else .relocking
  | .draining => .relocking
  | .relocking => .locked
  | .locked => .counted
  | .counted => .joining
  | .joining => .joined
  | .joined => .returned
  | pc => pc

namespace CleanupPc

variable {pc : CleanupPc} (subscribed : Bool)

theorem next_ne_notCalled (h : pc ≠ .notCalled) : pc.next subscribed ≠ .notCalled := by
  cases pc <;> cases subscribed <;> simp_all [next]

/-- Where the mutex is taken. -/
theorem eq_relocking (h : (pc.next subscribed).hasMutex = true) (hbefore : pc.hasMutex ≠ true) :
    pc = .relocking := by
  cases pc <;> cases subscribed <;> simp_all [next, hasMutex]

/-- How it comes to the join. -/
theorem eq_counted_or_joining (h : pc.next subscribed = .joining ∨ pc.next subscribed = .joined) :
    pc = .counted ∨ pc = .joining := by
  cases pc <;> cases subscribed <;> simp_all [next]

end CleanupPc

theorem Inv.cleanup_cleanupStep (hs : Inv s) (choice : CleanupChoice) :
    (cleanupStep choice s).cleanup = s.cleanup.next choice.subscribed := by
  unfold cleanupStep
  cases hpc : s.cleanup with
  | locked =>
    have hactive := hs.active_of_idle (hs.guest_idle (by rw [hpc]; rfl))
    simp only [hactive]
    rfl
  | awaiting | woken timedOut =>
    have hwaiting := hs.waiting
    rw [hpc] at hwaiting
    cases hwaiting
  | notCalled => exact hpc
  | stopped =>
    rw [CleanupPc.next]
    dsimp only
    split <;> rfl
  | returned => exact hpc
  | _ => rfl

/-- `netdev_cleanup` is called, or goes on by steps of its own. -/
theorem Inv.cleanup_step_cases (hs : Inv s) (h : enabled s move = true) :
    (step s move).cleanup = s.cleanup ∨ (s.cleanup = .notCalled ∧ (step s move).cleanup = .stopping) ∨
      ∃ choice, move = .cleanup choice ∧ cleanupReady s = true ∧
        (step s move).cleanup = s.cleanup.next choice.subscribed := by
  have hready := (enabled_eq_true.mp h).2
  cases move with
  | tick time | call data => exact .inl rfl
  | guest => exact .inl cleanup_guestStep
  | tx => exact .inl cleanup_txStep
  | callCleanup => exact .inr (.inl ⟨(of_decide_eq_true hready).1, rfl⟩)
  | cleanup choice =>
    exact .inr (.inr ⟨choice, rfl, hready, hs.cleanup_cleanupStep choice⟩)

/-- The thread exits only while the mutex is free. -/
theorem exited_step_iff (h : enabled s move = true) (hmutex : s.cleanup.hasMutex = true) :
    (step s move).tx = .exited ↔ s.tx = .exited := by
  have hready := (enabled_eq_true.mp h).2
  cases move with
  | guest =>
    show (guestStep s).tx = .exited ↔ _
    rw [tx_guestStep]
  | cleanup choice =>
    show (cleanupStep choice s).tx = .exited ↔ _
    rw [tx_cleanupStep]
  | tx =>
    have hready : txReady s = true := hready
    unfold txReady at hready
    show (txStep s).tx = .exited ↔ _
    unfold txStep
    cases htx : s.tx with
    | head =>
      rw [htx, hmutex] at hready
      cases hready
    | receiving | publishing p =>
      dsimp only
      split <;> simp
    | exited => simp [htx]
  | _ => rfl

/-- `netdev_cleanup` has the mutex, and the thread it joins is not through. -/
structure Jammed (s : State) : Prop where
  hasMutex : s.cleanup.hasMutex = true
  tx : s.tx ≠ .exited

protected theorem Jammed.step (hj : Jammed s) (hs : Inv s) (h : enabled s move = true) :
    Jammed (step s move) := by
  refine ⟨?_, mt (exited_step_iff h hj.hasMutex).mp hj.tx⟩
  have hmutex := hj.hasMutex
  rcases hs.cleanup_step_cases h with hsame | ⟨hpc, -⟩ | ⟨choice, -, hready, hnext⟩
  · rw [hsame]
    exact hmutex
  · rw [hpc] at hmutex
    cases hmutex
  · have hjoined := mt hs.joined hj.tx
    rw [hnext]
    unfold cleanupReady at hready
    cases hpc : s.cleanup with
    | joining =>
      rw [hpc] at hready
      exact absurd (of_decide_eq_true hready) hj.tx
    | joined =>
      rw [hpc] at hjoined
      exact absurd rfl hjoined
    | locked | woken timedOut | counted => rfl
    | _ =>
      rw [hpc] at hmutex
      cases hmutex

/-- `netdev_cleanup` has the mutex and needs the big lock; a call of the guest has the big lock and needs
the mutex. -/
structure Crossed (s : State) : Prop where
  joining : s.cleanup = .joining ∨ s.cleanup = .joined
  guest : ∃ data, s.guest = .calling data

/-- A call that waits for the mutex stays where it is. -/
theorem guest_step_of_hasMutex (h : enabled s move = true) (hmutex : s.cleanup.hasMutex = true)
    {data : List UInt8} (hguest : s.guest = .calling data) : (step s move).guest = s.guest := by
  have hready := (enabled_eq_true.mp h).2
  cases move with
  | tick time => rfl
  | call data' =>
    have hidle := (of_decide_eq_true hready).1
    rw [hguest] at hidle
    cases hidle
  | guest =>
    have hready : guestReady s = true := hready
    unfold guestReady at hready
    rw [hguest, hmutex] at hready
    cases hready
  | tx => exact guest_txStep
  | callCleanup => rfl
  | cleanup choice => exact guest_cleanupStep choice

/-- A call begins with a call. -/
theorem guest_step_of_idle (h : enabled s move = true) (hidle : s.guest = .idle)
    (hcall : ∀ data, move ≠ .call data) : (step s move).guest = .idle := by
  cases move with
  | call data => exact absurd rfl (hcall data)
  | guest =>
    have hready : guestReady s = true := (enabled_eq_true.mp h).2
    rw [guestReady, hidle] at hready
    cases hready
  | tx => exact guest_txStep.trans hidle
  | cleanup choice => exact (guest_cleanupStep choice).trans hidle
  | _ => exact hidle

protected theorem Crossed.step (hc : Crossed s) (hs : Inv s) (h : enabled s move = true) :
    Crossed (step s move) := by
  obtain ⟨hjoining, data, hguest⟩ := hc
  have hmutex : s.cleanup.hasMutex = true := by
    rcases hjoining with hpc | hpc <;> rw [hpc] <;> rfl
  refine ⟨?_, data, (guest_step_of_hasMutex h hmutex hguest).trans hguest⟩
  rcases hs.cleanup_step_cases h with hsame | ⟨hpc, -⟩ | ⟨choice, -, hready, hnext⟩
  · rw [hsame]
    exact hjoining
  · rw [hpc] at hmutex
    cases hmutex
  · rw [hnext]
    rcases hjoining with hpc | hpc
    · rw [hpc]
      exact .inr rfl
    · -- the big lock is not free
      have hbql : s.bql = .guest := hs.bql_guest.mpr (by rw [hguest]; exact GuestPc.noConfusion)
      unfold cleanupReady at hready
      rw [hpc, hbql] at hready
      cases hready

end

/-! ## Runs -/

abbrev Run := Behaviour step enabled initial

/-- Calls of the guest, the thread and `netdev_cleanup` go on when they can. -/
structure Run.IsFair (r : Run) : Prop where
  guest : r.Fair {.guest}
  tx : r.Fair {.tx}
  cleanup : r.Fair {move | ∃ choice, move = .cleanup choice}

section

variable (r : Run)

theorem inv_state (n : ℕ) : Inv (r.state n) := by
  refine steps_invariant (P := Inv) ?_ (r.steps n) inv_initial
  rintro s s' ⟨move, henabled, rfl⟩ hs
  exact hs.step henabled

theorem exists_ledger (n : ℕ) : ∃ done, Ledger (r.state n) done := by
  refine steps_invariant (P := fun s => ∃ done, Ledger s done) ?_ (r.steps n) ⟨[], ledger_initial⟩
  rintro s s' ⟨move, henabled, rfl⟩ ⟨done, hs⟩
  exact hs.step henabled

variable {r}

/-- What every step keeps holds at all later times. -/
theorem of_le_of_step {P : State → Prop}
    (hstep : ∀ s move, Inv s → enabled s move = true → P s → P (step s move)) {m n : ℕ}
    (hmn : m ≤ n) (hm : P (r.state m)) : P (r.state n) := by
  refine r.of_le hm (fun k _ hk => ?_) hmn
  exact r.next_of_step hk fun move _ henabled => hstep _ move (inv_state r k) henabled hk

theorem returned_of_le {m n : ℕ} (hmn : m ≤ n) (hm : (r.state m).cleanup = .returned) :
    (r.state n).cleanup = .returned := by
  refine of_le_of_step (P := fun s => s.cleanup = .returned) (fun s move hs henabled hpc => ?_) hmn hm
  rcases hs.cleanup_step_cases henabled with hsame | ⟨hnot, -⟩ | ⟨choice, -, -, hnext⟩
  · exact hsame.trans hpc
  · rw [hpc] at hnot
    cases hnot
  · rw [hnext, hpc]
    rfl

theorem called_of_le {m n : ℕ} (hmn : m ≤ n) (hm : (r.state m).cleanup ≠ .notCalled) :
    (r.state n).cleanup ≠ .notCalled := by
  refine of_le_of_step (P := fun s => s.cleanup ≠ .notCalled) (fun s move hs henabled hpc => ?_) hmn hm
  rcases hs.cleanup_step_cases henabled with hsame | ⟨hnot, -⟩ | ⟨choice, -, -, hnext⟩
  · rwa [hsame]
  · exact absurd hnot hpc
  · rw [hnext]
    exact CleanupPc.next_ne_notCalled choice.subscribed hpc

variable {s : State}

theorem mem_accepted_step {move : Move} {p : TxPacket} (hp : p ∈ s.accepted) :
    p ∈ (step s move).accepted := by
  have hbooks {s' : State} (h : s'.books = s.books) : p ∈ s'.accepted := by
    rw [show s'.accepted = s.accepted from congrArg Prod.fst h]
    exact hp
  cases move with
  | guest =>
    rcases guestStep_cases (s := s) with hsame | ⟨data, -, hsend⟩
    · exact hbooks hsame
    · show p ∈ (guestStep s).accepted
      rw [show (guestStep s).accepted = (trySend data s).accepted from congrArg Prod.fst hsend, trySend_eq]
      exact mem_append_left _ hp
  | tx =>
    show p ∈ (txStep s).accepted
    rw [accepted_txStep]
    exact hp
  | cleanup choice => exact hbooks (books_cleanupStep choice)
  | _ => exact hp

/-! ### Runs in which `netdev_cleanup` does not return -/

/-- From where there is no way to the return, `netdev_cleanup` has not returned before and does not
return later. -/
theorem not_returned_of_trapped {P : State → Prop}
    (hstep : ∀ s move, Inv s → enabled s move = true → P s → P (step s move))
    (hout : ∀ s, P s → s.cleanup ≠ .returned) {n : ℕ} (hbefore : (r.state n).cleanup ≠ .returned)
    (htrapped : P (r.state (n + 1))) (m : ℕ) : (r.state m).cleanup ≠ .returned := by
  rcases Nat.lt_or_ge n m with hlt | hge
  · exact hout _ (of_le_of_step hstep hlt htrapped)
  · exact fun hreturned => hbefore (returned_of_le hge hreturned)

/-- When the mutex is taken for the second time before the thread is through, this is the end. -/
theorem not_returned_of_jammed {n : ℕ} {choice : CleanupChoice}
    (hmove : r.move n = some (.cleanup choice)) (hpc : (r.state n).cleanup = .relocking)
    (htx : (r.state n).tx ≠ .exited) (m : ℕ) : (r.state m).cleanup ≠ .returned := by
  refine not_returned_of_trapped (fun s move hs henabled hj => Jammed.step hj hs henabled)
    (fun s hj hreturned => ?_) (by rw [hpc]; decide) ?_ m
  · have hmutex := hj.hasMutex
    rw [hreturned] at hmutex
    cases hmutex
  · rw [(r.next n _ hmove).2]
    have hnext := (inv_state r n).cleanup_cleanupStep choice
    rw [hpc] at hnext
    refine ⟨?_, ?_⟩
    · show (cleanupStep choice (r.state n)).cleanup.hasMutex = true
      rw [hnext]
      rfl
    · show (cleanupStep choice (r.state n)).tx ≠ .exited
      rwa [tx_cleanupStep]

/-- When the guest calls while the thread is joined, this is the end. -/
theorem not_returned_of_crossed {n : ℕ} {data : List UInt8} (hmove : r.move n = some (.call data))
    (hpc : (r.state n).cleanup = .joining ∨ (r.state n).cleanup = .joined) (m : ℕ) :
    (r.state m).cleanup ≠ .returned := by
  have hjoining {s : State} (h : s.cleanup = .joining ∨ s.cleanup = .joined) :
      s.cleanup ≠ .returned := by
    rcases h with h | h <;> rw [h] <;> decide
  refine not_returned_of_trapped (fun s move hs henabled hc => Crossed.step hc hs henabled)
    (fun s hc => hjoining hc.joining) (hjoining hpc) ?_ m
  rw [(r.next n _ hmove).2]
  exact ⟨hpc, data, rfl⟩

/-! ### Runs in which it returns -/

/-- What a run has to keep clear of for the device to be closed. -/
structure Run.IsClear (r : Run) : Prop where
  /-- When `netdev_cleanup` takes the mutex for the second time, the thread is through. -/
  exited : ∀ n choice, r.move n = some (.cleanup choice) → (r.state n).cleanup = .relocking →
    (r.state n).tx = .exited
  /-- The guest does not call while the thread is joined. -/
  alone : ∀ n data, r.move n = some (.call data) →
    (r.state n).cleanup ≠ .joining ∧ (r.state n).cleanup ≠ .joined
  /-- No packet is empty, and every size is an `u32`. -/
  sizes : ∀ n, ∀ p ∈ (r.state n).accepted, 0 < p.data.length ∧ p.data.length < 2 ^ 32

variable {done : List TxPacket}

/-- The process lives as long as all sizes can be written. -/
theorem aborted_step {move : Move} (hs : Ledger s done)
    (hroom : s.overflowed = false) (hsmall : ∀ p ∈ s.accepted, p.data.length < 2 ^ 32)
    (halive : s.aborted = false) : (step s move).aborted = false := by
  cases move with
  | guest =>
    show (guestStep s).aborted = false
    rw [aborted_guestStep, halive]
  | tx =>
    show (txStep s).aborted = false
    unfold txStep
    cases htx : s.tx with
    | head | receiving =>
      dsimp only
      split <;> exact halive
    | publishing p =>
      have hp : p ∈ s.accepted := by
        rw [hs.accepted hroom, htx]
        exact mem_append_right _ (mem_append_left _ (mem_singleton_self p))
      simp only [if_pos (hsmall p hp)]
      exact halive
    | exited => exact halive
  | cleanup choice =>
    show (cleanupStep choice s).aborted = false
    rw [aborted_cleanupStep, halive]
  | _ => exact halive

namespace Run.IsClear

theorem aborted (hclear : r.IsClear) (hroom : ∀ n, (r.state n).overflowed = false) (n : ℕ) :
    (r.state n).aborted = false := by
  refine r.forall_state (P := fun s => s.aborted = false) rfl (fun k move _ _ hk => ?_) n
  obtain ⟨done, hledger⟩ := exists_ledger r k
  exact aborted_step hledger (hroom k) (fun p hp => (hclear.sizes k p hp).2) hk

/-- Wherever `netdev_cleanup` has the mutex, the thread is through. -/
theorem tx_exited (hclear : r.IsClear) (n : ℕ) :
    (r.state n).cleanup.hasMutex = true → (r.state n).tx = .exited := by
  refine r.forall_state (P := fun s => s.cleanup.hasMutex = true → s.tx = .exited) nofun
    (fun k move hmove henabled hk hmutex => ?_) n
  by_cases hbefore : (r.state k).cleanup.hasMutex = true
  · exact (exited_step_iff henabled hbefore).mpr (hk hbefore)
  · -- it has just been taken
    rcases (inv_state r k).cleanup_step_cases henabled with hsame | ⟨-, hpc⟩ | ⟨t, rfl, -, hnext⟩
    · rw [hsame] at hmutex
      exact absurd hmutex hbefore
    · rw [hpc] at hmutex
      cases hmutex
    · rw [hnext] at hmutex
      have hpc := CleanupPc.eq_relocking t.subscribed hmutex hbefore
      show (cleanupStep t (r.state k)).tx = .exited
      rw [tx_cleanupStep]
      exact hclear.exited k t hmove hpc

/-- While the thread is joined, no call of the guest is on its way. -/
theorem guest_idle (hclear : r.IsClear) (n : ℕ) :
    (r.state n).cleanup = .joining ∨ (r.state n).cleanup = .joined → (r.state n).guest = .idle := by
  refine r.forall_state
    (P := fun s => s.cleanup = .joining ∨ s.cleanup = .joined → s.guest = .idle) (fun _ => rfl)
    (fun k move hmove henabled hk hpc => ?_) n
  have hs := inv_state r k
  rcases hs.cleanup_step_cases henabled with hsame | ⟨-, hstopping⟩ | ⟨t, rfl, -, hnext⟩
  · rw [hsame] at hpc
    refine guest_step_of_idle henabled (hk hpc) fun data hcall => ?_
    obtain ⟨hjoining, hjoined⟩ := hclear.alone k data (hcall ▸ hmove)
    exact hpc.elim hjoining hjoined
  · rw [hstopping] at hpc
    rcases hpc with h | h <;> cases h
  · rw [hnext] at hpc
    show (cleanupStep t (r.state k)).guest = .idle
    rw [guest_cleanupStep]
    -- the big lock was just given up, or the thread was joined before
    rcases CleanupPc.eq_counted_or_joining t.subscribed hpc with hcounted | hjoining
    · exact hs.guest_idle (by rw [hcounted]; rfl)
    · exact hk (.inl hjoining)

end Run.IsClear

/-- How far `netdev_cleanup` is from its return. -/
def CleanupPc.rank : CleanupPc → ℕ
  | .notCalled => 10
  | .stopping => 9
  | .stopped => 8
  | .draining => 7
  | .relocking => 6
  | .locked => 5
  | .awaiting => 5
  | .woken _ => 5
  | .counted => 4
  | .joining => 3
  | .joined => 2
  | .returned => 0

theorem rank_next (hs : Inv s) (h : cleanupReady s = true) (subscribed : Bool) :
    (s.cleanup.next subscribed).rank < s.cleanup.rank := by
  have hwaiting := hs.waiting
  revert h hwaiting
  unfold cleanupReady
  cases s.cleanup <;> cases subscribed <;> simp [CleanupPc.next, CleanupPc.rank, CleanupPc.isWaiting]

theorem rank_step_le {move : Move} (hs : Inv s) (h : enabled s move = true) :
    (step s move).cleanup.rank ≤ s.cleanup.rank := by
  rcases hs.cleanup_step_cases h with hsame | ⟨hpc, hstopping⟩ | ⟨choice, -, hready, hnext⟩
  · rw [hsame]
  · rw [hpc, hstopping]
    exact Nat.le_succ 9
  · rw [hnext]
    exact (rank_next hs hready choice.subscribed).le

/-- `netdev_cleanup` comes to a point where it cannot go on. -/
theorem eventually_cleanupReady (hfair : r.IsFair) (halive : ∀ n, (r.state n).aborted = false) :
    ∀ᶠ n in atTop, cleanupReady (r.state n) = false := by
  have hstuck := hfair.cleanup.eventually_not_ok (fun s => s.cleanup.rank)
    (Eventually.of_forall fun n => ?_) (Eventually.of_forall fun n => ?_)
  · filter_upwards [hstuck] with n hn
    have hno := hn (.cleanup ⟨true, false⟩) ⟨_, rfl⟩
    rwa [enabled, halive] at hno
  · refine r.next_of_step (P := fun s => s.cleanup.rank ≤ (r.state n).cleanup.rank) le_rfl ?_
    exact fun move _ henabled => rank_step_le (inv_state r n) henabled
  · rintro move ⟨choice, rfl⟩ hmove
    obtain ⟨henabled, hnext⟩ := r.next n _ hmove
    rw [hnext]
    show (cleanupStep choice (r.state n)).cleanup.rank < _
    rw [(inv_state r n).cleanup_cleanupStep choice]
    exact rank_next (inv_state r n) (enabled_eq_true.mp henabled).2 choice.subscribed

/-- The subscription gets the big lock back: a call of the guest that has it finds `running` false and
returns. -/
theorem exists_bql_nobody (hfair : r.IsFair) (halive : ∀ n, (r.state n).aborted = false) {N : ℕ}
    (hpc : ∀ n, N ≤ n → (r.state n).cleanup = .draining) : ∃ n, N ≤ n ∧ (r.state n).bql = .nobody := by
  by_contra hnone
  push Not at hnone
  have hguest (n : ℕ) (hn : N ≤ n) : ∃ data, (r.state n).guest = .calling data := by
    have hs := inv_state r n
    have hrunning : (r.state n).running = false := by rw [hs.running, hpc n hn]; rfl
    have hcleanup : (r.state n).bql ≠ .cleanup := by
      rw [Ne, hs.bql_cleanup, hpc n hn]
      exact Bool.false_ne_true
    have hbql : (r.state n).bql = .guest := by
      cases hbql : (r.state n).bql with
      | nobody => exact absurd hbql (hnone n hn)
      | guest => rfl
      | cleanup => exact absurd hbql hcleanup
    have hcall := hs.bql_guest.mp hbql
    have hinside := mt hs.inside (by rw [hrunning]; exact Bool.false_ne_true)
    cases hg : (r.state n).guest with
    | idle => exact absurd hg hcall
    | calling data => exact ⟨data, rfl⟩
    | counted data | sent => exact absurd (by rw [hg]; rfl) hinside
  have hcan : ∃ᶠ n in atTop, ∃ move ∈ ({.guest} : Set Move), enabled (r.state n) move = true := by
    refine (eventually_atTop.mpr ⟨N, fun n hn => ⟨.guest, rfl, ?_⟩⟩).frequently
    obtain ⟨data, hcalling⟩ := hguest n hn
    refine enabled_eq_true.mpr ⟨halive n, ?_⟩
    show guestReady (r.state n) = true
    rw [guestReady, hcalling, hpc n hn]
    rfl
  obtain ⟨n, hn, move, rfl, hmove⟩ := frequently_atTop.mp (hfair.guest hcan) N
  -- the call returns, and nobody has the big lock
  refine hnone (n + 1) (by omega) ?_
  obtain ⟨data, hcalling⟩ := hguest n hn
  have hrunning : (r.state n).running = false := by rw [(inv_state r n).running, hpc n hn]; rfl
  rw [(r.next n _ hmove).2]
  show (guestStep (r.state n)).bql = .nobody
  rw [guestStep, hcalling]
  simp only [hrunning]
  rfl

/-- **`netdev_cleanup` returns** in a run that keeps clear. -/
theorem exists_returned (hfair : r.IsFair) (hroom : ∀ n, (r.state n).overflowed = false)
    (hcalled : ∃ n, (r.state n).cleanup ≠ .notCalled) (hclear : r.IsClear) :
    ∃ n, (r.state n).cleanup = .returned := by
  have halive := hclear.aborted hroom
  obtain ⟨N, hN⟩ := eventually_atTop.mp (eventually_cleanupReady hfair halive)
  obtain ⟨M, hM⟩ := hcalled
  by_contra hnone
  push Not at hnone
  have hdraining (n : ℕ) (hn : max N M ≤ n) :
      (r.state n).cleanup = .draining ∧ (r.state n).bql ≠ .nobody := by
    have hs := inv_state r n
    have hready := hN n ((le_max_left N M).trans hn)
    have hstarted : (r.state n).cleanup ≠ .notCalled :=
      called_of_le ((le_max_right N M).trans hn) hM
    have hwaiting := hs.waiting
    unfold cleanupReady at hready
    cases hpc : (r.state n).cleanup with
    | notCalled => exact absurd hpc hstarted
    | draining =>
      rw [hpc] at hready
      exact ⟨rfl, of_decide_eq_false hready⟩
    | joining =>
      rw [hpc] at hready
      exact absurd (hclear.tx_exited n (by rw [hpc]; rfl)) (of_decide_eq_false hready)
    | joined =>
      rw [hpc] at hready
      have hbql := hs.bql_nobody (hclear.guest_idle n (.inr hpc)) (by rw [hpc]; rfl)
      exact absurd hbql (of_decide_eq_false hready)
    | returned => exact absurd hpc (hnone n)
    | awaiting | woken timedOut =>
      rw [hpc] at hwaiting
      cases hwaiting
    | _ =>
      rw [hpc] at hready
      cases hready
  obtain ⟨n, hn, hbql⟩ := exists_bql_nobody hfair halive fun n hn => (hdraining n hn).1
  exact (hdraining n hn).2 hbql

/-! ### What is published -/

/-- The packets for which `netdev_receive` returns a positive size. -/
def State.taken (s : State) : List TxPacket := s.accepted.filter fun p => decide (0 < p.data.length)

/-- What is published is what was taken, each packet once and in order, with consecutive numbers and
non-decreasing times. -/
structure Complete (s : State) : Prop where
  published : s.published = s.taken.map TxPacket.message
  sequence : s.taken.map TxPacket.sequence = (List.range s.taken.length).map UInt64.ofNat
  vtimes : s.taken.Pairwise fun p q => p.vtime ≤ q.vtime

/-- `netdev_cleanup` returns, and by then everything is published. -/
structure Run.Transmits (r : Run) : Prop where
  returns : ∃ n, (r.state n).cleanup = .returned
  complete : ∀ n, (r.state n).cleanup = .returned → Complete (r.state n)

/-- When the thread is joined, everything accepted has been published. -/
theorem Ledger.accepted_of_joined (hledger : Ledger s done)
    (hs : Inv s) (hroom : s.overflowed = false) (hjoined : s.cleanup.hasJoined = true) :
    s.accepted = done := by
  have hexited := hs.joined hjoined
  rw [hledger.accepted hroom, (hs.exited hexited).2, hexited]
  exact append_nil done

theorem taken_eq (h : ∀ p ∈ s.accepted, 0 < p.data.length) : s.taken = s.accepted :=
  filter_eq_self.mpr fun p hp => decide_eq_true (h p hp)

/-- At the return, everything is in order exactly if no packet was empty. -/
theorem complete_iff (hledger : Ledger s done) (hs : Inv s)
    (hroom : s.overflowed = false) (hreturned : s.cleanup = .returned) :
    Complete s ↔ ∀ p ∈ s.accepted, 0 < p.data.length := by
  have hdone := hledger.accepted_of_joined hs hroom (by rw [hreturned]; rfl)
  have hpublished := hledger.published
  rw [← hdone] at hpublished
  constructor
  · intro hcomplete p hp
    have hlen : s.taken.length = s.accepted.length := by
      have hsame := congrArg List.length (hcomplete.published.symm.trans hpublished)
      rwa [length_map, length_map] at hsame
    exact of_decide_eq_true (length_filter_eq_length_iff.mp hlen p hp)
  · intro hsizes
    have htaken := taken_eq hsizes
    refine ⟨?_, ?_, ?_⟩
    · rw [htaken, hpublished]
    · rw [htaken, hledger.sequence]
    · rw [htaken]
      exact hledger.vtimes

/-- **When the network card transmits everything it accepted.** In every fair run in which the channel is
never full and `netdev_cleanup` is called: it returns, and what is published is then what the guest was
told is accepted, in order, once, numbered and with non-decreasing times, exactly when the thread is
through before the mutex is taken for the second time, the guest does not call while the thread is
joined, and all packets have a size that is an `u32` and not zero. -/
theorem transmits_iff (r : Run) (hfair : r.IsFair) (hroom : ∀ n, (r.state n).overflowed = false)
    (hcalled : ∃ n, (r.state n).cleanup ≠ .notCalled) : r.Transmits ↔ r.IsClear := by
  constructor
  · rintro ⟨⟨N, hN⟩, hcomplete⟩
    refine ⟨fun n choice hmove hpc => ?_, fun n data hmove => ?_, fun n p hp => ?_⟩
    · by_contra htx
      exact not_returned_of_jammed hmove hpc htx N hN
    · refine ⟨fun hpc => ?_, fun hpc => ?_⟩
      · exact not_returned_of_crossed hmove (Or.inl hpc) N hN
      · exact not_returned_of_crossed hmove (Or.inr hpc) N hN
    · -- at a later time at which it has returned
      have hreturned := returned_of_le (le_max_right n N) hN
      have hmem : p ∈ (r.state (max n N)).accepted :=
        of_le_of_step (P := fun s => p ∈ s.accepted) (fun s move _ _ h => mem_accepted_step h)
          (le_max_left n N) hp
      obtain ⟨done, hledger⟩ := exists_ledger r (max n N)
      have hs := inv_state r (max n N)
      have hsizes := (complete_iff hledger hs (hroom _) hreturned).mp (hcomplete _ hreturned)
      have hdone := hledger.accepted_of_joined hs (hroom _) (by rw [hreturned]; rfl)
      exact ⟨hsizes p hmem, hledger.small p (hdone ▸ hmem)⟩
  · intro hclear
    refine ⟨exists_returned hfair hroom hcalled hclear, fun n hreturned => ?_⟩
    obtain ⟨done, hledger⟩ := exists_ledger r n
    refine (complete_iff hledger (inv_state r n) (hroom n) hreturned).mpr fun p hp => ?_
    exact (hclear.sizes n p hp).1

end

/-! ### Two runs -/

/-- No thread can go on. -/
def AtRest (s : State) : Prop :=
  guestReady s = false ∧ txReady s = false ∧ cleanupReady s = false

instance (s : State) : Decidable (AtRest s) :=
  inferInstanceAs (Decidable (guestReady s = false ∧ txReady s = false ∧ cleanupReady s = false))

/-- A run that comes to rest is fair. -/
theorem isFair_ofMoves {moves : List Move} (h : passes step enabled initial moves = true)
    (hrest : AtRest (moves.foldl step initial)) : Run.IsFair (Behaviour.ofMoves moves h) := by
  obtain ⟨hguest, htx, hcleanup⟩ := hrest
  have hnot {move : Move} (hready : ready (moves.foldl step initial) move = false) :
      enabled (moves.foldl step initial) move = false := by
    rw [enabled, hready, Bool.and_false]
  refine ⟨?_, ?_, ?_⟩
  · refine Behaviour.fair_ofMoves h ?_
    rintro move rfl
    exact hnot hguest
  · refine Behaviour.fair_ofMoves h ?_
    rintro move rfl
    exact hnot htx
  · refine Behaviour.fair_ofMoves h ?_
    rintro move ⟨choice, rfl⟩
    exact hnot hcleanup

/-- The steps of a run that keeps clear. -/
def keepsClear (s : State) : Move → Bool
  | .cleanup _ => decide (s.cleanup = .relocking → s.tx = .exited)
  | .call _ => decide (s.cleanup ≠ .joining ∧ s.cleanup ≠ .joined)
  | _ => true

theorem isClear_ofMoves {moves : List Move} (h : passes step enabled initial moves = true)
    (hclear : passes step keepsClear initial moves = true)
    (hsizes : ∀ n ≤ moves.length, ∀ p ∈ ((Behaviour.ofMoves moves h).state n).accepted,
      0 < p.data.length ∧ p.data.length < 2 ^ 32) : Run.IsClear (Behaviour.ofMoves moves h) where
  exited _ _ hmove := of_decide_eq_true (ok_of_passes step keepsClear hclear hmove)
  alone _ _ hmove := of_decide_eq_true (ok_of_passes step keepsClear hclear hmove)
  sizes := Behaviour.forall_state_ofMoves h
    (P := fun s => ∀ p ∈ s.accepted, 0 < p.data.length ∧ p.data.length < 2 ^ 32) hsizes

/-- The guest sends a packet of one byte. -/
def sendMoves : List Move := [.tick 5, .call [7], .guest, .guest, .guest]

/-- A step of `netdev_cleanup` with a subscription and no timeout. -/
def plainCleanup : Move := .cleanup ⟨true, false⟩

/-- The packet is published, and the thread is through before the mutex is taken again. -/
def closedMoves : List Move :=
  List.flatten [sendMoves, [.tx, .tx, .tx, .callCleanup, plainCleanup, .tx], List.replicate 7 plainCleanup]

def closedRun : Run := Behaviour.ofMoves closedMoves (by decide +kernel)

theorem transmits_closedRun : closedRun.Transmits ∧
    (closedRun.state 18).published = [TxPacket.message ⟨5, 0, [7]⟩] := by
  have hfair : closedRun.IsFair := isFair_ofMoves _ (by decide +kernel)
  have hroom : ∀ n, (closedRun.state n).overflowed = false :=
    Behaviour.forall_state_ofMoves (P := fun s : State => s.overflowed = false) _
      (by decide +kernel)
  have hclear : closedRun.IsClear := isClear_ofMoves _ (by decide +kernel) (by decide +kernel)
  exact ⟨(transmits_iff closedRun hfair hroom ⟨18, by decide +kernel⟩).mpr hclear, by decide +kernel⟩

/-- The thread is at the mutex when it is taken again, and a packet is in the channel. -/
def jammedMoves : List Move := sendMoves ++ .callCleanup :: List.replicate 6 plainCleanup

def jammedRun : Run := Behaviour.ofMoves jammedMoves (by decide +kernel)

/-- **The packet is accepted and never published**, and `netdev_cleanup` does not return. -/
theorem not_transmits_jammedRun : jammedRun.IsFair ∧ (∀ n, (jammedRun.state n).overflowed = false) ∧
    (jammedRun.state 6).cleanup = .stopping ∧ (jammedRun.state 6).accepted = [⟨5, 0, [7]⟩] ∧
      ¬ jammedRun.Transmits ∧
        ∀ n, (jammedRun.state n).published = [] ∧ (jammedRun.state n).cleanup ≠ .returned := by
  have hroom : ∀ n, (jammedRun.state n).overflowed = false :=
    Behaviour.forall_state_ofMoves (P := fun s : State => s.overflowed = false) _
      (by decide +kernel)
  have hnever : ∀ n, (jammedRun.state n).published = [] ∧ (jammedRun.state n).cleanup ≠ .returned :=
    Behaviour.forall_state_ofMoves (P := fun s : State => s.published = [] ∧ s.cleanup ≠ .returned) _
      (by decide +kernel)
  refine ⟨isFair_ofMoves _ (by decide +kernel), hroom, by decide +kernel, by decide +kernel, ?_, hnever⟩
  rintro ⟨⟨n, hn⟩, -⟩
  exact (hnever n).2 hn

end Virtmcu.Comms.NetdevTx
