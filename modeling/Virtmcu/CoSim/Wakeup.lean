import Virtmcu.CoSim.MmioBridge
import Virtmcu.Foundations.Fairness

/-! # A disconnect wakes the caller

A call whose request is written on a connection that closes comes back without its timeout: the receive
loop reads what is left, clears `stream`, and notes the disconnect under the mutex; the call finds it
there, or sleeps and is notified. In the way of the receive loop are the mutex, which the vCPU holds only
until it sleeps, and the big lock, for an interrupt, which the vCPU gives up when it sleeps. So neither
waits for the other for ever (`wakes_caller`). -/

namespace Virtmcu.CoSim.Mmio

open Filter List

variable {Resp : Type*}

/-! ## Steps -/

section

variable {s : State Resp} {move : Move Resp} {reconnectMs : ℕ}

/-- The `c`-th connection is closed. -/
def IsClosed (s : State Resp) (c : ℕ) : Prop :=
  c < s.connection ∨ (c = s.connection ∧ s.closed = true)

/-! ### What the threads leave alone -/

theorem call_frame (withBql : Bool) : ∃ vcpu bql returned,
    call withBql s = { s with vcpu := vcpu, bql := bql, returned := returned } := by
  unfold call
  split <;> exact ⟨_, _, _, rfl⟩

theorem vcpuStep_frame (choice : Choice) : ∃ hasResp currentResp bql vcpu returned, vcpuStep choice s =
      { s with
        hasResp := hasResp
        currentResp := currentResp
        bql := bql
        vcpu := vcpu
        returned := returned } := by
  unfold vcpuStep
  repeat' split
  all_goals exact ⟨_, _, _, _, _, rfl⟩

theorem wake_frame (signaled : Bool) : ∃ vcpu, wake signaled s = { s with vcpu := vcpu } := by
  unfold wake
  split <;> exact ⟨_, rfl⟩

/-- The receive loop notes a response or leaves it, and notifies the vCPU or leaves it. -/
theorem rxStep_frame : ∃ hasResp currentResp stream wire vcpu rx, rxStep s =
        { s with
          hasResp := hasResp
          currentResp := currentResp
          stream := stream
          wire := wire
          vcpu := vcpu
          rx := rx } ∧
      (hasResp = s.hasResp ∨ hasResp = true) ∧ (vcpu = s.vcpu ∨ vcpu = s.vcpu.notify) := by
  unfold rxStep
  repeat' split
  all_goals
    refine ⟨_, _, _, _, _, _, rfl, ?_, ?_⟩
    · first | exact .inl rfl | exact .inr rfl
    · first | exact .inl rfl | exact .inr rfl

theorem connect_frame (reconnectMs : ℕ) (ok : Bool) : ∃ connection wire closed rx, connect reconnectMs ok s =
    { s with connection := connection, wire := wire, closed := closed, rx := rx } := by
  unfold connect
  split <;> exact ⟨_, _, _, _, rfl⟩

/-! ### The call -/

variable (reconnectMs) in
/-- What one step may do to the call: nothing, a notification, waking up, or a step of its own. -/
theorem vcpu_step_cases (h : enabled s move = true) (hidle : s.vcpu ≠ .idle) :
    (step reconnectMs s move).vcpu = s.vcpu ∨ (step reconnectMs s move).vcpu = s.vcpu.notify ∨
      (∃ c released notified signaled, s.vcpu = .asleep c released notified ∧
        (step reconnectMs s move).vcpu = .woken c released signaled) ∨ ∃ choice, move = .vcpu choice := by
  cases move with
  | call withBql =>
    have hcall : s.vcpu = .idle := of_decide_eq_true (Bool.and_eq_true_iff.mp h).1
    exact absurd hcall hidle
  | vcpu choice => exact .inr (.inr (.inr ⟨choice, rfl⟩))
  | wake signaled =>
    show (wake signaled s).vcpu = _ ∨ (wake signaled s).vcpu = _ ∨
      (∃ c released notified signaled', _ ∧ (wake signaled s).vcpu = _) ∨ _
    unfold wake
    split
    · next c released notified hpc =>
        exact .inr (.inr (.inl ⟨c, released, notified, signaled, hpc, rfl⟩))
    · exact .inl rfl
  | rx =>
    obtain ⟨_, _, _, _, _, _, hstep, -, hvcpu⟩ := rxStep_frame (s := s)
    rw [step, hstep]
    rcases hvcpu with rfl | rfl
    · exact .inl rfl
    · exact .inr (.inl rfl)
  | connect ok =>
    obtain ⟨_, _, _, _, hstep⟩ := connect_frame reconnectMs (s := s) ok
    rw [step, hstep]
    exact .inl rfl
  | notifyAll => exact .inr (.inl rfl)
  | _ => exact .inl rfl

/-- Only the call itself comes back. -/
theorem returned_step (h : enabled s move = true) (hidle : s.vcpu ≠ .idle)
    (hmove : ∀ choice, move ≠ .vcpu choice) : (step reconnectMs s move).returned = s.returned := by
  cases move with
  | call withBql =>
    have hcall : s.vcpu = .idle := of_decide_eq_true (Bool.and_eq_true_iff.mp h).1
    exact absurd hcall hidle
  | vcpu choice => exact absurd rfl (hmove choice)
  | wake signaled =>
    obtain ⟨_, hstep⟩ := wake_frame (s := s) signaled
    rw [step, hstep]
  | rx =>
    obtain ⟨_, _, _, _, _, _, hstep, -, -⟩ := rxStep_frame (s := s)
    rw [step, hstep]
  | connect ok =>
    obtain ⟨_, _, _, _, hstep⟩ := connect_frame reconnectMs (s := s) ok
    rw [step, hstep]
  | _ => rfl

/-- How far the call is from its next look at the response. -/
def VcpuPc.rank : VcpuPc → ℕ
  | .asleep _ _ _ => 4
  | .woken _ _ _ => 3
  | .relocking _ _ => 2
  | .sent _ => 2
  | .testing _ => 1
  | _ => 0

/-- A waiting call comes back, goes to sleep, or gets nearer to its next look. -/
theorem vcpuStep_cases {c : ℕ} (hc : s.vcpu.waitsOn = some c) (choice : Choice) :
    (vcpuStep choice s).returned = s.returned ++ [s.currentResp] ∨
      ((vcpuStep choice s).returned = s.returned ∧ (vcpuStep choice s).vcpu.waitsOn = some c ∧
        ((s.vcpu = .parking c ∧ (vcpuStep choice s).vcpu.isAway = true) ∨
          (s.vcpu ≠ .parking c ∧ (vcpuStep choice s).vcpu.rank < s.vcpu.rank))) := by
  unfold vcpuStep
  cases hpc : s.vcpu with
  | idle | entered | cleared =>
    rw [hpc] at hc
    cases hc
  | sent d =>
    rw [hpc] at hc
    exact .inr ⟨rfl, hc, .inr ⟨nofun, Nat.lt_succ_self 1⟩⟩
  | testing d =>
    rw [hpc] at hc
    dsimp only
    split
    · split
      · exact .inl rfl
      · exact .inr ⟨rfl, hc, .inr ⟨nofun, Nat.lt_succ_self 0⟩⟩
    · exact .inl rfl
  | parking d =>
    rw [hpc] at hc
    obtain rfl := Option.some.inj hc
    exact .inr ⟨rfl, rfl, .inl ⟨rfl, rfl⟩⟩
  | asleep d released notified =>
    rw [hpc] at hc
    exact .inr ⟨rfl, hc, .inr ⟨nofun, Nat.lt_succ_self 3⟩⟩
  | woken d released signaled =>
    rw [hpc] at hc
    exact .inr ⟨rfl, hc, .inr ⟨nofun, Nat.lt_succ_self 2⟩⟩
  | relocking d signaled =>
    rw [hpc] at hc
    dsimp only
    split
    · exact .inl rfl
    · exact .inr ⟨rfl, hc, .inr ⟨nofun, Nat.lt_succ_self 1⟩⟩

theorem rank_notify (pc : VcpuPc) : pc.notify.rank = pc.rank := by
  cases pc <;> rfl

variable (reconnectMs) in
/-- One step while a call waits: it comes back, or waits on, and is nearer to its next look if it does not
go to sleep. -/
theorem waiting_step {c : ℕ} (hc : s.vcpu.waitsOn = some c) (h : enabled s move = true) :
    (step reconnectMs s move).returned = s.returned ++ [s.currentResp] ∨
      ((step reconnectMs s move).returned = s.returned ∧ (step reconnectMs s move).vcpu.waitsOn = some c ∧
        ((s.vcpu = .parking c ∧ (step reconnectMs s move).vcpu.isAway = true) ∨
          ((step reconnectMs s move).vcpu.rank ≤ s.vcpu.rank ∧
            ((step reconnectMs s move).vcpu.rank < s.vcpu.rank ∨ ∀ choice, move ≠ .vcpu choice)))) := by
  have hidle : s.vcpu ≠ .idle := by
    intro hidle
    rw [hidle] at hc
    cases hc
  by_cases hmove : ∃ choice, move = .vcpu choice
  · obtain ⟨choice, rfl⟩ := hmove
    rcases vcpuStep_cases hc choice with hback | ⟨hreturned, hwaits, hparking | ⟨-, hrank⟩⟩
    · exact .inl hback
    · exact .inr ⟨hreturned, hwaits, .inl hparking⟩
    · exact .inr ⟨hreturned, hwaits, .inr ⟨hrank.le, .inl hrank⟩⟩
  · have hother : ∀ choice, move ≠ .vcpu choice := fun choice h => hmove ⟨choice, h⟩
    refine .inr ⟨returned_step h hidle hother, ?_⟩
    rcases vcpu_step_cases reconnectMs h hidle with hsame | hnotify |
      ⟨d, released, notified, signaled, hpc, hwoken⟩ | hvcpu
    · rw [hsame]
      exact ⟨hc, .inr ⟨le_rfl, .inr hother⟩⟩
    · rw [hnotify, waitsOn_notify, rank_notify]
      exact ⟨hc, .inr ⟨le_rfl, .inr hother⟩⟩
    · rw [hpc] at hc
      rw [hwoken, hpc]
      exact ⟨hc, .inr ⟨Nat.le_succ 3, .inr hother⟩⟩
    · exact absurd hvcpu hmove

/-! ### The big lock, the response and the connection -/

theorem bql_giveBack_cases (resp : Option Resp) :
    (s.giveBack resp).bql = s.bql ∨ (s.giveBack resp).bql = .nobody := by
  rw [State.giveBack]
  dsimp only
  split
  · exact .inr rfl
  · exact .inl rfl

theorem bql_vcpuStep (h : vcpuReady s = true) (hbql : s.bql ≠ .nobody) (choice : Choice) :
    (vcpuStep choice s).bql = s.bql ∨ (vcpuStep choice s).bql = .nobody := by
  unfold vcpuReady at h
  unfold vcpuStep
  cases hpc : s.vcpu with
  | cleared =>
    cases s.stream with
    | none => exact bql_giveBack_cases none
    | some c =>
      dsimp only
      split
      · exact .inl rfl
      · exact bql_giveBack_cases none
  | testing c =>
    dsimp only
    split
    · split
      · exact bql_giveBack_cases s.currentResp
      · exact .inl rfl
    · exact bql_giveBack_cases s.currentResp
  | parking c => exact bql_giveBack_cases none
  | woken c released signaled =>
    rw [hpc] at h
    cases released with
    | false => exact .inl rfl
    | true => exact absurd (of_decide_eq_true h) hbql
  | relocking c signaled =>
    dsimp only
    split
    · exact bql_giveBack_cases s.currentResp
    · exact .inl rfl
  | _ => exact .inl rfl

/-- The big lock changes hands by way of nobody. -/
theorem bql_step (h : enabled s move = true) (hbql : s.bql ≠ .nobody) :
    (step reconnectMs s move).bql = s.bql ∨ (step reconnectMs s move).bql = .nobody := by
  cases move with
  | call withBql =>
    have hfree := (Bool.and_eq_true_iff.mp h).2
    rw [step, call]
    split
    · cases withBql with
      | false => exact .inl rfl
      | true => exact absurd (of_decide_eq_true hfree) hbql
    · exact .inl rfl
  | vcpu choice => exact bql_vcpuStep h hbql choice
  | wake signaled =>
    obtain ⟨_, hstep⟩ := wake_frame (s := s) signaled
    rw [step, hstep]
    exact .inl rfl
  | rx =>
    obtain ⟨_, _, _, _, _, _, hstep, -, -⟩ := rxStep_frame (s := s)
    rw [step, hstep]
    exact .inl rfl
  | connect ok =>
    obtain ⟨_, _, _, _, hstep⟩ := connect_frame reconnectMs (s := s) ok
    rw [step, hstep]
    exact .inl rfl
  | lockBql => exact absurd (of_decide_eq_true h) hbql
  | unlockBql => exact .inr rfl
  | _ => exact .inl rfl

/-- A response is cleared at the beginning of a call only. -/
theorem hasResp_step {c : ℕ} (hc : s.vcpu.waitsOn = some c) (hresp : s.hasResp = true) :
    (step reconnectMs s move).hasResp = true := by
  cases move with
  | call withBql =>
    obtain ⟨_, _, _, hstep⟩ := call_frame (s := s) withBql
    rw [step, hstep]
    exact hresp
  | vcpu choice =>
    show (vcpuStep choice s).hasResp = true
    unfold vcpuStep
    cases hpc : s.vcpu with
    | entered | cleared =>
      rw [hpc] at hc
      cases hc
    | testing d =>
      dsimp only
      repeat' split
      all_goals exact hresp
    | relocking d signaled =>
      dsimp only
      split <;> exact hresp
    | _ => exact hresp
  | wake signaled =>
    obtain ⟨_, hstep⟩ := wake_frame (s := s) signaled
    rw [step, hstep]
    exact hresp
  | rx =>
    obtain ⟨_, _, _, _, _, _, hstep, hset, -⟩ := rxStep_frame (s := s)
    rw [step, hstep]
    rcases hset with rfl | rfl
    · exact hresp
    · rfl
  | connect ok =>
    obtain ⟨_, _, _, _, hstep⟩ := connect_frame reconnectMs (s := s) ok
    rw [step, hstep]
    exact hresp
  | _ => exact hresp

/-- How far the receive loop is from the notification, when the connection is closed. -/
def State.rxRank (s : State Resp) : ℕ :=
  4 * s.wire.length +
    match s.rx with
    | .clearing => 1
    | .reading => 2
    | .announcing => 3
    | .dispatching _ => 3
    | .irq => 3
    | _ => 0

/-- The receive loop notes a response or a disconnect, or gets nearer to the notification. -/
theorem rxStep_cases (hconn : s.rx.inConnection) :
    (rxStep s).hasResp = true ∨ (rxStep s).rxRank < s.rxRank := by
  unfold rxStep
  cases hpc : s.rx with
  | announcing | irq | clearing =>
    refine .inr ?_
    simp only [State.rxRank, hpc]
    omega
  | reading =>
    refine .inr ?_
    dsimp only
    split
    all_goals
      next hwire =>
        simp only [State.rxRank, hpc, hwire, length_cons, length_nil]
        omega
  | dispatching r | notifying => exact .inl rfl
  | _ =>
    rw [hpc] at hconn
    exact absurd hconn fun h => h.elim nofun nofun

/-- In a closed connection the receive loop waits for the mutex and the big lock only. -/
theorem rxReady_of_isAway (hconn : s.rx.inConnection) (hclosed : s.closed = true)
    (hirq : s.rx ≠ .irq) (haway : s.vcpu.isAway = true) : rxReady s = true := by
  have hmutex : s.vcpu.hasMutex = false := by
    revert haway
    cases s.vcpu <;> simp [VcpuPc.isAway, VcpuPc.hasMutex]
  unfold rxReady
  cases hpc : s.rx with
  | irq => exact absurd hpc hirq
  | reading =>
    dsimp only
    rw [hclosed, Bool.or_true]
  | sleeping | connecting | handshaking | exited =>
    rw [hpc] at hconn
    exact absurd hconn fun h => h.elim nofun nofun
  | top | publishing | clearing => rfl
  | _ => exact (Bool.not_eq_true' _).mpr hmutex

/-- In a closed connection only the receive loop itself moves it. -/
theorem rx_step_of_ne (hconn : s.rx.inConnection) (hclosed : s.closed = true)
    (h : enabled s move = true) (hmove : move ≠ .rx) :
    (step reconnectMs s move).rx = s.rx ∧ (step reconnectMs s move).wire = s.wire := by
  cases move with
  | rx => exact absurd rfl hmove
  | call withBql =>
    obtain ⟨_, _, _, hstep⟩ := call_frame (s := s) withBql
    rw [step, hstep]
    exact ⟨rfl, rfl⟩
  | vcpu choice =>
    obtain ⟨_, _, _, _, _, hstep⟩ := vcpuStep_frame (s := s) choice
    rw [step, hstep]
    exact ⟨rfl, rfl⟩
  | wake signaled =>
    obtain ⟨_, hstep⟩ := wake_frame (s := s) signaled
    rw [step, hstep]
    exact ⟨rfl, rfl⟩
  | connect ok | handshake ok | endSleep => exact absurd hconn (not_inConnection_of_awaits h)
  | deliver m =>
    have hopen : (!s.closed) = true := h
    rw [hclosed] at hopen
    cases hopen
  | _ => exact ⟨rfl, rfl⟩

/-- A connection that is closed stays so. -/
theorem IsClosed.step {c : ℕ} (hc : IsClosed s c) : IsClosed (step reconnectMs s move) c := by
  cases move with
  | call withBql =>
    obtain ⟨_, _, _, hstep⟩ := call_frame (s := s) withBql
    rw [Mmio.step, hstep]
    exact hc
  | vcpu choice =>
    obtain ⟨_, _, _, _, _, hstep⟩ := vcpuStep_frame (s := s) choice
    rw [Mmio.step, hstep]
    exact hc
  | wake signaled =>
    obtain ⟨_, hstep⟩ := wake_frame (s := s) signaled
    rw [Mmio.step, hstep]
    exact hc
  | rx =>
    obtain ⟨_, _, _, _, _, _, hstep, -, -⟩ := rxStep_frame (s := s)
    rw [Mmio.step, hstep]
    exact hc
  | connect ok =>
    show IsClosed (connect reconnectMs ok s) c
    unfold connect
    split
    · refine .inl ?_
      rcases hc with hlt | ⟨rfl, -⟩
      · exact hlt.trans (Nat.lt_succ_self _)
      · exact Nat.lt_succ_self _
    · exact hc
  | close => exact hc.imp_right fun h => ⟨h.1, rfl⟩
  | interrupt =>
    refine hc.imp_right fun h => ⟨h.1, ?_⟩
    show (s.closed || s.stream.isSome) = true
    rw [h.2]
    rfl
  | _ => exact hc

end

/-! ## Runs -/

abbrev Run (Resp : Type*) (reconnectMs : ℕ) :=
  Behaviour (step reconnectMs) enabled (initial : State Resp)

variable {reconnectMs : ℕ}

/-- The vCPU and the receive loop go on when they can, and other threads give the big lock up. A sleeper
need not wake up by itself, and no timeout need pass. -/
structure Run.IsFair (r : Run Resp reconnectMs) : Prop where
  vcpu : r.Fair {move | ∃ choice, move = .vcpu choice}
  rx : r.Fair {.rx}
  bql : r.Fair {.unlockBql}

theorem inv_state (r : Run Resp reconnectMs) (n : ℕ) : Inv (r.state n) := by
  refine steps_invariant (P := Inv) ?_ (r.steps n) inv_initial
  rintro s s' ⟨move, henabled, rfl⟩ hs
  exact hs.step reconnectMs henabled

variable {r : Run Resp reconnectMs} {n c : ℕ}

variable {m : ℕ}

theorem IsClosed.of_le (hnm : n ≤ m) (hc : IsClosed (r.state n) c) : IsClosed (r.state m) c := by
  refine r.of_le (P := fun s => IsClosed s c) hc (fun l _ hl => ?_) hnm
  exact r.next_of_step (P := fun s => IsClosed s c) hl fun move _ _ => hl.step

/-- From a time on the call waits and does not come back. -/
def Stays (r : Run Resp reconnectMs) (n c : ℕ) : Prop :=
  ∀ m, n ≤ m → (r.state m).vcpu.waitsOn = some c ∧ (r.state m).returned = (r.state n).returned

namespace Stays

/-- One step of a call that does not come back. -/
theorem next (hstay : Stays r n c) (hm : n ≤ m) :
    ((r.state m).vcpu = .parking c ∧ (r.state (m + 1)).vcpu.isAway = true) ∨
      ((r.state (m + 1)).vcpu.rank ≤ (r.state m).vcpu.rank ∧
        ((r.state (m + 1)).vcpu.rank < (r.state m).vcpu.rank ∨
          ∀ choice, r.move m ≠ some (.vcpu choice))) := by
  cases hmove : r.move m with
  | none =>
    rw [r.idle m hmove]
    exact .inr ⟨le_rfl, .inr fun _ => nofun⟩
  | some move =>
    obtain ⟨henabled, hnext⟩ := r.next m move hmove
    have hreturned : (r.state (m + 1)).returned = (r.state m).returned := by
      rw [(hstay m hm).2, (hstay (m + 1) (by omega)).2]
    rw [hnext] at hreturned ⊢
    rcases waiting_step reconnectMs (hstay m hm).1 henabled with
      hback | ⟨-, -, hparking | ⟨hle, hlt⟩⟩
    · rw [hback] at hreturned
      exact absurd (self_eq_append_right.mp hreturned.symm) (cons_ne_nil _ _)
    · exact .inl hparking
    · refine .inr ⟨hle, hlt.imp_right fun hother choice h => ?_⟩
      exact hother choice (Option.some.inj h)

/-- The call sleeps, or is just woken up, again and again. -/
theorem frequently_isAway (hstay : Stays r n c) (hfair : r.IsFair) :
    ∃ᶠ m in atTop, (r.state m).vcpu.isAway = true := by
  by_contra hnot
  have hbusy : ∀ᶠ m in atTop, (r.state m).vcpu.isAway ≠ true := not_frequently.mp hnot
  have hnext : ∀ᶠ m in atTop, (r.state (m + 1)).vcpu.rank ≤ (r.state m).vcpu.rank ∧
      ((r.state (m + 1)).vcpu.rank < (r.state m).vcpu.rank ∨
        ∀ choice, r.move m ≠ some (.vcpu choice)) := by
    filter_upwards [eventually_succ hbusy, eventually_ge_atTop n] with m hbusy hm
    exact (hstay.next hm).resolve_left fun h => hbusy h.2
  have hstuck := hfair.vcpu.eventually_not_ok (fun s => s.vcpu.rank)
    (hnext.mono fun m hm => hm.1) ?_
  · -- but a call that is awake can always go on
    obtain ⟨m, hstuck, hbusy, hm⟩ := (hstuck.and (hbusy.and (eventually_ge_atTop n))).exists
    have hno : vcpuReady (r.state m) = false := hstuck (.vcpu ⟨true, false⟩) ⟨_, rfl⟩
    have hwaits := (hstay m hm).1
    revert hno hbusy hwaits
    unfold vcpuReady
    cases (r.state m).vcpu <;> simp [VcpuPc.isAway, VcpuPc.waitsOn]
  · filter_upwards [hnext] with m hm
    rintro move ⟨choice, rfl⟩ hmove
    exact hm.2.resolve_right fun hother => hother _ hmove

/-- The big lock is free again and again. -/
theorem frequently_bql (hstay : Stays r n c) (hfair : r.IsFair) :
    ∃ᶠ m in atTop, (r.state m).bql = .nobody := by
  by_contra hnot
  have hheld : ∀ᶠ m in atTop, (r.state m).bql ≠ .nobody := not_frequently.mp hnot
  obtain ⟨owner, howner⟩ := exists_eventually_eq (f := fun m => (r.state m).bql) <| by
    filter_upwards [hheld, eventually_succ hheld] with m hm hm'
    rcases r.next_of_step (P := fun s => s.bql = (r.state m).bql ∨ s.bql = .nobody) (.inl rfl)
      fun move _ henabled => bql_step henabled hm with hsame | hfree
    · exact hsame
    · exact absurd hfree hm'
  cases owner with
  | nobody =>
    obtain ⟨m, hm, hfree⟩ := (hheld.and howner).exists
    exact hm hfree
  | vcpu =>
    obtain ⟨m, haway, hm⟩ := ((hstay.frequently_isAway hfair).and_eventually howner).exists
    exact (inv_state r m).away haway hm
  | other =>
    have hcan : ∃ᶠ m in atTop, ∃ move ∈ ({.unlockBql} : Set (Move Resp)),
        enabled (r.state m) move = true :=
      (howner.mono fun m hm => ⟨_, rfl, decide_eq_true hm⟩).frequently
    obtain ⟨m, ⟨move, rfl, hmove⟩, hm⟩ :=
      ((hfair.bql hcan).and_eventually (eventually_succ hheld)).exists
    rw [(r.next m _ hmove).2] at hm
    exact hm rfl

/-- A waiting call does not clear the response. -/
theorem hasResp_of_le (hstay : Stays r n c) {m l : ℕ} (hm : n ≤ m) (hml : m ≤ l)
    (hresp : (r.state m).hasResp = true) : (r.state l).hasResp = true := by
  refine r.of_le (P := fun s => s.hasResp = true) hresp (fun i hi h => ?_) hml
  refine r.next_of_step (P := fun s => s.hasResp = true) h fun move _ _ => ?_
  exact hasResp_step (hstay i (hm.trans hi)).1 h

/-- **A call that has its response comes back.** -/
theorem not_hasResp (hstay : Stays r n c) (hfair : r.IsFair) (hm : n ≤ m) :
    (r.state m).hasResp = false := by
  by_contra hresp
  have hresp : ∀ l, m ≤ l → (r.state l).hasResp = true := fun l hl =>
    hstay.hasResp_of_le hm hl (Bool.eq_true_of_not_eq_false hresp)
  have hloud (l : ℕ) (hl : m ≤ l) : (r.state l).vcpu.isQuiet = false := by
    by_contra hquiet
    have hnone := (inv_state r l).quiet (Bool.eq_true_of_not_eq_false hquiet)
    rw [hresp l hl] at hnone
    cases hnone
  have hnext : ∀ᶠ l in atTop, (r.state (l + 1)).vcpu.rank ≤ (r.state l).vcpu.rank ∧
      ((r.state (l + 1)).vcpu.rank < (r.state l).vcpu.rank ∨
        ∀ choice, r.move l ≠ some (.vcpu choice)) := by
    filter_upwards [eventually_ge_atTop m] with l hl
    refine (hstay.next (hm.trans hl)).resolve_left fun h => ?_
    have hquiet := hloud l hl
    rw [h.1] at hquiet
    cases hquiet
  have hstuck := hfair.vcpu.eventually_not_ok (fun s => s.vcpu.rank)
    (hnext.mono fun l hl => hl.1) ?_
  · -- it could only wait for the big lock, which is free again and again
    obtain ⟨l, hbql, hstuck, hl⟩ := ((hstay.frequently_bql hfair).and_eventually
      (hstuck.and (eventually_ge_atTop m))).exists
    have hno : vcpuReady (r.state l) = false := hstuck (.vcpu ⟨true, false⟩) ⟨_, rfl⟩
    have hwaits := (hstay l (hm.trans hl)).1
    have hquiet := hloud l hl
    revert hno hquiet hwaits
    unfold vcpuReady
    rw [hbql]
    cases (r.state l).vcpu <;> simp +contextual [VcpuPc.isQuiet, VcpuPc.waitsOn]
  · filter_upwards [hnext] with l hl
    rintro move ⟨choice, rfl⟩ hmove
    exact hl.2.resolve_right fun hother => hother _ hmove

/-- In the end the receive loop stays in the connection, and nothing more comes on it. -/
theorem eventually_inConnection (hstay : Stays r n c) (hfair : r.IsFair)
    (hclosed : IsClosed (r.state m) c) :
    ∀ᶠ l in atTop, (r.state l).rx.inConnection ∧ (r.state l).closed = true := by
  filter_upwards [eventually_ge_atTop n, eventually_ge_atTop m] with l hn hm
  have hnone := hstay.not_hasResp hfair hn
  rcases (inv_state r l).waiting c (hstay l hn).1 with hsome | ⟨rfl, hconn⟩
  · rw [hsome] at hnone
    cases hnone
  · rcases hclosed.of_le hm with hlt | ⟨-, hshut⟩
    · exact absurd hlt (Nat.lt_irrefl _)
    · exact ⟨hconn, hshut⟩

/-- One step of a run in a closed connection. -/
theorem rx_next (hstay : Stays r n c) (hfair : r.IsFair) {l : ℕ} (hl : n ≤ l)
    (hconn : (r.state l).rx.inConnection) (hshut : (r.state l).closed = true) :
    (r.move l = some .rx ∧ (r.state (l + 1)).rxRank < (r.state l).rxRank) ∨
      (r.move l ≠ some .rx ∧ (r.state (l + 1)).rx = (r.state l).rx ∧
        (r.state (l + 1)).wire = (r.state l).wire) := by
  cases hmove : r.move l with
  | none =>
    rw [r.idle l hmove]
    exact .inr ⟨nofun, rfl, rfl⟩
  | some move =>
    obtain ⟨henabled, hstep⟩ := r.next l move hmove
    by_cases hrx : move = .rx
    · subst hrx
      have hnone := hstay.not_hasResp hfair (m := l + 1) (by omega)
      rw [hstep] at hnone ⊢
      rcases rxStep_cases hconn with hsome | hrank
      · rw [show (step reconnectMs (r.state l) .rx).hasResp = true from hsome] at hnone
        cases hnone
      · exact .inl ⟨rfl, hrank⟩
    · rw [hstep]
      exact .inr ⟨fun h => hrx (Option.some.inj h), rx_step_of_ne hconn hshut henabled hrx⟩

/-- **The receive loop comes to the notification** when the connection is closed. -/
theorem not_isClosed (hstay : Stays r n c) (hfair : r.IsFair) (m : ℕ) : ¬ IsClosed (r.state m) c := by
  intro hclosed
  have hconn := hstay.eventually_inConnection hfair hclosed
  have hnext : ∀ᶠ l in atTop,
      (r.move l = some .rx ∧ (r.state (l + 1)).rxRank < (r.state l).rxRank) ∨
        (r.move l ≠ some .rx ∧ (r.state (l + 1)).rx = (r.state l).rx ∧
          (r.state (l + 1)).wire = (r.state l).wire) := by
    filter_upwards [hconn, eventually_ge_atTop n] with l hl hn
    exact hstay.rx_next hfair hn hl.1 hl.2
  have hstuck := hfair.rx.eventually_not_ok State.rxRank ?_ ?_
  · have hstuck : ∀ᶠ l in atTop, rxReady (r.state l) = false :=
      hstuck.mono fun l hl => hl .rx rfl
    obtain ⟨pc, hpc⟩ := exists_eventually_eq (f := fun l => (r.state l).rx) <| by
      filter_upwards [hnext, hstuck] with l h hstuck
      rcases h with ⟨hmove, -⟩ | ⟨-, hsame, -⟩
      · have henabled : rxReady (r.state l) = true := (r.next l _ hmove).1
        rw [hstuck] at henabled
        cases henabled
      · exact hsame
    -- it needs the big lock for an interrupt, and the mutex otherwise
    by_cases hirq : pc = .irq
    · obtain ⟨l, hbql, hstuck, hpc⟩ :=
        ((hstay.frequently_bql hfair).and_eventually (hstuck.and hpc)).exists
      rw [rxReady, hpc, hirq, hbql] at hstuck
      cases hstuck
    · obtain ⟨l, haway, hstuck, hpc, hconn, hshut⟩ := ((hstay.frequently_isAway hfair).and_eventually
        (hstuck.and (hpc.and hconn))).exists
      rw [rxReady_of_isAway hconn hshut (hpc ▸ hirq) haway] at hstuck
      cases hstuck
  · filter_upwards [hnext] with l h
    rcases h with ⟨-, hlt⟩ | ⟨-, hrx, hwire⟩
    · exact hlt.le
    · rw [State.rxRank, State.rxRank, hrx, hwire]
  · filter_upwards [hnext] with l h
    rintro move rfl hmove
    exact (h.resolve_right fun hother => hother.1 hmove).2

end Stays

/-- **A disconnect wakes the caller.** -/
theorem exists_returned (hfair : r.IsFair) (hwaits : (r.state n).vcpu.waitsOn = some c)
    (hclosed : IsClosed (r.state m) c) :
    ∃ l resp, n ≤ l ∧ (r.state l).returned = (r.state n).returned ++ [resp] := by
  by_contra hnot
  push Not at hnot
  have hstay : Stays r n c := by
    intro l hl
    induction l, hl using Nat.le_induction with
    | base => exact ⟨hwaits, rfl⟩
    | succ l hl ih =>
      cases hmove : r.move l with
      | none => rwa [r.idle l hmove]
      | some move =>
        obtain ⟨henabled, hstep⟩ := r.next l move hmove
        rcases waiting_step reconnectMs ih.1 henabled with
          hback | ⟨hsame, hwaits, -⟩
        · rw [← hstep, ih.2] at hback
          exact absurd hback (hnot (l + 1) _ (by omega))
        · rw [hstep]
          exact ⟨hwaits, hsame.trans ih.2⟩
  exact hstay.not_isClosed hfair m hclosed

/-! ## A call without a stream -/

/-- The call has not come to the loop yet. -/
def VcpuPc.isSending : VcpuPc → Bool
  | .entered => true
  | .cleared => true
  | _ => false

/-- One step of a call that finds no stream. -/
theorem sending_step (reconnectMs : ℕ) {s : State Resp} {move : Move Resp} (hpc : s.vcpu.isSending = true)
    (hstream : s.stream = none) (h : enabled s move = true) :
    (step reconnectMs s move).returned = s.returned ++ [none] ∨
      ((step reconnectMs s move).returned = s.returned ∧
        (((step reconnectMs s move).vcpu = s.vcpu ∧ ∀ choice, move ≠ .vcpu choice) ∨
          (s.vcpu = .entered ∧ (step reconnectMs s move).vcpu = .cleared))) := by
  have hidle : s.vcpu ≠ .idle := by
    intro hidle
    rw [hidle] at hpc
    cases hpc
  by_cases hmove : ∃ choice, move = .vcpu choice
  · obtain ⟨choice, rfl⟩ := hmove
    show (vcpuStep choice s).returned = _ ∨ ((vcpuStep choice s).returned = _ ∧
      (((vcpuStep choice s).vcpu = _ ∧ _) ∨ (_ ∧ (vcpuStep choice s).vcpu = _)))
    unfold vcpuStep
    cases hvcpu : s.vcpu with
    | entered => exact .inr ⟨rfl, .inr ⟨rfl, rfl⟩⟩
    | cleared =>
      rw [hstream]
      exact .inl rfl
    | _ =>
      rw [hvcpu] at hpc
      cases hpc
  · have hother : ∀ choice, move ≠ .vcpu choice := fun choice h => hmove ⟨choice, h⟩
    refine .inr ⟨returned_step h hidle hother, .inl ⟨?_, hother⟩⟩
    rcases vcpu_step_cases reconnectMs h hidle with hsame | hnotify |
      ⟨d, released, notified, signaled, hasleep, -⟩ | hvcpu
    · exact hsame
    · rw [hnotify]
      revert hpc
      cases s.vcpu <;> simp [VcpuPc.isSending, VcpuPc.notify]
    · rw [hasleep] at hpc
      cases hpc
    · exact absurd hvcpu hmove

/-- How far the call is from `send_request`. -/
def VcpuPc.sendRank : VcpuPc → ℕ
  | .entered => 1
  | _ => 0

/-- One step of a run for a call that finds no stream. -/
theorem sending_next {l : ℕ} (hpc : (r.state l).vcpu.isSending = true)
    (hstream : (r.state l).stream = none) : (r.state (l + 1)).returned = (r.state l).returned ++ [none] ∨
      ((r.state (l + 1)).returned = (r.state l).returned ∧
        (((r.state (l + 1)).vcpu = (r.state l).vcpu ∧ ∀ choice, r.move l ≠ some (.vcpu choice)) ∨
          ((r.state l).vcpu = .entered ∧ (r.state (l + 1)).vcpu = .cleared))) := by
  cases hmove : r.move l with
  | none =>
    rw [r.idle l hmove]
    exact .inr ⟨rfl, .inl ⟨rfl, fun _ => nofun⟩⟩
  | some move =>
    obtain ⟨henabled, hnext⟩ := r.next l move hmove
    rw [hnext]
    refine (sending_step reconnectMs hpc hstream henabled).imp_right (And.imp_right ?_)
    exact Or.imp_left fun h => ⟨h.1, fun choice heq => h.2 choice (Option.some.inj heq)⟩

/-- While a call without a stream has not come back with nothing, it is on its way. -/
theorem sending_of_not_returned (hentered : (r.state n).vcpu = .entered)
    (hstream : ∀ m, n ≤ m → (r.state m).returned = (r.state n).returned → (r.state m).stream = none)
    (hnot : ∀ m, n ≤ m → (r.state m).returned = (r.state n).returned ++ [none] →
      ∃ l, n ≤ l ∧ l < m ∧ (r.state l).vcpu.isSending ≠ true) {l : ℕ} (hl : n ≤ l) :
    (r.state l).returned = (r.state n).returned ∧
      ∀ i, n ≤ i → i ≤ l → (r.state i).vcpu.isSending = true := by
  induction l, hl using Nat.le_induction with
  | base =>
    refine ⟨rfl, fun i hi hle => ?_⟩
    rw [le_antisymm hle hi, hentered]
    rfl
  | succ l hl ih =>
    have hsending := ih.2 l hl le_rfl
    rcases sending_next hsending (hstream l hl ih.1) with hback | ⟨hsame, hgo⟩
    · rw [ih.1] at hback
      obtain ⟨i, hi, hlt, hnone⟩ := hnot (l + 1) (by omega) hback
      exact absurd (ih.2 i hi (by omega)) hnone
    · refine ⟨hsame.trans ih.1, fun i hi hle => ?_⟩
      rcases Nat.lt_or_eq_of_le hle with hlt | rfl
      · exact ih.2 i hi (by omega)
      · rcases hgo with ⟨hpc, -⟩ | ⟨-, hcleared⟩
        · rw [hpc]
          exact hsending
        · rw [hcleared]
          rfl

/-- A call is not on its way for ever. -/
theorem not_eventually_sending (hfair : r.IsFair)
    (hnext : ∀ᶠ l in atTop, (r.state l).vcpu.isSending = true ∧
      (((r.state (l + 1)).vcpu = (r.state l).vcpu ∧ ∀ choice, r.move l ≠ some (.vcpu choice)) ∨
        ((r.state l).vcpu = .entered ∧ (r.state (l + 1)).vcpu = .cleared))) : False := by
  have hstuck := hfair.vcpu.eventually_not_ok (fun s => s.vcpu.sendRank) ?_ ?_
  · obtain ⟨l, hstuck, hsending, -⟩ := (hstuck.and hnext).exists
    have hno : vcpuReady (r.state l) = false := hstuck (.vcpu ⟨true, false⟩) ⟨_, rfl⟩
    revert hno hsending
    unfold vcpuReady
    cases (r.state l).vcpu <;> simp [VcpuPc.isSending]
  · filter_upwards [hnext] with l hl
    rcases hl.2 with ⟨hsame, -⟩ | ⟨-, hcleared⟩
    · rw [hsame]
    · rw [hcleared]
      exact Nat.zero_le _
  · filter_upwards [hnext] with l hl
    rintro move ⟨choice, rfl⟩ hmove
    rcases hl.2 with ⟨-, hother⟩ | ⟨hentered, hcleared⟩
    · exact absurd hmove (hother choice)
    · rw [hentered, hcleared]
      exact Nat.zero_lt_one

/-- **A call without a stream comes back with nothing**, and never gets to the loop. -/
theorem exists_returned_none (hfair : r.IsFair) (hentered : (r.state n).vcpu = .entered)
    (hstream : ∀ m, n ≤ m → (r.state m).returned = (r.state n).returned → (r.state m).stream = none) :
    ∃ m, n ≤ m ∧ (r.state m).returned = (r.state n).returned ++ [none] ∧
      ∀ l, n ≤ l → l < m → (r.state l).vcpu.isSending = true := by
  by_contra hnot
  push Not at hnot
  have hstay {l : ℕ} (hl : n ≤ l) := sending_of_not_returned hentered hstream hnot hl
  refine not_eventually_sending hfair ?_
  filter_upwards [eventually_ge_atTop n] with l hl
  have hsending := (hstay hl).2 l hl le_rfl
  refine ⟨hsending, ?_⟩
  rcases sending_next hsending (hstream l hl (hstay hl).1) with hback | ⟨-, hgo⟩
  · rw [(hstay (Nat.le_succ_of_le hl)).1, (hstay hl).1] at hback
    exact absurd (self_eq_append_right.mp hback) (cons_ne_nil _ _)
  · exact hgo

/-- A call that looks for the stream and finds none comes back in this step. -/
theorem vcpuStep_of_stream_none {s : State Resp} (hpc : s.vcpu = .cleared) (hstream : s.stream = none)
    (choice : Choice) : vcpuStep choice s = s.giveBack none := by
  rw [vcpuStep, hpc]
  simp only [hstream]

/-! ## The result -/

/-- What a call may count on. -/
structure Run.WakesCaller (r : Run Resp reconnectMs) : Prop where
  /-- A call whose request is written on a connection that closes, before or after, comes back. -/
  disconnect : ∀ n m c, (r.state n).vcpu.waitsOn = some c → IsClosed (r.state m) c →
    ∃ l resp, n ≤ l ∧ (r.state l).returned = (r.state n).returned ++ [resp]
  /-- `send_request` without a stream ends the call with nothing. -/
  noStream : ∀ n choice, r.move n = some (.vcpu choice) → (r.state n).vcpu = .cleared →
    (r.state n).stream = none →
      (r.state (n + 1)).vcpu = .idle ∧ (r.state (n + 1)).returned = (r.state n).returned ++ [none]
  /-- A call during which there is no stream comes back with nothing, and does not wait. -/
  neverStream : ∀ n, (r.state n).vcpu = .entered →
    (∀ m, n ≤ m → (r.state m).returned = (r.state n).returned → (r.state m).stream = none) →
      ∃ m, n ≤ m ∧ (r.state m).returned = (r.state n).returned ++ [none] ∧
        ∀ l, n ≤ l → l < m → (r.state l).vcpu.isSending = true

/-- **A disconnect wakes the caller**, and a call without a stream does not wait: in every fair run, with
any number of connections, any messages on them, and the bridge dropped at any time or never. No timeout
has to pass for it: the run need not have one. -/
theorem wakes_caller (r : Run Resp reconnectMs) (hfair : r.IsFair) : r.WakesCaller where
  disconnect _ _ _ hwaits hclosed := exists_returned hfair hwaits hclosed
  noStream n choice hmove hpc hstream := by
    rw [(r.next n _ hmove).2]
    show (vcpuStep choice (r.state n)).vcpu = .idle ∧ (vcpuStep choice (r.state n)).returned = _
    rw [vcpuStep_of_stream_none hpc hstream]
    exact ⟨rfl, rfl⟩
  neverStream _ hentered hstream := exists_returned_none hfair hentered hstream

/-! ### A run -/

/-- No thread of the bridge can go on, and the big lock is free. -/
def AtRest (s : State Resp) : Prop :=
  vcpuReady s = false ∧ rxReady s = false ∧ s.bql = .nobody

instance (s : State Resp) : Decidable (AtRest s) :=
  inferInstanceAs (Decidable (vcpuReady s = false ∧ rxReady s = false ∧ s.bql = .nobody))

/-- A run that comes to rest is fair. -/
theorem isFair_ofMoves {moves : List (Move Resp)}
    (h : passes (step reconnectMs) enabled initial moves = true)
    (hrest : AtRest (moves.foldl (step reconnectMs) initial)) : Run.IsFair (Behaviour.ofMoves moves h) := by
  obtain ⟨hvcpu, hrx, hbql⟩ := hrest
  refine ⟨?_, ?_, ?_⟩
  · refine Behaviour.fair_ofMoves h ?_
    rintro move ⟨choice, rfl⟩
    exact hvcpu
  · refine Behaviour.fair_ofMoves h ?_
    rintro move rfl
    exact hrx
  · refine Behaviour.fair_ofMoves h ?_
    rintro move rfl
    rw [enabled, hbql]
    rfl

/-- A step of the vCPU before its timeout. -/
def inTime : Move Unit := .vcpu ⟨true, false⟩

/-- A call sleeps when the connection closes, and comes back; the next one finds no stream. -/
def closeMoves : List (Move Unit) :=
  List.flatten [
    [.rx, .connect true, .handshake true, .rx, .rx, .call true], List.replicate 5 inTime,
    [.close, .rx, .rx, .rx], List.replicate 4 inTime, [.rx, .call true, inTime, inTime]]

def closeRun : Run Unit 100 := Behaviour.ofMoves closeMoves (by decide +kernel)

theorem wakes_caller_closeRun : closeRun.WakesCaller ∧
    (closeRun.state 11).vcpu = .asleep 1 true false ∧ IsClosed (closeRun.state 12) 1 ∧
      (closeRun.state 19).returned = [none] ∧ (closeRun.state 23).returned = [none, none] := by
  refine ⟨wakes_caller closeRun (isFair_ofMoves _ (by decide +kernel)), by decide +kernel, ?_,
    by decide +kernel, by decide +kernel⟩
  exact Or.inr ⟨by decide +kernel, by decide +kernel⟩

end Virtmcu.CoSim.Mmio
