import Virtmcu.DeterministicCoordinator.Wire

/-! # The transmit path of the network card

The guest's packets go through `netdev_receive` into a channel, and one thread takes them out and
publishes them, until `running` is false and the channel is empty. `netdev_cleanup` clears `running`,
drops the subscription, waits until no vCPU is counted, and joins the thread.

All three take the mutex of `SharedState` for a short test or update, and `netdev_receive` and
`netdev_cleanup` are called with the big lock. The threads move in any order. Here is what holds at every
point: who holds what (`Inv`), and where the packets are (`Ledger`). -/

namespace Virtmcu.Comms.NetdevTx

open DeterministicCoordinator List

/-! ## State -/

structure TxPacket where
  vtime : UInt64
  sequence : UInt64
  data : List UInt8
  deriving DecidableEq, Repr

/-- What is published for a packet. -/
def TxPacket.message (p : TxPacket) : List UInt8 := encodeFrame p.vtime p.sequence p.data

inductive BqlOwner
  | nobody
  /-- The thread in `netdev_receive`. -/
  | guest
  /-- The thread in `netdev_cleanup`. -/
  | cleanup
  deriving DecidableEq, Repr

/-- Where a call of `netdev_receive` is. -/
inductive GuestPc
  | idle
  /-- At the test of `running`. -/
  | calling (data : List UInt8)
  /-- Counted in `active_vcpu_count`. -/
  | counted (data : List UInt8)
  /-- At the end of the guard. -/
  | sent
  deriving DecidableEq, Repr

/-- Where the thread of `start_tx_thread` is. -/
inductive TxPc
  /-- At the test of `running` and the channel. -/
  | head
  /-- In `recv_timeout`. -/
  | receiving
  | publishing (p : TxPacket)
  | exited
  deriving DecidableEq, Repr

/-- Where `netdev_cleanup` is. -/
inductive CleanupPc
  | notCalled
  /-- Before `running` is cleared. -/
  | stopping
  /-- At the end of the subscription. -/
  | stopped
  /-- The subscription waits for its callbacks, without the big lock. -/
  | draining
  /-- Before the second `lock`. -/
  | relocking
  /-- At the test of `active_vcpu_count`. -/
  | locked
  /-- In `drain_cond.wait_timeout`. -/
  | awaiting
  /-- At `drop(bql_unlock)` in the loop. -/
  | woken (timedOut : Bool)
  /-- Behind the loop. -/
  | counted
  /-- In `handle.join()`. -/
  | joining
  /-- At the second `drop(bql_unlock)`. -/
  | joined
  | returned
  deriving DecidableEq, Repr

structure State where
  running : Bool
  activeVcpuCount : ℕ
  txSequence : UInt64
  /-- `rx_out`. -/
  channel : List TxPacket
  bql : BqlOwner
  guest : GuestPc
  tx : TxPc
  cleanup : CleanupPc
  /-- `QEMU_CLOCK_VIRTUAL`. -/
  clock : UInt64
  /-- The packets whose size `netdev_receive` returns, in the order of the calls. -/
  accepted : List TxPacket
  published : List (List UInt8)
  /-- A packet found the channel full. -/
  overflowed : Bool
  /-- The process has ended. -/
  aborted : Bool
  deriving DecidableEq

/-- `netdev_init_internal`. -/
def initial : State where
  running := true
  activeVcpuCount := 0
  txSequence := 0
  channel := []
  bql := .nobody
  guest := .idle
  tx := .head
  cleanup := .notCalled
  clock := 0
  accepted := []
  published := []
  overflowed := false
  aborted := false

/-! ## Steps -/

/-- The capacity of the channel. -/
def txCapacity : ℕ := 65536

/-- The virtual time, the sequence number, and `try_send`, whose failure is ignored. -/
def trySend (data : List UInt8) (s : State) : State :=
  let p : TxPacket := ⟨s.clock, s.txSequence, data⟩
  let s := { s with txSequence := s.txSequence + 1, accepted := s.accepted ++ [p] }
  if s.channel.length < txCapacity then { s with channel := s.channel ++ [p] }
  else { s with overflowed := true }

theorem trySend_eq (data : List UInt8) (s : State) : trySend data s =
    { s with
      txSequence := s.txSequence + 1
      accepted := s.accepted ++ [⟨s.clock, s.txSequence, data⟩]
      channel :=
        if s.channel.length < txCapacity then s.channel ++ [⟨s.clock, s.txSequence, data⟩]
        else s.channel
      overflowed := if s.channel.length < txCapacity then s.overflowed else true } := by
  unfold trySend
  dsimp only
  split <;> rfl

/-- `netdev_receive_internal`. -/
def guestStep (s : State) : State :=
  match s.guest with
  | .idle => s
  | .calling data =>
      if s.running then
        { s with activeVcpuCount := s.activeVcpuCount + 1, guest := .counted data }
      else { s with guest := .idle, bql := .nobody }
  | .counted data => { trySend data s with guest := .sent }
  | .sent =>
      { s with activeVcpuCount := s.activeVcpuCount - 1, guest := .idle, bql := .nobody }

/-- `start_tx_thread`. The thread holds a sender of its own, so the channel is never disconnected. -/
def txStep (s : State) : State :=
  match s.tx with
  | .head =>
      if s.running = false ∧ s.channel = [] then { s with tx := .exited }
      else { s with tx := .receiving }
  | .receiving =>
      match s.channel with
      -- `RecvTimeoutError::Timeout`
      | [] => { s with tx := .head }
      | p :: rest => { s with channel := rest, tx := .publishing p }
  | .publishing p =>
      -- `u32::try_from`
      if p.data.length < 2 ^ 32 then
        { s with published := s.published ++ [p.message], tx := .head }
      else { s with aborted := true }
  | .exited => s

/-- What a step of `netdev_cleanup` finds. -/
structure CleanupChoice where
  /-- There is a subscription. -/
  subscribed : Bool
  /-- What `wait_timeout` answers. -/
  timedOut : Bool
  deriving DecidableEq, Repr

/-- `netdev_cleanup`. -/
def cleanupStep (choice : CleanupChoice) (s : State) : State :=
  match s.cleanup with
  | .notCalled => s
  | .stopping => { s with running := false, cleanup := .stopped }
  | .stopped =>
      if choice.subscribed then { s with bql := .nobody, cleanup := .draining }
      else { s with cleanup := .relocking }
  | .draining => { s with bql := .cleanup, cleanup := .relocking }
  | .relocking => { s with cleanup := .locked }
  | .locked =>
      if 0 < s.activeVcpuCount then { s with bql := .nobody, cleanup := .awaiting }
      else { s with cleanup := .counted }
  | .awaiting => { s with cleanup := .woken choice.timedOut }
  | .woken timedOut =>
      { s with bql := .cleanup, cleanup := if timedOut then .counted else .locked }
  | .counted => { s with bql := .nobody, cleanup := .joining }
  | .joining => { s with cleanup := .joined }
  -- what the guest sends later finds `rust_state` null
  | .joined => { s with bql := .cleanup, cleanup := .returned }
  | .returned => s

inductive Move
  | tick (time : UInt64)
  /-- The guest calls `netdev_receive` with a packet. -/
  | call (data : List UInt8)
  | guest
  | tx
  | callCleanup
  | cleanup (choice : CleanupChoice)
  deriving DecidableEq

def step (s : State) : Move → State
  | .tick time => { s with clock := time }
  | .call data => { s with bql := .guest, guest := .calling data }
  | .guest => guestStep s
  | .tx => txStep s
  | .callCleanup => { s with bql := .cleanup, cleanup := .stopping }
  | .cleanup choice => cleanupStep choice s

/-- `netdev_cleanup` holds the mutex. All others hold it within one step. -/
def CleanupPc.hasMutex : CleanupPc → Bool
  | .locked => true
  | .woken _ => true
  | .counted => true
  | .joining => true
  | .joined => true
  | _ => false

def guestReady (s : State) : Bool :=
  match s.guest with
  | .idle => false
  | .calling _ => !s.cleanup.hasMutex
  | .counted _ => true
  | .sent => !s.cleanup.hasMutex

def txReady (s : State) : Bool :=
  match s.tx with
  | .head => !s.cleanup.hasMutex
  | .receiving => true
  | .publishing _ => true
  | .exited => false

def cleanupReady (s : State) : Bool :=
  match s.cleanup with
  | .notCalled => false
  | .draining => decide (s.bql = .nobody)
  | .woken _ => decide (s.bql = .nobody)
  | .joining => decide (s.tx = .exited)
  | .joined => decide (s.bql = .nobody)
  | .returned => false
  | _ => true

def ready (s : State) : Move → Bool
  | .tick time => decide (s.clock ≤ time)
  | .call _ => decide (s.guest = .idle ∧ s.bql = .nobody)
  | .guest => guestReady s
  | .tx => txReady s
  | .callCleanup => decide (s.cleanup = .notCalled ∧ s.bql = .nobody)
  | .cleanup _ => cleanupReady s

def enabled (s : State) (move : Move) : Bool := !s.aborted && ready s move

theorem enabled_eq_true {s : State} {move : Move} :
    enabled s move = true ↔ s.aborted = false ∧ ready s move = true := by
  rw [enabled, Bool.and_eq_true, Bool.not_eq_true']

/-! ## Who holds what

The calls of the guest and `netdev_cleanup` are under the big lock, so `netdev_cleanup` finds no call in
the middle when it clears `running`, and none comes through afterwards. In particular nobody is counted
when it looks at `active_vcpu_count`, and the loop around `wait_timeout` is never entered. -/

/-- The big lock belongs to `netdev_cleanup`, or to its caller. -/
def CleanupPc.hasBql : CleanupPc → Bool
  | .stopping => true
  | .stopped => true
  | .relocking => true
  | .locked => true
  | .counted => true
  | .returned => true
  | _ => false

/-- `running` is not cleared yet. -/
def CleanupPc.isOpen : CleanupPc → Bool
  | .notCalled => true
  | .stopping => true
  | _ => false

def CleanupPc.isWaiting : CleanupPc → Bool
  | .awaiting => true
  | .woken _ => true
  | _ => false

def CleanupPc.hasJoined : CleanupPc → Bool
  | .joined => true
  | .returned => true
  | _ => false

/-- The call is past the test of `running`. -/
def GuestPc.isInside : GuestPc → Bool
  | .counted _ => true
  | .sent => true
  | _ => false

structure Inv (s : State) : Prop where
  bql_guest : s.bql = .guest ↔ s.guest ≠ .idle
  bql_cleanup : s.bql = .cleanup ↔ s.cleanup.hasBql = true
  running : s.running = s.cleanup.isOpen
  active : s.activeVcpuCount = if s.guest.isInside then 1 else 0
  inside : s.guest.isInside = true → s.running = true
  exited : s.tx = .exited → s.running = false ∧ s.channel = []
  joined : s.cleanup.hasJoined = true → s.tx = .exited
  waiting : s.cleanup.isWaiting = false

theorem inv_initial : Inv initial :=
  ⟨by decide, by decide, rfl, rfl, nofun, nofun, nofun, rfl⟩

namespace Inv

variable {s : State}

/-- While `netdev_cleanup` has the big lock, no call of the guest is on its way. -/
theorem guest_idle (hs : Inv s) (h : s.cleanup.hasBql = true) : s.guest = .idle := by
  by_contra hcall
  have hguest := hs.bql_guest.mpr hcall
  have hcleanup := hs.bql_cleanup.mpr h
  rw [hguest] at hcleanup
  cases hcleanup

/-- When nobody holds the big lock, no call of the guest is on its way. -/
theorem guest_idle_of_nobody (hs : Inv s) (h : s.bql = .nobody) : s.guest = .idle := by
  by_contra hcall
  have hguest := hs.bql_guest.mpr hcall
  rw [h] at hguest
  cases hguest

theorem bql_nobody (hs : Inv s) (hidle : s.guest = .idle) (h : s.cleanup.hasBql = false) :
    s.bql = .nobody := by
  cases hbql : s.bql with
  | nobody => rfl
  | guest => exact absurd hidle (hs.bql_guest.mp hbql)
  | cleanup =>
    rw [hs.bql_cleanup.mp hbql] at h
    cases h

theorem active_of_idle (hs : Inv s) (h : s.guest = .idle) : s.activeVcpuCount = 0 := by
  rw [hs.active, h]
  rfl

/-- While a call of the guest is on its way, `netdev_cleanup` does not have the big lock. -/
theorem hasBql_of_guest (hs : Inv s) (h : s.guest ≠ .idle) : s.cleanup.hasBql = false := by
  by_contra hcleanup
  exact h (hs.guest_idle (Bool.eq_true_of_not_eq_false hcleanup))

/-- While a call is past the test of `running`, the thread has not exited. -/
theorem not_exited (hs : Inv s) (h : s.guest.isInside = true) : s.tx ≠ .exited := by
  intro hexited
  have hstopped := (hs.exited hexited).1
  rw [hs.inside h] at hstopped
  cases hstopped

protected theorem guestStep (hs : Inv s) : Inv (guestStep s) := by
  unfold guestStep
  cases hguest : s.guest with
  | idle => exact hs
  | calling data =>
    have hcall : s.guest ≠ .idle := by rw [hguest]; exact GuestPc.noConfusion
    have hbql := hs.hasBql_of_guest hcall
    have hactive : s.activeVcpuCount = 0 := by rw [hs.active, hguest]; rfl
    dsimp only
    split
    · next hrunning =>
        refine ⟨?_, hs.bql_cleanup, hs.running, ?_, fun _ => hrunning, hs.exited, hs.joined, hs.waiting⟩
        · exact ⟨fun _ => GuestPc.noConfusion, fun _ => hs.bql_guest.mpr hcall⟩
        · exact congrArg (· + 1) hactive
    · refine ⟨by simp, ?_, hs.running, hactive, nofun, hs.exited, hs.joined, hs.waiting⟩
      simp [hbql]
  | counted data =>
    have hcall : s.guest ≠ .idle := by rw [hguest]; exact GuestPc.noConfusion
    have hinside : s.guest.isInside = true := by rw [hguest]; rfl
    have hactive : s.activeVcpuCount = 1 := by rw [hs.active, hguest]; rfl
    have hexited := hs.not_exited hinside
    simp only [trySend_eq]
    refine ⟨⟨fun _ => GuestPc.noConfusion, fun _ => hs.bql_guest.mpr hcall⟩, hs.bql_cleanup,
      hs.running, hactive, fun _ => hs.inside hinside, fun h => absurd h hexited, hs.joined,
      hs.waiting⟩
  | sent =>
    have hcall : s.guest ≠ .idle := by rw [hguest]; exact GuestPc.noConfusion
    have hbql := hs.hasBql_of_guest hcall
    have hactive : s.activeVcpuCount = 1 := by rw [hs.active, hguest]; rfl
    refine ⟨by simp, ?_, hs.running, ?_, nofun, hs.exited, hs.joined, hs.waiting⟩
    · simp [hbql]
    · rw [hactive]
      rfl

protected theorem txStep (hs : Inv s) : Inv (txStep s) := by
  have hjoined (h : s.tx ≠ .exited) : ¬ s.cleanup.hasJoined = true := mt hs.joined h
  unfold txStep
  cases htx : s.tx with
  | head =>
    have hjoined := hjoined (by rw [htx]; exact TxPc.noConfusion)
    dsimp only
    split
    · next hdone => exact { hs with exited := fun _ => hdone, joined := fun _ => rfl }
    · exact { hs with exited := nofun, joined := fun h => absurd h hjoined }
  | receiving | publishing p =>
    have hjoined := hjoined (by rw [htx]; exact TxPc.noConfusion)
    dsimp only
    split
    · exact { hs with exited := nofun, joined := fun h => absurd h hjoined }
    · exact { hs with exited := nofun, joined := fun h => absurd h hjoined }
  | exited => exact hs

/-- The steps of `netdev_cleanup` at which it has the big lock and keeps it. -/
theorem cleanupAt (hs : Inv s) {pc : CleanupPc} (hbql : pc.hasBql = s.cleanup.hasBql)
    (hopen : pc.isOpen = s.cleanup.isOpen) (hjoined : pc.hasJoined = true → s.tx = .exited)
    (hwaiting : pc.isWaiting = false) : Inv { s with cleanup := pc } where
  bql_guest := hs.bql_guest
  bql_cleanup := by rw [hbql]; exact hs.bql_cleanup
  running := by rw [hopen]; exact hs.running
  active := hs.active
  inside := hs.inside
  exited := hs.exited
  joined := hjoined
  waiting := hwaiting

/-- `netdev_cleanup` takes the big lock, which nobody has, or gives it up. -/
theorem cleanupBql (hs : Inv s) (hidle : s.guest = .idle) {owner : BqlOwner} {pc : CleanupPc}
    (howner : owner ≠ .guest) (hbql : owner = .cleanup ↔ pc.hasBql = true)
    (hopen : pc.isOpen = s.cleanup.isOpen) (hjoined : pc.hasJoined = true → s.tx = .exited)
    (hwaiting : pc.isWaiting = false) : Inv { s with bql := owner, cleanup := pc } where
  bql_guest := ⟨fun h => absurd h howner, fun h => absurd hidle h⟩
  bql_cleanup := hbql
  running := by rw [hopen]; exact hs.running
  active := hs.active
  inside := hs.inside
  exited := hs.exited
  joined := hjoined
  waiting := hwaiting

protected theorem cleanupStep (hs : Inv s) (h : cleanupReady s = true) (choice : CleanupChoice) :
    Inv (cleanupStep choice s) := by
  have hidle (h : s.cleanup.hasBql = true) : s.guest = .idle := hs.guest_idle h
  unfold cleanupStep
  unfold cleanupReady at h
  cases hpc : s.cleanup with
  | notCalled => exact hs
  | stopping =>
    rw [hpc] at hidle
    have hidle := hidle rfl
    refine ⟨hs.bql_guest, ?_, rfl, hs.active, ?_, ?_, nofun, rfl⟩
    · have hbql := hs.bql_cleanup
      rw [hpc] at hbql
      exact hbql
    · intro hinside
      rw [hidle] at hinside
      cases hinside
    · exact fun hexited => ⟨rfl, (hs.exited hexited).2⟩
  | stopped =>
    rw [hpc] at hidle
    dsimp only
    split
    · exact hs.cleanupBql (hidle rfl) (by decide) (by decide) (by rw [hpc]; rfl) nofun rfl
    · exact hs.cleanupAt (by rw [hpc]; rfl) (by rw [hpc]; rfl) nofun rfl
  | draining =>
    rw [hpc] at h
    have hidle := hs.guest_idle_of_nobody (of_decide_eq_true h)
    exact hs.cleanupBql hidle (by decide) (by decide) (by rw [hpc]; rfl) nofun rfl
  | relocking => exact hs.cleanupAt (by rw [hpc]; rfl) (by rw [hpc]; rfl) nofun rfl
  | locked =>
    -- nobody is counted, so there is nothing to wait for
    rw [hpc] at hidle
    have hactive : ¬ 0 < s.activeVcpuCount := by
      rw [hs.active_of_idle (hidle rfl)]
      exact Nat.lt_irrefl 0
    simp only [if_neg hactive]
    exact hs.cleanupAt (by rw [hpc]; rfl) (by rw [hpc]; rfl) nofun rfl
  | awaiting | woken timedOut =>
    have hwaiting := hs.waiting
    rw [hpc] at hwaiting
    cases hwaiting
  | counted =>
    rw [hpc] at hidle
    exact hs.cleanupBql (hidle rfl) (by decide) (by decide) (by rw [hpc]; rfl) nofun rfl
  | joining =>
    rw [hpc] at h
    exact hs.cleanupAt (by rw [hpc]; rfl) (by rw [hpc]; rfl) (fun _ => of_decide_eq_true h) rfl
  | joined =>
    rw [hpc] at h
    have hidle := hs.guest_idle_of_nobody (of_decide_eq_true h)
    exact hs.cleanupBql hidle (by decide) (by decide) (by rw [hpc]; rfl)
      (fun _ => hs.joined (by rw [hpc]; rfl)) rfl
  | returned => exact hs

protected theorem step (hs : Inv s) {move : Move} (h : enabled s move = true) : Inv (step s move) := by
  have hready := (enabled_eq_true.mp h).2
  cases move with
  | tick time => exact { hs with }
  | call data =>
    obtain ⟨hidle, hbql⟩ := of_decide_eq_true hready
    have hcleanup : ¬ s.cleanup.hasBql = true := fun h => by
      rw [hs.bql_cleanup.mpr h] at hbql
      cases hbql
    refine ⟨⟨fun _ => GuestPc.noConfusion, fun _ => rfl⟩, ⟨nofun, fun h => absurd h hcleanup⟩,
      hs.running, ?_, nofun, hs.exited, hs.joined, hs.waiting⟩
    exact hs.active_of_idle hidle
  | guest => exact hs.guestStep
  | tx => exact hs.txStep
  | callCleanup =>
    obtain ⟨hpc, hbql⟩ := of_decide_eq_true hready
    exact hs.cleanupBql (hs.guest_idle_of_nobody hbql) (by decide) (by decide) (by rw [hpc]; rfl)
      nofun rfl
  | cleanup choice => exact hs.cleanupStep hready choice

end Inv

/-! ## What becomes of the packets -/

/-- The packet that is taken from the channel and not published yet. -/
def TxPc.inHand : TxPc → List TxPacket
  | .publishing p => [p]
  | _ => []

/-- What the packets' way depends on. -/
def State.books (s : State) :=
  (s.accepted, s.published, s.channel, s.tx, s.overflowed, s.txSequence, s.clock)

/-- The packets accepted so far are those published, the one in hand, and those in the channel. -/
structure Ledger (s : State) (done : List TxPacket) : Prop where
  accepted : s.overflowed = false → s.accepted = done ++ (s.tx.inHand ++ s.channel)
  published : s.published = done.map TxPacket.message
  small : ∀ p ∈ done, p.data.length < 2 ^ 32
  sequence : s.accepted.map TxPacket.sequence = (List.range s.accepted.length).map UInt64.ofNat
  txSequence : s.txSequence = UInt64.ofNat s.accepted.length
  vtimes : s.accepted.Pairwise fun p q => p.vtime ≤ q.vtime
  clock : ∀ p ∈ s.accepted, p.vtime ≤ s.clock

theorem ledger_initial : Ledger initial [] :=
  ⟨fun _ => rfl, rfl, nofun, rfl, rfl, .nil, nofun⟩

theorem Ledger.of_books {s s' : State} {done : List TxPacket} (hs : Ledger s done)
    (h : s'.books = s.books) : Ledger s' done := by
  simp only [State.books, Prod.mk.injEq] at h
  obtain ⟨haccepted, hpublished, hchannel, htx, hoverflowed, hsequence, hclock⟩ := h
  constructor
  · rw [haccepted, hchannel, htx, hoverflowed]
    exact hs.accepted
  · rw [hpublished]
    exact hs.published
  · exact hs.small
  · rw [haccepted]
    exact hs.sequence
  · rw [haccepted, hsequence]
    exact hs.txSequence
  · rw [haccepted]
    exact hs.vtimes
  · rw [haccepted, hclock]
    exact hs.clock

section

variable {s : State} {done : List TxPacket}

@[simp] theorem books_cleanupStep (choice : CleanupChoice) : (cleanupStep choice s).books = s.books := by
  unfold cleanupStep
  repeat' split
  all_goals rfl

/-- A call leaves the packets alone, but for its `try_send`. -/
theorem guestStep_cases : (guestStep s).books = s.books ∨
    ∃ data, s.guest = .counted data ∧ (guestStep s).books = (trySend data s).books := by
  unfold guestStep
  cases hguest : s.guest with
  | idle => exact .inl rfl
  | calling data =>
    dsimp only
    split <;> exact .inl rfl
  | counted data => exact .inr ⟨data, rfl, rfl⟩
  | sent => exact .inl rfl

namespace Ledger

/-- The packet is stamped with the next number and a time that is not before the others'. -/
theorem trySend (hs : Ledger s done) (data : List UInt8) : Ledger (trySend data s) done := by
  rw [trySend_eq]
  constructor
  · intro hroom
    dsimp only at hroom ⊢
    split at hroom
    · next hlen => rw [if_pos hlen, hs.accepted hroom, append_assoc, append_assoc]
    · cases hroom
  · exact hs.published
  · exact hs.small
  · dsimp only
    rw [map_append, hs.sequence, length_append, length_singleton, range_succ, map_append, hs.txSequence]
    rfl
  · dsimp only
    rw [hs.txSequence, length_append, length_singleton]
    exact (UInt64.ofNat_add _ 1).symm
  · refine pairwise_append.mpr ⟨hs.vtimes, pairwise_singleton _ _, fun p hp q hq => ?_⟩
    rw [mem_singleton.mp hq]
    exact hs.clock p hp
  · intro p hp
    rcases mem_append.mp hp with hp | hp
    · exact hs.clock p hp
    · rw [mem_singleton.mp hp]
      exact UInt64.le_refl _

/-- The thread takes packets from the channel in order, and publishes what it took. -/
theorem txStep (hs : Ledger s done) : ∃ done', Ledger (txStep s) done' := by
  have haccepted := hs.accepted
  unfold NetdevTx.txStep
  cases htx : s.tx with
  | head =>
    rw [htx] at haccepted
    dsimp only
    split <;> exact ⟨done, { hs with accepted := haccepted }⟩
  | receiving =>
    rw [htx] at haccepted
    dsimp only
    split
    · exact ⟨done, { hs with accepted := haccepted }⟩
    · next p rest hchannel =>
        rw [hchannel] at haccepted
        exact ⟨done, { hs with accepted := haccepted }⟩
  | publishing p =>
    rw [htx] at haccepted
    dsimp only
    split
    · next hsmall =>
        refine ⟨done ++ [p], { hs with accepted := ?_, published := ?_, small := ?_ }⟩
        · intro hroom
          rw [haccepted hroom, append_assoc]
          rfl
        · rw [map_append, hs.published]
          rfl
        · intro q hq
          rcases mem_append.mp hq with hq | hq
          · exact hs.small q hq
          · rw [mem_singleton.mp hq]
            exact hsmall
    · exact ⟨done, { hs with accepted := haccepted }⟩
  | exited => exact ⟨done, hs⟩

protected theorem step (hs : Ledger s done) {move : Move} (h : enabled s move = true) :
    ∃ done', Ledger (step s move) done' := by
  have hready := (enabled_eq_true.mp h).2
  cases move with
  | tick time =>
    have hle : s.clock ≤ time := of_decide_eq_true hready
    exact ⟨done, { hs with clock := fun p hp => UInt64.le_trans (hs.clock p hp) hle }⟩
  | call data => exact ⟨done, hs.of_books rfl⟩
  | guest =>
    rcases guestStep_cases (s := s) with hbooks | ⟨data, -, hsend⟩
    · exact ⟨done, hs.of_books hbooks⟩
    · exact ⟨done, (hs.trySend data).of_books hsend⟩
  | tx => exact hs.txStep
  | callCleanup => exact ⟨done, hs.of_books rfl⟩
  | cleanup choice => exact ⟨done, hs.of_books (books_cleanupStep choice)⟩

end Ledger

end

end Virtmcu.Comms.NetdevTx
