import Mathlib.Algebra.BigOperators.Group.Multiset.Basic
import Virtmcu.Comms.RxQueue
import Virtmcu.DeterministicCoordinator.Wire
import Virtmcu.Foundations.Run

/-! # The receive path of the character device

The subscription callback of `chardev`, its four receive callbacks (`rx_timer`, `kick_timer`,
`rx_baud_timer`, `chr_accept_input`) and what they share. A packet goes through the channel and the heap;
when its time has come its bytes are appended to `backlog`, from which the guest is fed one by one.

Admission compares `backlog_size` with `max_backlog`, but `backlog_size` counts the bytes of channel and
heap alone (`Counted`). These stay bounded; what waits in `backlog` for a guest that does not read is
bounded by nothing (`held_le_iff`).

All callbacks run with the big lock held, and the virtual clock stands still during one. -/

namespace Virtmcu.Comms.Chardev

open DeterministicCoordinator

/-! ## State -/

/-- `VirtmcuChardevState`, as far as it receives. -/
structure State (H : Heap (List UInt8)) where
  /-- `rx_receiver`. -/
  channel : List (Ordered (List UInt8))
  /-- `local_heap`. -/
  heap : H.Carrier
  backlog : List UInt8
  /-- `backlog_size_atomic`. -/
  backlogSize : ℕ
  /-- `dropped_frames_atomic`. -/
  droppedFrames : ℕ
  earliestVtime : UInt64
  rxTimer : Option ℕ
  rxBaudTimer : Option ℕ
  kickTimer : Option ℕ
  baudDelayNs : ℕ
  /-- What `qemu_chr_be_write` has given to the guest. -/
  written : List UInt8

variable {H : Heap (List UInt8)}

/-- `virtmcu_chr_open`. -/
def initial (H : Heap (List UInt8)) (baudDelayNs : ℕ) : State H where
  channel := []
  heap := H.empty
  backlog := []
  backlogSize := 0
  droppedFrames := 0
  earliestVtime := maxVtime
  rxTimer := none
  rxBaudTimer := none
  kickTimer := none
  baudDelayNs := baudDelayNs
  written := []

/-! ## The subscription callback -/

/-- The capacity of the channel. -/
def channelCapacity : ℕ := 1024

/-- The packet in a message: the header says how much of the rest is data. -/
def packetOf (data : List UInt8) : Option (Ordered (List UInt8)) :=
  (ZenohFrameHeader.unpackSlice data).map fun header =>
    ⟨header.deliveryVtimeNs, header.sequenceNumber, (data.drop zenohFrameHeaderSize).take header.size.toNat⟩

/-- Admission control: the packet is admitted if `backlog_size` leaves room for it and the channel
takes it. -/
def State.admits (maxBacklog : ℕ) (s : State H) (p : Ordered (List UInt8)) : Bool :=
  decide (s.backlogSize + p.body.length ≤ maxBacklog ∧ s.channel.length < channelCapacity)

/-- The callback of `create_chardev_sub_callback`, with the length of the packet it admits. -/
def subCallback (maxBacklog : ℕ) (s : State H) (data : List UInt8) : State H × Option ℕ :=
  match packetOf data with
  | none => (s, none)
  | some p =>
      if s.admits maxBacklog p then
        ({ s with
            channel := s.channel ++ [p]
            backlogSize := s.backlogSize + p.body.length
            kickTimer := some 0 }, some p.body.length)
      else ({ s with droppedFrames := s.droppedFrames + 1 }, none)

/-! ## Draining -/

/-- A packet without a delivery time is due at once. -/
def stamp (now : ℕ) (p : Ordered (List UInt8)) : Ordered (List UInt8) :=
  if p.vtime = 0 then { p with vtime := now.toUInt64 } else p

/-- All that is in the channel goes into the heap. -/
def State.collect (now : ℕ) (s : State H) : State H :=
  { s with channel := [], heap := H.pushAll (s.channel.map (stamp now)) s.heap }

/-- The bytes of a packet that was popped go into the backlog. The clock is an `i64`; with the delay added it
stays below `2^63`. -/
def State.extend (now : ℕ) (s : State H) (p : Ordered (List UInt8)) (rest : H.Carrier) : State H :=
  { s with
    heap := rest
    backlogSize := s.backlogSize - p.body.length
    backlog := s.backlog ++ p.body
    rxBaudTimer :=
      if s.backlog = [] ∧ s.backlog ++ p.body ≠ [] then some (now + s.baudDelayNs) else s.rxBaudTimer }

/-- The packet on top of the heap is due. -/
def State.topDue (now : ℕ) (s : State H) : Bool := (H.peek s.heap).any (Ordered.isDue now)

/-- One packet that is due moves from the heap to the backlog. -/
def State.moveOne (now : ℕ) (s : State H) : State H :=
  match H.pop s.heap with
  | none => s
  | some (p, rest) => if p.isDue now then s.extend now p rest else s

/-- `drain_backlog`: `true` if there is more to do. -/
def drainBacklog (now : ℕ) (s : State H) : Bool × State H :=
  let s := (s.collect now).moveOne now
  (s.topDue now, s)

/-- The loop over `drain_backlog` that gives up after some rounds. -/
def drainRounds (now : ℕ) : (rounds : ℕ) → State H → Bool × State H
  | 0, s => (true, s)
  | rounds + 1, s =>
      match drainBacklog now s with
      | (false, s) => (false, s)
      | (true, s) => drainRounds now rounds s

/-- The next wakeup: after a while if there is more work, or when the next packet is due. -/
def State.schedule (now wait : ℕ) (moreWork : Bool) (s : State H) : State H :=
  let nextVtime :=
    if moreWork then (now + wait).toUInt64
    else match H.peek s.heap with
      | some p => p.vtime
      | none => maxVtime
  if nextVtime = maxVtime then { s with earliestVtime := maxVtime }
  else { s with earliestVtime := nextVtime, rxTimer := some (expiryOf nextVtime) }

/-! ## Callbacks -/

/-- `virtmcu_chr_rx_timer_cb`, and `virtmcu_chr_kick_timer_cb`. -/
def rxTimerCb (now : ℕ) (s : State H) : State H :=
  let (moreWork, s) := drainRounds now 1000 s
  s.schedule now 100000 moreWork

/-- Bytes that wait are fed to the guest again. -/
def State.resume (now : ℕ) (s : State H) : State H :=
  if s.backlog ≠ [] then { s with rxBaudTimer := some now } else s

/-- `virtmcu_chr_accept_input`. -/
def acceptInput (now : ℕ) (s : State H) : State H :=
  let (moreWork, s) := drainRounds now 10 s
  (s.resume now).schedule now 1000000 moreWork

/-- `virtmcu_chr_rx_baud_timer_cb`, with the clock bounded as in `State.extend`. -/
def rxBaudTimerCb (now : ℕ) (canWrite : Bool) (s : State H) : State H :=
  match s.backlog with
  | [] => s
  | byte :: rest =>
      if canWrite then
        { s with
          backlog := rest
          written := s.written ++ [byte]
          rxBaudTimer := if rest ≠ [] then some (now + s.baudDelayNs) else s.rxBaudTimer }
      else s

/-- What happens to the device. -/
inductive Event
  /-- A message arrives. -/
  | message (data : List UInt8)
  /-- The kick timer fires. It runs on the real-time clock and is armed for the past. -/
  | kickTimer (now : ℕ)
  | rxTimer (now : ℕ)
  /-- The baud timer fires; `canWrite` is what the guest answers. -/
  | rxBaudTimer (now : ℕ) (canWrite : Bool)
  /-- The guest has read. -/
  | acceptInput (now : ℕ)
  deriving DecidableEq, Repr

/-- An event and the length of the packet that it admits. A timer that is not due does not fire. -/
def step (maxBacklog : ℕ) (s : State H) : Event → State H × Option ℕ
  | .message data => subCallback maxBacklog s data
  | .kickTimer now =>
      if isExpired s.kickTimer now then (rxTimerCb now { s with kickTimer := none }, none)
      else (s, none)
  | .rxTimer now =>
      if isExpired s.rxTimer now then (rxTimerCb now { s with rxTimer := none }, none) else (s, none)
  | .rxBaudTimer now canWrite =>
      if isExpired s.rxBaudTimer now then
        (rxBaudTimerCb now canWrite { s with rxBaudTimer := none }, none)
      else (s, none)
  | .acceptInput now => (Chardev.acceptInput now s, none)

/-! ## What is held -/

/-- The bytes in packets. -/
def packetBytes (packets : Multiset (Ordered (List UInt8))) : ℕ :=
  (packets.map fun p => p.body.length).sum

/-- The bytes in the channel and the heap. -/
def State.queued (s : State H) : ℕ := packetBytes s.channel + packetBytes (H.items s.heap)

/-- The received bytes that the device holds. -/
def State.held (s : State H) : ℕ := s.queued + s.backlog.length

/-- `backlog_size` counts what is queued, and admission keeps it bounded. -/
structure Counted (maxBacklog : ℕ) (s : State H) : Prop where
  backlogSize_eq : s.backlogSize = s.queued
  backlogSize_le : s.backlogSize ≤ maxBacklog

@[simp] theorem packetBytes_zero : packetBytes 0 = 0 := rfl

@[simp] theorem packetBytes_cons (p : Ordered (List UInt8)) (packets : Multiset (Ordered (List UInt8))) :
    packetBytes (p ::ₘ packets) = p.body.length + packetBytes packets := by
  simp [packetBytes]

@[simp] theorem packetBytes_add (a b : Multiset (Ordered (List UInt8))) :
    packetBytes (a + b) = packetBytes a + packetBytes b := by
  simp [packetBytes]

variable (now : ℕ)

@[simp] theorem stamp_body (p : Ordered (List UInt8)) : (stamp now p).body = p.body := by
  unfold stamp
  split <;> rfl

theorem packetBytes_map_stamp (l : List (Ordered (List UInt8))) :
    packetBytes (l.map (stamp now)) = packetBytes (l : Multiset _) := by
  simp [packetBytes, Function.comp_def]

/-- What draining does: it moves bytes on and counts those that leave the heap. -/
structure Moves (s t : State H) : Prop where
  held : t.held = s.held
  counted : ∀ {maxBacklog}, Counted maxBacklog s → Counted maxBacklog t

theorem Moves.refl (s : State H) : Moves s s := ⟨rfl, id⟩

theorem Moves.trans {s t u : State H} (h : Moves s t) (h' : Moves t u) : Moves s u :=
  ⟨h'.held.trans h.held, fun hs => h'.counted (h.counted hs)⟩

/-- Timers and counters of other things do not matter. -/
theorem Moves.of_eq {s t : State H} (hchannel : t.channel = s.channel) (hheap : t.heap = s.heap)
    (hbacklog : t.backlog = s.backlog) (hsize : t.backlogSize = s.backlogSize) : Moves s t := by
  have hqueued : t.queued = s.queued := by rw [State.queued, State.queued, hchannel, hheap]
  refine ⟨by rw [State.held, State.held, hqueued, hbacklog], ?_⟩
  rintro maxBacklog ⟨heq, hle⟩
  exact ⟨by rw [hsize, hqueued, heq], hsize ▸ hle⟩

theorem moves_collect (s : State H) : Moves s (s.collect now) := by
  have hqueued : (s.collect now).queued = s.queued := by
    simp only [State.queued, State.collect, PriorityQueue.items_pushAll, packetBytes_add,
      packetBytes_map_stamp]
    simp only [Multiset.coe_nil, packetBytes_zero]
    omega
  exact ⟨congrArg (· + s.backlog.length) hqueued, fun h => ⟨h.1.trans hqueued.symm, h.2⟩⟩

theorem moves_extend {now : ℕ} {s : State H} {p : Ordered (List UInt8)} {rest : H.Carrier}
    (hpop : H.pop s.heap = some (p, rest)) : Moves s (s.extend now p rest) := by
  have hitems := congrArg packetBytes (H.items_of_pop_some hpop)
  rw [packetBytes_cons] at hitems
  have hqueued : s.queued = p.body.length + (s.extend now p rest).queued := by
    simp only [State.queued, State.extend, hitems]
    omega
  constructor
  · simp only [State.held, hqueued, State.extend, List.length_append]
    omega
  · rintro maxBacklog ⟨heq, hle⟩
    have hsize : (s.extend now p rest).backlogSize = s.backlogSize - p.body.length := rfl
    constructor <;> omega

theorem moves_drainBacklog (s : State H) : Moves s (drainBacklog now s).2 := by
  refine (moves_collect now s).trans ?_
  unfold drainBacklog State.moveOne
  dsimp only
  cases hpop : H.pop (s.collect now).heap with
  | none => exact Moves.refl _
  | some taken =>
    dsimp only
    split
    · exact moves_extend hpop
    · exact Moves.refl _

theorem moves_drainRounds (now rounds : ℕ) (s : State H) : Moves s (drainRounds now rounds s).2 := by
  induction rounds generalizing s with
  | zero => exact Moves.refl s
  | succ rounds ih =>
    have hone := moves_drainBacklog now s
    unfold drainRounds
    split
    · rename_i t ht
      rwa [ht] at hone
    · rename_i t ht
      rw [ht] at hone
      exact hone.trans (ih t)

theorem moves_schedule (now wait : ℕ) (moreWork : Bool) (s : State H) :
    Moves s (s.schedule now wait moreWork) := by
  unfold State.schedule
  dsimp only
  generalize (if moreWork = true then (now + wait).toUInt64 else _) = nextVtime
  split
  · exact Moves.of_eq rfl rfl rfl rfl
  · exact Moves.of_eq rfl rfl rfl rfl

theorem moves_resume (s : State H) : Moves s (s.resume now) := by
  unfold State.resume
  split
  · exact Moves.of_eq rfl rfl rfl rfl
  · exact Moves.refl s

theorem moves_rxTimerCb (s : State H) : Moves s (rxTimerCb now s) :=
  (moves_drainRounds now 1000 s).trans (moves_schedule now 100000 _ _)

theorem moves_acceptInput (s : State H) : Moves s (acceptInput now s) :=
  ((moves_drainRounds now 10 s).trans (moves_resume now _)).trans (moves_schedule now 1000000 _ _)

/-- The guest takes at most one byte. -/
theorem held_rxBaudTimerCb (canWrite : Bool) (s : State H) :
    (rxBaudTimerCb now canWrite s).held ≤ s.held ∧
      ∀ {maxBacklog}, Counted maxBacklog s → Counted maxBacklog (rxBaudTimerCb now canWrite s) := by
  unfold rxBaudTimerCb
  split
  · exact ⟨le_refl _, id⟩
  · rename_i byte rest hbacklog
    split
    · refine ⟨?_, fun h => ⟨h.1, h.2⟩⟩
      simp only [State.held, State.queued, hbacklog, List.length_cons]
      omega
    · exact ⟨le_refl _, id⟩

/-! ## Steps -/

/-- What an event does to the bytes held: a packet that is admitted adds its own, nothing else adds any,
and the count stays right. -/
structure Effect (maxBacklog : ℕ) (s : State H) (result : State H × Option ℕ) : Prop where
  held_admitted : ∀ len, result.2 = some len → result.1.held = s.held + len
  held_other : result.2 = none → result.1.held ≤ s.held
  counted : Counted maxBacklog s → Counted maxBacklog result.1

variable {maxBacklog : ℕ}

theorem Effect.of_le {s t : State H} (hheld : t.held ≤ s.held)
    (hcounted : Counted maxBacklog s → Counted maxBacklog t) : Effect maxBacklog s (t, none) :=
  ⟨fun len h => absurd h.symm (Option.some_ne_none len), fun _ => hheld, hcounted⟩

theorem Moves.effect {s t : State H} (h : Moves s t) :
    Effect maxBacklog s (t, none) :=
  Effect.of_le (le_of_eq h.held) h.counted

/-- A timer that fires, or not. -/
theorem Effect.ite {s : State H} {c : Prop} [Decidable c] {a b : State H × Option ℕ}
    (ha : Effect maxBacklog s a) (hb : Effect maxBacklog s b) :
    Effect maxBacklog s (if c then a else b) := by
  split
  · exact ha
  · exact hb

theorem effect_subCallback (maxBacklog : ℕ) (s : State H) (data : List UInt8) :
    Effect maxBacklog s (subCallback maxBacklog s data) := by
  unfold subCallback
  cases packetOf data with
  | none => exact (Moves.refl s).effect
  | some p =>
    dsimp only
    split
    · rename_i hadmits
      have hroom := (of_decide_eq_true hadmits).1
      have hqueued : packetBytes ((s.channel ++ [p] : List _) : Multiset _) =
          packetBytes (s.channel : Multiset _) + p.body.length := by
        rw [← Multiset.coe_add, packetBytes_add, Multiset.coe_singleton, ← Multiset.cons_zero,
          packetBytes_cons, packetBytes_zero, Nat.add_zero]
      refine ⟨?_, fun h => absurd h (Option.some_ne_none _), fun h => ⟨?_, hroom⟩⟩
      · rintro len ⟨⟩
        simp only [State.held, State.queued, hqueued]
        omega
      · have heq := h.backlogSize_eq
        simp only [State.queued, hqueued] at heq ⊢
        omega
    · have hdropped : Moves s { s with droppedFrames := s.droppedFrames + 1 } :=
        Moves.of_eq rfl rfl rfl rfl
      exact hdropped.effect

theorem effect_step (maxBacklog : ℕ) (s : State H) (event : Event) :
    Effect maxBacklog s (step maxBacklog s event) := by
  have hidle : Effect maxBacklog s (s, none) := (Moves.refl s).effect
  cases event with
  | message data => exact effect_subCallback maxBacklog s data
  | kickTimer now =>
    have hdisarm : Moves s { s with kickTimer := none } := Moves.of_eq rfl rfl rfl rfl
    exact Effect.ite (hdisarm.trans (moves_rxTimerCb now _)).effect hidle
  | rxTimer now =>
    have hdisarm : Moves s { s with rxTimer := none } := Moves.of_eq rfl rfl rfl rfl
    exact Effect.ite (hdisarm.trans (moves_rxTimerCb now _)).effect hidle
  | rxBaudTimer now canWrite =>
    have hdisarm : Moves s { s with rxBaudTimer := none } := Moves.of_eq rfl rfl rfl rfl
    obtain ⟨hle, hcounted⟩ := held_rxBaudTimerCb now canWrite { s with rxBaudTimer := none }
    refine Effect.ite (Effect.of_le ?_ ?_) hidle
    · exact hle.trans (le_of_eq hdisarm.held)
    · exact fun h => hcounted (hdisarm.counted h)
  | acceptInput now => exact (moves_acceptInput now s).effect

theorem counted_initial (maxBacklog baudDelayNs : ℕ) : Counted maxBacklog (initial H baudDelayNs) := by
  refine ⟨?_, Nat.zero_le _⟩
  simp [State.queued, initial]

theorem held_initial (baudDelayNs : ℕ) : (initial H baudDelayNs).held = 0 := by
  simp [State.held, State.queued, initial]

/-- There is room for a packet next to the bytes that wait for the guest. -/
def Roomy (maxBacklog : ℕ) (entry : Entry (State H) Event (Option ℕ)) : Prop :=
  ∀ len, entry.output = some len →
    entry.before.backlogSize + entry.before.backlog.length + len ≤ maxBacklog

/-- One event keeps the bound exactly if there is room for what it admits. -/
theorem held_step_iff {s : State H} (hcounted : Counted maxBacklog s)
    (hheld : s.held ≤ maxBacklog) (event : Event) : (step maxBacklog s event).1.held ≤ maxBacklog ↔
      Roomy maxBacklog (entryAt (step maxBacklog) s event) := by
  have heffect := effect_step maxBacklog s event
  unfold Roomy
  rw [entryAt_before, entryAt_output, hcounted.backlogSize_eq]
  cases hout : (step maxBacklog s event).2 with
  | none => exact iff_of_true ((heffect.held_other hout).trans hheld) fun _ hlen => nomatch hlen
  | some len =>
    rw [heffect.held_admitted len hout, State.held]
    constructor
    · rintro hle _ ⟨⟩
      exact hle
    · exact fun hroom => hroom len rfl

/-- **When the bytes held stay below `max_backlog`**: exactly if, each time a packet is admitted, the
bytes that wait for the guest leave room for it too. -/
theorem held_le_iff (maxBacklog baudDelayNs : ℕ) (events : List Event) :
    (∀ entry ∈ entries (step maxBacklog) (initial H baudDelayNs) events, entry.after.held ≤ maxBacklog) ↔
      ∀ entry ∈ entries (step maxBacklog) (initial H baudDelayNs) events, Roomy maxBacklog entry := by
  refine forall_entries_iff (step maxBacklog) (I := Counted maxBacklog)
    (P := fun s => s.held ≤ maxBacklog) (fun s event => (effect_step maxBacklog s event).counted)
    (fun s event hcounted hheld => held_step_iff hcounted hheld event)
    (counted_initial maxBacklog baudDelayNs) ?_ events
  rw [held_initial]
  exact Nat.zero_le _

/-! ## A guest that does not read -/

/-- Packets of one byte that come one by one, each moved on by the kick timer; the guest does nothing. -/
def unread : ℕ → List Event
  | 0 => []
  | n + 1 => unread n ++ [.message (encodeFrame 1 0 [0]), .kickTimer 1]

/-- **Two packets are too many**: `max_backlog` is 1, and the device holds 2 bytes. -/
theorem held_unread_two :
    ¬ (finalState (step 1) (initial (listQueue Ordered.key) 86800) (unread 2)).held ≤ 1 := by
  decide +kernel

theorem schedule_fields (now wait : ℕ) (moreWork : Bool) (s : State H) :
    (s.schedule now wait moreWork).channel = s.channel ∧ (s.schedule now wait moreWork).heap = s.heap ∧
      (s.schedule now wait moreWork).backlog = s.backlog := by
  unfold State.schedule
  dsimp only
  generalize (if moreWork = true then (now + wait).toUInt64 else _) = nextVtime
  split <;> exact ⟨rfl, rfl, rfl⟩

end Virtmcu.Comms.Chardev
