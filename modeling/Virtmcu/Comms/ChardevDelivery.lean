import Virtmcu.Comms.Chardev

/-! # What the guest of the character device receives

The receive path with the virtual clock and a record of what went through it: the packets that were
accepted, when each of them was moved into the heap, and which packet left the heap at which moment with
what staying behind. `Delivers` says that nothing is lost, reordered or stranded: every packet is in one
place, packets leave the heap in order and not before their time, and wherever something waits, the event
that moves it on is pending. It is kept by every event (`delivers_run`).

What a callback does to the heap is said once, for the drain loop (`Drained`). -/

namespace Virtmcu.Comms.ChardevDelivery

open Chardev List

/-! ## The record -/

/-- A packet that leaves the heap, with what stays there. -/
structure Departure where
  packet : Ordered (List UInt8)
  time : ℕ
  rest : Multiset (Ordered (List UInt8))

/-- The device, the virtual clock, and what went through the device so far. No code reads the record. -/
structure History (H : Heap (List UInt8)) where
  device : State H
  now : ℕ
  /-- The packets that the subscription put into the channel. -/
  accepted : List (Ordered (List UInt8))
  /-- The packets that were moved into the heap, and when. -/
  entered : List (Ordered (List UInt8) × ℕ)
  /-- The packets that left the heap. -/
  left : List Departure
  /-- The guest refused a byte, and `accept_input` was not called since. -/
  refused : Bool

variable {H : Heap (List UInt8)}

def initial (H : Heap (List UInt8)) (baudDelayNs : ℕ) : History H :=
  ⟨Chardev.initial H baudDelayNs, 0, [], [], [], false⟩

/-- What `moveOne` takes off the heap. -/
def departure (now : ℕ) (s : State H) : List Departure :=
  match H.pop s.heap with
  | none => []
  | some (p, rest) => if p.isDue now then [⟨p, now, H.items rest⟩] else []

/-- What `drainRounds` takes off the heap. -/
def departures (now : ℕ) : (rounds : ℕ) → State H → List Departure
  | 0, _ => []
  | rounds + 1, s =>
      departure now (s.collect now) ++
        match drainBacklog now s with
        | (false, _) => []
        | (true, t) => departures now rounds t

inductive Event
  /-- The virtual clock goes on. It is an `i64`. -/
  | tick (time : ℕ)
  | message (data : List UInt8)
  | kickTimer
  | rxTimer
  | rxBaudTimer (canWrite : Bool)
  | acceptInput
  deriving DecidableEq, Repr

/-- What the subscription accepts. -/
def acceptedBy (maxBacklog : ℕ) (s : State H) (data : List UInt8) : List (Ordered (List UInt8)) :=
  match packetOf data with
  | none => []
  | some p => if s.admits maxBacklog p then [p] else []

/-- A callback that drains for some rounds and ends in `device`. -/
def History.drain (h : History H) (rounds : ℕ) (s device : State H) : History H :=
  { h with
    device := device
    entered := h.entered ++ s.channel.map fun p => (p, h.now)
    left := h.left ++ departures h.now rounds s }

/-- An event of the device at the time of the clock. -/
def step (maxBacklog : ℕ) (h : History H) : Event → History H × Unit
  | .tick time => (if h.now ≤ time ∧ time < 2 ^ 63 then { h with now := time } else h, ())
  | .message data =>
      ({ h with
          device := (Chardev.step maxBacklog h.device (.message data)).1
          accepted := h.accepted ++ acceptedBy maxBacklog h.device data }, ())
  | .kickTimer =>
      let device := (Chardev.step maxBacklog h.device (.kickTimer h.now)).1
      (if isExpired h.device.kickTimer h.now then
        h.drain 1000 { h.device with kickTimer := none } device
      else { h with device := device }, ())
  | .rxTimer =>
      let device := (Chardev.step maxBacklog h.device (.rxTimer h.now)).1
      (if isExpired h.device.rxTimer h.now then h.drain 1000 { h.device with rxTimer := none } device
      else { h with device := device }, ())
  | .rxBaudTimer canWrite =>
      ({ h with
          device := (Chardev.step maxBacklog h.device (.rxBaudTimer h.now canWrite)).1
          refused := h.refused || (isExpired h.device.rxBaudTimer h.now && !canWrite) }, ())
  | .acceptInput =>
      let device := (Chardev.step maxBacklog h.device (.acceptInput h.now)).1
      ({ h.drain 10 h.device device with refused := false }, ())

/-! ## What is promised -/

structure Delivers (h : History H) : Prop where
  /-- The guest gets what left the heap, in this order; the rest of it is in the backlog. -/
  written : h.device.written ++ h.device.backlog = (h.left.map fun d => d.packet.body).flatten
  /-- The channel hands the packets on in the order they were accepted. -/
  accepted : h.accepted = h.entered.map Prod.fst ++ h.device.channel
  /-- A packet that was moved into the heap is there, or it left once. -/
  once : Multiset.ofList (h.entered.map fun e => stamp e.2 e.1) =
    Multiset.ofList (h.left.map Departure.packet) + H.items h.device.heap
  not_early : ∀ d ∈ h.left, d.packet.vtime.toNat ≤ d.time
  least : ∀ d ∈ h.left, ∀ q ∈ d.rest, d.packet.key ≤ q.key
  channel : h.device.channel ≠ [] → h.device.kickTimer.isSome
  heap : H.items h.device.heap ≠ 0 → ∃ expiry, h.device.rxTimer = some expiry ∧
    ∀ p ∈ H.items h.device.heap, expiry ≤ max p.vtime.toNat (h.now + 1000000)
  backlog : h.device.backlog ≠ [] → h.device.rxBaudTimer.isSome ∨ h.refused = true

/-! ## The drain loop -/

/-- What a drain does to a device, with the packets that left its heap meanwhile. -/
structure Drained (now : ℕ) (s : State H) (left : List Departure) (t : State H) : Prop where
  items : Multiset.ofList (s.channel.map (stamp now)) + H.items s.heap =
    Multiset.ofList (left.map Departure.packet) + H.items t.heap
  channel : t.channel = []
  backlog : t.backlog = s.backlog ++ (left.map fun d => d.packet.body).flatten
  written : t.written = s.written
  kickTimer : t.kickTimer = s.kickTimer
  not_early : ∀ d ∈ left, d.packet.vtime.toNat ≤ d.time
  least : ∀ d ∈ left, ∀ q ∈ d.rest, d.packet.key ≤ q.key
  /-- A backlog that was empty, or had its timer armed, has it armed afterwards. -/
  baud : (s.backlog ≠ [] → s.rxBaudTimer.isSome) → t.backlog ≠ [] → t.rxBaudTimer.isSome
  /-- Bytes that wait without a timer go on doing so. -/
  kept : s.backlog ≠ [] → t.rxBaudTimer = s.rxBaudTimer

variable {s : State H}

variable (now : ℕ)

theorem Drained.refl (h : s.channel = []) : Drained now s [] s := by
  refine ⟨?_, h, ?_, rfl, rfl, ?_, ?_, fun hs => hs, fun _ => rfl⟩ <;> simp [h]

theorem Drained.trans {now : ℕ} {s t u : State H} {left left' : List Departure}
    (h : Drained now s left t) (h' : Drained now t left' u) : Drained now s (left ++ left') u where
  items := by
    have hrest := h'.items
    rw [h.channel, map_nil, Multiset.coe_nil, Multiset.zero_add] at hrest
    rw [h.items, hrest, map_append, ← Multiset.coe_add, add_assoc]
  channel := h'.channel
  backlog := by rw [h'.backlog, h.backlog, map_append, flatten_append, append_assoc]
  written := h'.written.trans h.written
  kickTimer := h'.kickTimer.trans h.kickTimer
  not_early := forall_mem_append.mpr ⟨h.not_early, h'.not_early⟩
  least := forall_mem_append.mpr ⟨h.least, h'.least⟩
  baud := fun hs => h'.baud (h.baud hs)
  kept := by
    intro hne
    have hne' : t.backlog ≠ [] := by simp [h.backlog, hne]
    rw [h'.kept hne', h.kept hne]

/-- The channel is moved into the heap. -/
theorem drained_collect (s : State H) : Drained now s [] (s.collect now) := by
  refine ⟨?_, rfl, ?_, rfl, rfl, ?_, ?_, fun hs => hs, fun _ => rfl⟩
  · simp [State.collect, add_comm]
  · simp [State.collect]
  · simp
  · simp

variable {p : Ordered (List UInt8)}

/-- The packet on top goes to the backlog, and it was the least. -/
theorem drained_extend {now : ℕ} {rest : H.Carrier}
    (hchannel : s.channel = []) (hpop : H.pop s.heap = some (p, rest)) (hdue : p.isDue now = true) :
    Drained now s [⟨p, now, H.items rest⟩] (s.extend now p rest) where
  items := by
    rw [hchannel, H.items_of_pop_some hpop]
    simp [State.extend, ← Multiset.singleton_add]
  channel := hchannel
  backlog := by simp [State.extend]
  written := rfl
  kickTimer := rfl
  not_early := by simpa using hdue
  least := by
    intro d hd q hq
    rw [mem_singleton.mp hd] at hq ⊢
    exact H.key_le_of_pop_some hpop q hq
  baud := by
    intro hs hne
    simp only [State.extend] at hne ⊢
    split
    next => rfl
    next hnot => exact hs fun hnil => hnot ⟨hnil, hne⟩
  kept := by
    intro hne
    simp only [State.extend]
    rw [if_neg fun hboth => hne hboth.1]

theorem drained_moveOne (hchannel : s.channel = []) :
    Drained now s (departure now s) (s.moveOne now) := by
  unfold departure State.moveOne
  cases hpop : H.pop s.heap with
  | none => exact .refl now hchannel
  | some top =>
    dsimp only
    split
    next hdue => exact drained_extend hchannel hpop hdue
    next => exact .refl now hchannel

theorem drained_drainBacklog (s : State H) :
    Drained now s (departure now (s.collect now)) (drainBacklog now s).2 :=
  (drained_collect now s).trans (drained_moveOne now rfl)

/-- One round at least, or nothing in the channel to begin with. -/
theorem drained_drainRounds (now rounds : ℕ) (h : s.channel = [] ∨ 0 < rounds) :
    Drained now s (departures now rounds s) (drainRounds now rounds s).2 := by
  induction rounds generalizing s with
  | zero => exact .refl now (h.resolve_right (lt_irrefl 0))
  | succ rounds ih =>
    have hone := drained_drainBacklog now s
    unfold departures drainRounds
    cases hdrain : drainBacklog now s with
    | mk more t =>
      rw [hdrain] at hone
      cases more with
      | false => simpa using hone
      | true => exact hone.trans (ih (.inl hone.channel))

/-- The loop says whether it left something to do. -/
theorem drainRounds_fst (now rounds : ℕ) (h : s.topDue now = true ∨ 0 < rounds) :
    (drainRounds now rounds s).1 = (drainRounds now rounds s).2.topDue now := by
  induction rounds generalizing s with
  | zero => exact (h.resolve_right (lt_irrefl 0)).symm
  | succ rounds ih =>
    have hfst : (drainBacklog now s).1 = (drainBacklog now s).2.topDue now := rfl
    unfold drainRounds
    cases hdrain : drainBacklog now s with
    | mk more t =>
      rw [hdrain] at hfst
      cases more with
      | false => exact hfst
      | true => exact ih (.inl hfst.symm)

/-! ## The next wakeup -/

theorem schedule_rest (now wait : ℕ) (moreWork : Bool) (s : State H) :
    (s.schedule now wait moreWork).written = s.written ∧
      (s.schedule now wait moreWork).rxBaudTimer = s.rxBaudTimer := by
  unfold State.schedule
  dsimp only
  generalize (if moreWork = true then (now + wait).toUInt64 else _) = nextVtime
  split <;> exact ⟨rfl, rfl⟩

theorem rxTimer_schedule_true {now wait : ℕ} (s : State H) (hne : (now + wait).toUInt64 ≠ maxVtime) :
    (s.schedule now wait true).rxTimer = some (expiryOf (now + wait).toUInt64) := by
  unfold State.schedule
  simp only [if_true]
  rw [if_neg hne]

theorem rxTimer_schedule_false (now wait : ℕ) (hpeek : H.peek s.heap = some p) (hne : p.vtime ≠ maxVtime) :
    (s.schedule now wait false).rxTimer = some (expiryOf p.vtime) := by
  unfold State.schedule
  simp only [Bool.false_eq_true, if_false, hpeek]
  rw [if_neg hne]

theorem ne_maxVtime {vtime : UInt64} (h : vtime.toNat < 2 ^ 63 + 1000001) : vtime ≠ maxVtime := by
  rintro rfl
  exact absurd h (by decide)

/-- A heap that is not empty leaves the timer armed for its least packet, or soon. -/
theorem schedule_armed {now wait : ℕ} (hnow : now < 2 ^ 63) (hwait : wait ≤ 1000000)
    (hsmall : ∀ p ∈ H.items s.heap, p.vtime.toNat < 2 ^ 63) (hne : H.items s.heap ≠ 0) :
    ∃ expiry, (s.schedule now wait (s.topDue now)).rxTimer = some expiry ∧
      ∀ p ∈ H.items s.heap, expiry ≤ max p.vtime.toNat (now + 1000000) := by
  obtain ⟨⟨top, rest⟩, hpop⟩ : ∃ taken, H.pop s.heap = some taken := by
    cases hpop : H.pop s.heap with
    | none => exact absurd (H.items_of_pop_none hpop) hne
    | some taken => exact ⟨taken, rfl⟩
  have hpeek : H.peek s.heap = some top := by rw [PriorityQueue.peek, hpop]; rfl
  have hitems := H.items_of_pop_some hpop
  cases hmore : s.topDue now with
  -- the loop gave up with more to do
  | true =>
    have hsum : (now + wait).toUInt64.toNat = now + wait :=
      UInt64.toNat_ofNat_of_lt' (by change now + wait < 2 ^ 64; omega)
    refine ⟨expiryOf (now + wait).toUInt64, rxTimer_schedule_true s (ne_maxVtime (by omega)), ?_⟩
    intro p _
    have hle := expiryOf_le (now + wait).toUInt64
    omega
  | false =>
    have htop : top.vtime.toNat < 2 ^ 63 := hsmall top (hitems ▸ Multiset.mem_cons_self top _)
    refine ⟨expiryOf top.vtime, rxTimer_schedule_false now wait hpeek (ne_maxVtime (by omega)), ?_⟩
    intro p hp
    have hle : top.vtime.toNat ≤ p.vtime.toNat := by
      rw [hitems, Multiset.mem_cons] at hp
      rcases hp with rfl | hp
      · exact le_rfl
      · exact Ordered.vtime_le_of_key_le (H.key_le_of_pop_some hpop p hp)
    rw [expiryOf_of_lt htop]
    omega

/-! ## Every event keeps the promise -/

/-- The clock stays in its range, also on the record. -/
structure Inv (h : History H) : Prop extends Delivers h where
  now_lt : h.now < 2 ^ 63
  entered_lt : ∀ e ∈ h.entered, e.2 < 2 ^ 63

theorem inv_initial (baudDelayNs : ℕ) : Inv (initial H baudDelayNs) := by
  refine ⟨⟨rfl, rfl, ?_, ?_, ?_, ?_, ?_, ?_⟩, ?_, ?_⟩ <;> simp [initial, Chardev.initial]

theorem stamp_vtime_lt {time : ℕ} (htime : time < 2 ^ 63)
    (hp : p.vtime.toNat < 2 ^ 63) : (stamp time p).vtime.toNat < 2 ^ 63 := by
  unfold stamp
  split
  · rw [show time.toUInt64.toNat = time from
      UInt64.toNat_ofNat_of_lt' (by change time < 2 ^ 64; omega)]
    exact htime
  · exact hp

variable {h : History H}

/-- What is moved into the heap now has a time in the range of the clock, and so has all that is there. -/
theorem Inv.small (hinv : Inv h) (hvtime : ∀ p ∈ h.accepted, p.vtime.toNat < 2 ^ 63) :
    ∀ p ∈ Multiset.ofList (h.device.channel.map (stamp h.now)) + H.items h.device.heap,
      p.vtime.toNat < 2 ^ 63 := by
  intro p hp
  rw [Multiset.mem_add] at hp
  rcases hp with hchannel | hheap
  · obtain ⟨q, hq, rfl⟩ := mem_map.mp (Multiset.mem_coe.mp hchannel)
    refine stamp_vtime_lt hinv.now_lt (hvtime q ?_)
    rw [hinv.accepted]
    exact mem_append_right _ hq
  · have hentered : p ∈ Multiset.ofList (h.entered.map fun e => stamp e.2 e.1) := by
      rw [hinv.once]
      exact Multiset.mem_add.mpr (.inr hheap)
    obtain ⟨e, he, rfl⟩ := mem_map.mp (Multiset.mem_coe.mp hentered)
    refine stamp_vtime_lt (hinv.entered_lt e he) (hvtime e.1 ?_)
    rw [hinv.accepted]
    exact mem_append_left _ (mem_map_of_mem he)

/-- The parts of a device that packets and bytes are in. -/
structure SameContents (s t : State H) : Prop where
  channel : t.channel = s.channel
  heap : t.heap = s.heap
  backlog : t.backlog = s.backlog
  written : t.written = s.written

/-- A callback: it drains `s`, which holds what the device held, and then sets timers. -/
theorem Inv.drain (hinv : Inv h) {rounds : ℕ} (hrounds : 0 < rounds) {s u : State H} {refused : Bool}
    (hs : SameContents h.device s) (hu : SameContents (drainRounds h.now rounds s).2 u)
    (hheap : H.items u.heap ≠ 0 → ∃ expiry, u.rxTimer = some expiry ∧
      ∀ p ∈ H.items u.heap, expiry ≤ max p.vtime.toNat (h.now + 1000000))
    (hbacklog : u.backlog ≠ [] → u.rxBaudTimer.isSome ∨ refused = true) :
    Inv { h.drain rounds s u with refused := refused } := by
  have hdrained := drained_drainRounds h.now rounds (s := s) (.inr hrounds)
  refine ⟨⟨?_, ?_, ?_, ?_, ?_, ?_, hheap, hbacklog⟩, hinv.now_lt, ?_⟩
  all_goals simp only [History.drain]
  · rw [hu.written, hu.backlog, hdrained.written, hdrained.backlog, hs.written, hs.backlog,
      map_append, flatten_append, ← hinv.written, append_assoc]
  · rw [hu.channel, hdrained.channel, append_nil, map_append, map_map, hinv.accepted, hs.channel]
    congr 1
    exact (map_id _).symm
  · -- what the channel lost is in the heap now, or has left it
    have hitems := hdrained.items
    rw [hs.channel, hs.heap] at hitems
    rw [hu.heap, hs.channel, map_append, map_append, ← Multiset.coe_add, ← Multiset.coe_add,
      hinv.once, map_map, add_assoc, add_assoc, ← hitems]
    congr 1
    exact add_comm _ _
  · exact forall_mem_append.mpr ⟨hinv.not_early, hdrained.not_early⟩
  · exact forall_mem_append.mpr ⟨hinv.least, hdrained.least⟩
  · rw [hu.channel, hdrained.channel]
    exact fun hne => absurd rfl hne
  · refine forall_mem_append.mpr ⟨hinv.entered_lt, ?_⟩
    intro e he
    obtain ⟨p, -, rfl⟩ := mem_map.mp he
    exact hinv.now_lt

/-- The packets that a drain leaves in the heap are from before. -/
theorem Inv.small_drained (hinv : Inv h) (hvtime : ∀ p ∈ h.accepted, p.vtime.toNat < 2 ^ 63)
    {s t : State H} {left : List Departure} (hs : SameContents h.device s)
    (hdrained : Drained h.now s left t) : ∀ p ∈ H.items t.heap, p.vtime.toNat < 2 ^ 63 := by
  intro p hp
  refine hinv.small hvtime p ?_
  rw [← hs.channel, ← hs.heap, hdrained.items]
  exact Multiset.mem_add.mpr (.inr hp)

theorem sameContents_schedule (now wait : ℕ) (moreWork : Bool) (s : State H) :
    SameContents s (s.schedule now wait moreWork) := by
  obtain ⟨hchannel, hheap, hbacklog⟩ := schedule_fields now wait moreWork s
  exact ⟨hchannel, hheap, hbacklog, (schedule_rest now wait moreWork s).1⟩

theorem resume_eq (s : State H) :
    s.resume now = { s with rxBaudTimer := if s.backlog ≠ [] then some now else s.rxBaudTimer } := by
  unfold State.resume
  split <;> rfl

theorem rxTimerCb_eq (s : State H) :
    rxTimerCb now s = (drainRounds now 1000 s).2.schedule now 100000
      ((drainRounds now 1000 s).2.topDue now) := by
  rw [← drainRounds_fst now 1000 (.inr (by decide))]
  rfl

theorem acceptInput_eq (s : State H) :
    Chardev.acceptInput now s = ((drainRounds now 10 s).2.resume now).schedule now 1000000
      (((drainRounds now 10 s).2.resume now).topDue now) := by
  have htop : ((drainRounds now 10 s).2.resume now).topDue now = (drainRounds now 10 s).2.topDue now := by
    rw [resume_eq]
    rfl
  rw [htop, ← drainRounds_fst now 10 (.inr (by decide))]
  rfl

/-- The rx timer and the kick timer. -/
theorem Inv.rxTimerCb (hinv : Inv h) (hvtime : ∀ p ∈ h.accepted, p.vtime.toNat < 2 ^ 63)
    (hs : SameContents h.device s) (hbaud : s.rxBaudTimer = h.device.rxBaudTimer) :
    Inv (h.drain 1000 s (rxTimerCb h.now s)) := by
  have hdrained := drained_drainRounds h.now 1000 (s := s) (.inr (by decide))
  have hsmall := hinv.small_drained hvtime hs hdrained
  have hscheduled := sameContents_schedule h.now 100000
    ((drainRounds h.now 1000 s).2.topDue h.now) (drainRounds h.now 1000 s).2
  rw [rxTimerCb_eq]
  change Inv { h.drain 1000 s ((drainRounds h.now 1000 s).2.schedule h.now 100000
    ((drainRounds h.now 1000 s).2.topDue h.now)) with refused := h.refused }
  refine hinv.drain (by decide) hs hscheduled ?_ ?_
  · rw [hscheduled.heap]
    exact schedule_armed hinv.now_lt (by decide) hsmall
  · rw [hscheduled.backlog, (schedule_rest _ _ _ _).2]
    intro hne
    -- bytes without a timer were refused before and stay so
    by_cases hwaits : s.backlog ≠ [] ∧ s.rxBaudTimer.isSome = false
    · refine (hinv.backlog (hs.backlog ▸ hwaits.1)).imp_left fun hsome => ?_
      rw [← hbaud, hwaits.2] at hsome
      cases hsome
    · refine .inl (hdrained.baud (fun hnil => ?_) hne)
      by_contra hnone
      exact hwaits ⟨hnil, Bool.not_eq_true _ ▸ hnone⟩

theorem Inv.acceptInput (hinv : Inv h) (hvtime : ∀ p ∈ h.accepted, p.vtime.toNat < 2 ^ 63) :
    Inv { h.drain 10 h.device (Chardev.acceptInput h.now h.device) with refused := false } := by
  have hs : SameContents h.device h.device := ⟨rfl, rfl, rfl, rfl⟩
  have hdrained := drained_drainRounds h.now 10 (s := h.device) (.inr (by decide))
  have hsmall := hinv.small_drained hvtime hs hdrained
  have hresumed : SameContents (drainRounds h.now 10 h.device).2
      ((drainRounds h.now 10 h.device).2.resume h.now) := by
    rw [resume_eq]
    exact ⟨rfl, rfl, rfl, rfl⟩
  have hscheduled := sameContents_schedule h.now 1000000
    (((drainRounds h.now 10 h.device).2.resume h.now).topDue h.now)
    ((drainRounds h.now 10 h.device).2.resume h.now)
  rw [acceptInput_eq]
  refine hinv.drain (by decide) hs ?_ ?_ ?_
  · exact ⟨hscheduled.channel.trans hresumed.channel, hscheduled.heap.trans hresumed.heap,
      hscheduled.backlog.trans hresumed.backlog, hscheduled.written.trans hresumed.written⟩
  · rw [hscheduled.heap]
    refine schedule_armed hinv.now_lt le_rfl ?_
    rw [hresumed.heap]
    exact hsmall
  · rw [hscheduled.backlog, hresumed.backlog, (schedule_rest _ _ _ _).2, resume_eq]
    intro hne
    simp only [if_pos hne]
    exact .inl rfl

theorem Inv.message (hinv : Inv h) (maxBacklog : ℕ) (data : List UInt8) :
    Inv (step maxBacklog h (.message data)).1 := by
  simp only [step, Chardev.step, subCallback, acceptedBy]
  cases packetOf data with
  | none => simpa using hinv
  | some p =>
    dsimp only
    split
    · refine { hinv with accepted := ?_, channel := fun _ => rfl }
      simp only [hinv.accepted, append_assoc]
    · refine { hinv with accepted := ?_ }
      rw [append_nil]
      exact hinv.accepted

/-- A byte goes to the guest and the timer runs for the next one, or the guest refuses. -/
theorem Inv.rxBaudTimer (hinv : Inv h) (maxBacklog : ℕ) (canWrite : Bool) :
    Inv (step maxBacklog h (.rxBaudTimer canWrite)).1 := by
  simp only [step, Chardev.step]
  cases hexpired : isExpired h.device.rxBaudTimer h.now with
  | false => simpa using hinv
  | true =>
    simp only [if_true, rxBaudTimerCb]
    split
    next hbacklog =>
      have hnil : h.device.backlog = [] := hbacklog
      exact { hinv with backlog := fun hne => absurd hnil hne }
    next byte rest hbacklog =>
      have hcons : h.device.backlog = byte :: rest := hbacklog
      have hwritten := hinv.written
      cases canWrite with
      | true =>
        refine { hinv with written := ?_, backlog := ?_ }
        · rw [hcons] at hwritten
          simpa using hwritten
        · intro hne
          have hrest : rest ≠ [] := hne
          simp [hrest]
      | false =>
        exact { hinv with backlog := fun _ => .inr (by simp) }

theorem Inv.tick (hinv : Inv h) (maxBacklog time : ℕ) : Inv (step maxBacklog h (.tick time)).1 := by
  simp only [step]
  split
  next hlater =>
    refine { hinv with now_lt := hlater.2, heap := ?_ }
    intro hne
    obtain ⟨expiry, htimer, hle⟩ := hinv.heap hne
    refine ⟨expiry, htimer, fun p hp => (hle p hp).trans ?_⟩
    exact max_le_max le_rfl (Nat.add_le_add_right hlater.1 _)
  next => exact hinv

theorem Inv.step (hinv : Inv h) (hvtime : ∀ p ∈ h.accepted, p.vtime.toNat < 2 ^ 63) (maxBacklog : ℕ)
    (event : Event) : Inv (step maxBacklog h event).1 := by
  cases event with
  | tick time => exact hinv.tick maxBacklog time
  | message data => exact hinv.message maxBacklog data
  | kickTimer | rxTimer =>
    simp only [ChardevDelivery.step, Chardev.step]
    split
    · exact hinv.rxTimerCb hvtime ⟨rfl, rfl, rfl, rfl⟩ rfl
    · exact hinv
  | rxBaudTimer canWrite => exact hinv.rxBaudTimer maxBacklog canWrite
  | acceptInput => exact hinv.acceptInput hvtime

/-- What was accepted stays on the record. -/
theorem accepted_subset_step (maxBacklog : ℕ) (h : History H) (event : Event) :
    h.accepted ⊆ (step maxBacklog h event).1.accepted := by
  intro p hp
  cases event with
  | tick time =>
    simp only [step]
    split <;> exact hp
  | message data => exact mem_append_left _ hp
  | kickTimer | rxTimer =>
    simp only [step]
    split <;> exact hp
  | rxBaudTimer canWrite | acceptInput => exact hp

/-- **Nothing is lost, reordered or stranded**, in any run with delivery times in the range of the
clock. -/
theorem delivers_run (maxBacklog baudDelayNs : ℕ) (events : List Event)
    (hvtime : ∀ p ∈ (finalState (step maxBacklog) (initial H baudDelayNs) events).accepted,
      p.vtime.toNat < 2 ^ 63) : Delivers (finalState (step maxBacklog) (initial H baudDelayNs) events) := by
  have hrun := finalState_invariant (step maxBacklog)
    (P := fun h : History H => (∀ p ∈ h.accepted, p.vtime.toNat < 2 ^ 63) → Inv h) ?_
    (fun _ => inv_initial baudDelayNs) events
  · exact (hrun hvtime).toDelivers
  · intro h event hinv hsmall
    have hbefore : ∀ p ∈ h.accepted, p.vtime.toNat < 2 ^ 63 := fun p hp =>
      hsmall p (accepted_subset_step maxBacklog h event hp)
    exact (hinv hbefore).step hbefore maxBacklog event

/-- Two packets of which the later one arrives first, and a guest that refuses a byte and takes it then. -/
def receiving : List Event :=
  [.message (DeterministicCoordinator.encodeFrame 300 1 [2, 3]),
    .message (DeterministicCoordinator.encodeFrame 200 0 [1]), .kickTimer, .tick 400, .rxTimer,
    .tick 500, .rxBaudTimer false, .acceptInput, .rxBaudTimer true]

theorem delivers_run_receiving :
    (finalState (step 256) (initial (listQueue Ordered.key) 100) receiving).device.written = [1] ∧
      Delivers (finalState (step 256) (initial (listQueue Ordered.key) 100) receiving) :=
  ⟨by decide +kernel, delivers_run 256 100 receiving (by decide +kernel)⟩

end Virtmcu.Comms.ChardevDelivery
