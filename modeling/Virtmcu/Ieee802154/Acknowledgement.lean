import Virtmcu.Ieee802154.Queue

/-! # The acknowledgements of the radio

A frame that asks for it is acknowledged `SIFS` after its delivery time. `on_rx_frame` prepares this before
it looks whether the queue has room, and there is one slot for the acknowledgement and one timer: a second
request takes the place of the first.

The radio is watched while it listens: the requests of the frames that it stored, with the time at which
each is to be acknowledged, and the acknowledgements that it published. They are the same, but for the one
in the slot, exactly as long as every request finds the slot free, the queue not full and its time not
past (`acknowledges_iff`). -/

namespace Virtmcu.Ieee802154

open Comms Devices List Option

variable {fb : Flatbuffers} {search : BinarySearch (ℕ ×ₗ ℕ)} {s t : State}

/-! ## What is watched -/

/-- A sequence number that is to be acknowledged, or was, and when. -/
abbrev Ack := UInt8 × ℕ

/-- The radio, the requests of the frames that it stored, and the acknowledgements that it published. -/
structure Watch where
  device : State
  requests : List Ack
  acks : List Ack
  deriving DecidableEq, Repr

/-- The frame in a message is for this radio and asks for an acknowledgement: its sequence number and its
delivery time. -/
def requestOf (fb : Flatbuffers) (s : State) (data : List UInt8) : Option (UInt8 × UInt64) :=
  if s.state ≠ .rx then none
  else match readFrame fb data with
    | some (some r) =>
        if frameMatchesAddress s.panId s.shortAddr s.extAddr r.frame = some true then
          (ackRequest r.frame).join.map fun seq => (seq, r.vtime)
        else none
    | _ => none

/-- When the request is to be acknowledged. -/
def dueTime (vtime : UInt64) : ℕ := vtime.toNat + sifsNs.toNat

/-- The request of a frame that is stored. -/
def storedRequest (fb : Flatbuffers) (s : State) : Event → List Ack
  | .frame data =>
      if s.rxQueue.length < rxQueueCapacity then
        (requestOf fb s data).toList.map fun request => (request.1, dueTime request.2)
      else []
  | _ => []

/-- A published acknowledgement. -/
def Published.ack? (p : Published) : Option Ack :=
  match p.kind with
  | .ack => (p.payload[2]?).map fun seq => (seq, p.vtime.toNat)
  | .data => none

/-- What may happen while the radio listens: everything but a reset and the registers that lead out of
`Rx`. The clock stops at the acknowledgement timer, so that it fires at its time. -/
def allows (s : State) : Event → Bool
  | .tick time => s.ackTimer.all (time ≤ ·)
  | .write offset _ => decide (registerAt offset ≠ .txGo ∧ registerAt offset ≠ .state)
  | .reset => false
  | _ => true

def watch (fb : Flatbuffers) (search : BinarySearch (ℕ ×ₗ ℕ)) (w : Watch) (event : Event) :
    Watch × Unit :=
  if allows w.device event then
    let t := (step fb search w.device event).1
    (⟨t, w.requests ++ storedRequest fb w.device event,
      w.acks ++ (t.published.drop w.device.published.length).filterMap Published.ack?⟩, ())
  else (w, ())

/-- The acknowledgement that is in the slot. -/
def owed (s : State) : List Ack :=
  if s.ackPending then s.ackTimer.toList.map fun expiry => (s.ackSeq, expiry) else []

/-- Every request was acknowledged, once and at its time, or is in the slot with its time to come. Nothing
else was acknowledged. -/
structure Acknowledges (w : Watch) : Prop where
  requests : w.requests = w.acks ++ owed w.device
  on_time : ∀ expiry ∈ w.device.ackTimer, w.device.now ≤ expiry

/-! ## The slot -/

/-- The radio listens and does nothing else. -/
structure Listening (s : State) : Prop where
  inv : Inv s
  state : s.state = .rx
  backoffTimer : s.backoffTimer = none
  txTimer : s.txTimer = none
  slot : s.ackPending = s.ackTimer.isSome
  now_lt : s.now < 2 ^ 63

/-- The parts that decide about acknowledgements. -/
structure SameSlot (s t : State) : Prop where
  state : t.state = s.state
  backoffTimer : t.backoffTimer = s.backoffTimer
  txTimer : t.txTimer = s.txTimer
  ackPending : t.ackPending = s.ackPending
  ackSeq : t.ackSeq = s.ackSeq
  ackTimer : t.ackTimer = s.ackTimer
  now : t.now = s.now
  published : t.published = s.published

theorem SameSlot.refl (s : State) : SameSlot s s := ⟨rfl, rfl, rfl, rfl, rfl, rfl, rfl, rfl⟩

theorem SameSlot.owed (h : SameSlot s t) : owed t = owed s := by
  rw [Ieee802154.owed, Ieee802154.owed, h.ackPending, h.ackSeq, h.ackTimer]

theorem SameSlot.listening (h : SameSlot s t) (hs : Listening s) (ht : Inv t) : Listening t := by
  refine ⟨ht, ?_, ?_, ?_, ?_, ?_⟩
  · rw [h.state, hs.state]
  · rw [h.backoffTimer, hs.backoffTimer]
  · rw [h.txTimer, hs.txTimer]
  · rw [h.ackPending, h.ackTimer, hs.slot]
  · rw [h.now]
    exact hs.now_lt

theorem sameSlot_checkRxQueue (h : checkRxQueue s = some t) : SameSlot s t := by
  obtain ⟨_, _, _, _, _, _, _, rfl⟩ := checkRxQueue_changes h
  exact { SameSlot.refl s with }

theorem sameSlot_write {offset value : UInt64} (hallows : allows s (.write offset value) = true)
    (h : write offset value s = some t) : SameSlot s t := by
  obtain ⟨hgo, hstate⟩ := of_decide_eq_true hallows
  unfold write at h
  split at h
  case h_1 =>
    unfold loadByte at h
    split at h
    · obtain ⟨fifo, -, rfl⟩ := map_eq_some_iff.mp h
      exact { SameSlot.refl s with }
    · exact Option.some.inj h ▸ .refl s
  case h_3 heq => exact absurd heq hgo
  case h_4 =>
    unfold clearStatus at h
    dsimp only at h
    split at h
    · exact Option.some.inj h ▸ { SameSlot.refl s with }
    · have hsame := sameSlot_checkRxQueue h
      exact { hsame with }
  case h_5 heq => exact absurd heq hstate
  all_goals exact Option.some.inj h ▸ { SameSlot.refl s with }

/-- A request takes the slot; what becomes of the queue is another matter. -/
structure Requested (seq : UInt8) (vtime : UInt64) (s t : State) : Prop where
  state : t.state = s.state
  backoffTimer : t.backoffTimer = s.backoffTimer
  txTimer : t.txTimer = s.txTimer
  ackPending : t.ackPending = true
  ackSeq : t.ackSeq = seq
  ackTimer : t.ackTimer = some (expiryOf (vtime + sifsNs))
  now : t.now = s.now
  published : t.published = s.published

theorem Requested.owed {seq : UInt8} {vtime : UInt64} (h : Requested seq vtime s t) :
    owed t = [(seq, expiryOf (vtime + sifsNs))] := by
  rw [Ieee802154.owed, h.ackPending, h.ackSeq, h.ackTimer]
  rfl

/-- What a message does to the slot: nothing, or the request takes it. -/
theorem onRxFrame_slot {data : List UInt8} (h : onRxFrame fb search data s = some t) :
    (requestOf fb s data = none → SameSlot s t) ∧
      ∀ seq vtime, requestOf fb s data = some (seq, vtime) → Requested seq vtime s t := by
  have hdropped (hnone : requestOf fb s data = none) (heq : s = t) :
      (requestOf fb s data = none → SameSlot s t) ∧
        ∀ seq vtime, requestOf fb s data = some (seq, vtime) → Requested seq vtime s t := by
    refine ⟨fun _ => heq ▸ .refl s, fun seq vtime hsome => ?_⟩
    rw [hnone] at hsome
    cases hsome
  unfold onRxFrame at h
  split at h
  next hstate => exact hdropped (if_pos hstate) (Option.some.inj h)
  next hstate =>
    obtain ⟨received, hread, h⟩ := bind_eq_some_iff.mp h
    cases received with
    | none => exact hdropped (by simp [requestOf, hstate, hread]) (Option.some.inj h)
    | some r =>
      obtain ⟨isOurs, hmatches, h⟩ := bind_eq_some_iff.mp h
      cases isOurs with
      | false => exact hdropped (by simp [requestOf, hstate, hread, hmatches]) (Option.some.inj h)
      | true =>
        obtain ⟨request, hrequest, h⟩ := bind_eq_some_iff.mp h
        obtain ⟨rxQueue, rxTimer, rfl⟩ := enqueue_changes h
        have hof : requestOf fb s data = request.map fun seq => (seq, r.vtime) := by
          simp [requestOf, hstate, hread, hmatches, hrequest]
        rw [hof]
        cases request with
        | none => exact ⟨fun _ => { SameSlot.refl s with }, fun _ _ hsome => nomatch hsome⟩
        | some seq =>
          refine ⟨fun hnone => (nomatch hnone), fun seq' vtime hsome => ?_⟩
          obtain ⟨rfl, rfl⟩ := Prod.mk.inj (Option.some.inj hsome)
          exact ⟨rfl, rfl, rfl, rfl, rfl, rfl, rfl, rfl⟩

variable {event : Event}

/-- The events that do not touch the slot. -/
theorem sameSlot_step (fb : Flatbuffers) (search : BinarySearch (ℕ ×ₗ ℕ)) (h : Listening s)
    (hallows : allows s event = true)
    (htick : ∀ time, event ≠ .tick time) (hframe : ∀ data, event ≠ .frame data)
    (hack : event ≠ .ackTimer) : SameSlot s (step fb search s event).1 := by
  have hstep := stepChecked_eq_step fb search event h.inv
  generalize (step fb search s event).1 = t at hstep
  cases event with
  | tick time => exact absurd rfl (htick time)
  | read offset =>
    obtain ⟨rxReadPos, rfl⟩ := read_changes hstep
    exact { SameSlot.refl s with }
  | write offset value => exact sameSlot_write hallows hstep
  | frame data => exact absurd rfl (hframe data)
  | rxTimer =>
    simp only [stepChecked] at hstep
    split at hstep
    · have hsame := sameSlot_checkRxQueue hstep
      exact { hsame with }
    · exact Option.some.inj hstep ▸ .refl s
  | backoffTimer =>
    have hidle : isExpired s.backoffTimer s.now = false := by rw [h.backoffTimer]; rfl
    rw [stepChecked, hidle] at hstep
    exact Option.some.inj hstep ▸ .refl s
  | ackTimer => exact absurd rfl hack
  | txTimer =>
    have hidle : isExpired s.txTimer s.now = false := by rw [h.txTimer]; rfl
    rw [stepChecked, hidle] at hstep
    exact Option.some.inj hstep ▸ .refl s
  | reset => cases hallows

/-! ## One event -/

/-- A request finds the slot free and its time to come, if its frame is stored. Otherwise, since the request is
made all the same, it has to be in the slot already, with its number and its time. -/
def Answerable (fb : Flatbuffers) (entry : Entry Watch Event Unit) : Prop :=
  ∀ data seq vtime, entry.input = .frame data →
    requestOf fb entry.before.device data = some (seq, vtime) →
    if entry.before.device.rxQueue.length < rxQueueCapacity then
      entry.before.device.ackPending = false ∧ entry.before.device.now ≤ dueTime vtime ∧
        dueTime vtime < 2 ^ 63
    else owed entry.before.device = [(seq, expiryOf (vtime + sifsNs))]

theorem expiryOf_due (vtime : UInt64) :
    expiryOf (vtime + sifsNs) = dueTime vtime ↔ dueTime vtime < 2 ^ 63 := by
  constructor
  · intro heq
    rw [← heq]
    exact expiryOf_lt _
  · intro hlt
    have hsum : (vtime + sifsNs).toNat = dueTime vtime := by
      rw [UInt64.toNat_add]
      exact Nat.mod_eq_of_lt (by unfold dueTime at hlt; omega)
    rw [expiryOf_of_lt (by omega), hsum]

variable {w : Watch}

theorem watch_of_allows (h : allows w.device event = true) : (watch fb search w event).1 =
      ⟨(step fb search w.device event).1, w.requests ++ storedRequest fb w.device event,
        w.acks ++ ((step fb search w.device event).1.published.drop
          w.device.published.length).filterMap Published.ack?⟩ := by
  rw [watch, if_pos h]

/-- Nothing was published. -/
theorem watch_of_published (h : allows w.device event = true)
    (hpublished : (step fb search w.device event).1.published = w.device.published) :
    (watch fb search w event).1 =
      ⟨(step fb search w.device event).1, w.requests ++ storedRequest fb w.device event, w.acks⟩ := by
  rw [watch_of_allows h, hpublished, drop_length, filterMap_nil, append_nil]

theorem storedRequest_of_ne (h : ∀ data, event ≠ .frame data) : storedRequest fb s event = [] := by
  cases event with
  | frame data => exact absurd rfl (h data)
  | _ => rfl

theorem owed_eq_nil_iff (h : Listening s) : owed s = [] ↔ s.ackPending = false := by
  unfold owed
  cases hpending : s.ackPending with
  | false => simp
  | true =>
    obtain ⟨expiry, htimer⟩ := isSome_iff_exists.mp (h.slot ▸ hpending)
    simp [htimer]

/-- The time of what is in the slot is the time of the timer. -/
theorem ackTimer_of_owed {seq : UInt8} {expiry : ℕ} (h : owed s = [(seq, expiry)]) :
    s.ackTimer = some expiry := by
  unfold owed at h
  split at h
  · cases htimer : s.ackTimer with
    | none =>
      rw [htimer] at h
      cases h
    | some time =>
      rw [htimer] at h
      exact congrArg some (Prod.mk.inj (List.cons.inj h).1).2
  · cases h

/-- A frame whose request goes into the slot. -/
theorem acknowledges_frame_iff (hlisten : Listening w.device) (h : Acknowledges w) {data : List UInt8}
    {seq : UInt8} {vtime : UInt64} (hrequest : requestOf fb w.device data = some (seq, vtime))
    (hstep : (step fb search w.device (.frame data)).1 = t) (ht : Requested seq vtime w.device t) :
    Acknowledges (watch fb search w (.frame data)).1 ↔ if w.device.rxQueue.length < rxQueueCapacity then
        w.device.ackPending = false ∧ w.device.now ≤ dueTime vtime ∧ dueTime vtime < 2 ^ 63
      else owed w.device = [(seq, expiryOf (vtime + sifsNs))] := by
  have howed := ht.owed
  have hpublished : (step fb search w.device (.frame data)).1.published = w.device.published := by
    rw [hstep, ht.published]
  have hsplit (requests : List Ack) : Acknowledges ⟨t, requests, w.acks⟩ ↔
      requests = w.acks ++ [(seq, expiryOf (vtime + sifsNs))] ∧
        w.device.now ≤ expiryOf (vtime + sifsNs) := by
    constructor
    · rintro ⟨heq, hon⟩
      exact ⟨howed ▸ heq, ht.now ▸ hon _ ht.ackTimer⟩
    · rintro ⟨heq, hle⟩
      refine ⟨howed.symm ▸ heq, fun expiry hexpiry => ?_⟩
      rw [ht.ackTimer, mem_some_iff] at hexpiry
      rw [← hexpiry, ht.now]
      exact hle
  rw [watch_of_published rfl hpublished, hstep, hsplit]
  simp only [storedRequest, hrequest, toList_some, map_cons, map_nil]
  rw [h.requests, append_assoc, append_cancel_left_eq]
  split
  next =>
    rw [← owed_eq_nil_iff hlisten, ← expiryOf_due]
    constructor
    · rintro ⟨heq, hle⟩
      have hnil : owed w.device = [] := by
        have hlength := congrArg List.length heq
        rw [length_append] at hlength
        exact length_eq_zero_iff.mp (by simpa using hlength)
      rw [hnil, nil_append] at heq
      have hdue : dueTime vtime = expiryOf (vtime + sifsNs) := (Prod.mk.inj (List.cons.inj heq).1).2
      exact ⟨hnil, hdue.symm ▸ hle, hdue.symm⟩
    · rintro ⟨hnil, hle, hdue⟩
      rw [hnil, hdue]
      exact ⟨rfl, hle⟩
  next =>
    rw [List.append_nil]
    exact ⟨And.left, fun heq => ⟨heq, h.on_time _ (ackTimer_of_owed heq)⟩⟩

/-- Nothing about the slot changes, and no request is stored. -/
theorem Acknowledges.of_sameSlot (h : Acknowledges w) (hsame : SameSlot w.device t) :
    Acknowledges ⟨t, w.requests, w.acks⟩ := by
  refine ⟨by rw [hsame.owed]; exact h.requests, ?_⟩
  rw [hsame.ackTimer, hsame.now]
  exact h.on_time

theorem stepChecked_tick {time : ℕ} (hstep : stepChecked fb search s (.tick time) = some t) :
    ∃ now, t = { s with now := now } ∧ (now = s.now ∨ now = time ∧ time < 2 ^ 63) := by
  simp only [stepChecked, Option.some.injEq] at hstep
  subst hstep
  split
  next hlater => exact ⟨time, rfl, .inr ⟨rfl, hlater.2⟩⟩
  next => exact ⟨s.now, rfl, .inl rfl⟩

/-- The clock stops at the timer, so that the time in the slot is still to come. -/
theorem acknowledges_tick (hlisten : Listening w.device) (h : Acknowledges w) {time : ℕ}
    (hallows : allows w.device (.tick time) = true) : Acknowledges (watch fb search w (.tick time)).1 := by
  have hstep := stepChecked_eq_step fb search (.tick time) hlisten.inv
  obtain ⟨now, heq, hnow⟩ := stepChecked_tick hstep
  rw [watch_of_published hallows (by rw [heq]), storedRequest_of_ne (by simp), append_nil, heq]
  refine ⟨h.requests, fun expiry hexpiry => ?_⟩
  have htimer : w.device.ackTimer = some expiry := hexpiry
  change now ≤ expiry
  rcases hnow with rfl | ⟨rfl, -⟩
  · exact h.on_time expiry htimer
  · have hstops : w.device.ackTimer.all (now ≤ ·) = true := hallows
    rw [htimer] at hstops
    exact of_decide_eq_true hstops

theorem toNat_toUInt64_now (h : Listening s) : s.now.toUInt64.toNat = s.now :=
  UInt64.toNat_ofNat_of_lt' (h.now_lt.trans (by decide))

/-- The timer finds the slot taken. -/
theorem step_ackTimer (h : Listening s) (hexpired : isExpired s.ackTimer s.now = true) :
    (step fb search s .ackTimer).1 =
      { s with
        ackTimer := none
        ackPending := false
        txSequence := s.txSequence + 1
        published := s.published ++ [⟨.ack, s.now.toUInt64, s.txSequence, [0x02, 0x00, s.ackSeq]⟩] } := by
  obtain ⟨expiry, htimer, -⟩ := isExpired_iff.mp hexpired
  have hpending : s.ackPending = true := by rw [h.slot, htimer]; rfl
  simp only [step, stepChecked, hexpired, if_true, getD_some, ackTimerCb, hpending]

theorem step_ackTimer_of_not (hexpired : isExpired s.ackTimer s.now = false) :
    (step fb search s .ackTimer).1 = s := by
  simp [step, stepChecked, hexpired]

/-- The timer fires at its time, and what was in the slot is acknowledged. -/
theorem acknowledges_ackTimer (hlisten : Listening w.device) (h : Acknowledges w) :
    Acknowledges (watch fb search w .ackTimer).1 := by
  rw [watch_of_allows rfl, storedRequest_of_ne (by simp), append_nil]
  cases hexpired : isExpired w.device.ackTimer w.device.now with
  | false => simpa [step_ackTimer_of_not hexpired] using h
  | true =>
    obtain ⟨expiry, htimer, hle⟩ := isExpired_iff.mp hexpired
    have hpending : w.device.ackPending = true := by rw [hlisten.slot, htimer]; rfl
    have hnow : w.device.now = expiry := le_antisymm (h.on_time expiry htimer) hle
    have howed : owed w.device = [(w.device.ackSeq, w.device.now)] := by
      rw [hnow]
      simp [owed, hpending, htimer]
    rw [step_ackTimer hlisten hexpired]
    refine ⟨?_, fun _ hnone => nomatch hnone⟩
    rw [h.requests, howed]
    simp [owed, Published.ack?, toNat_toUInt64_now hlisten]

/-- A message. -/
theorem acknowledges_watch_frame_iff (hlisten : Listening w.device) (h : Acknowledges w)
    (data : List UInt8) : Acknowledges (watch fb search w (.frame data)).1 ↔
      Answerable fb (entryAt (watch fb search) w (.frame data)) := by
  obtain ⟨hnone, hsome⟩ := onRxFrame_slot (stepChecked_eq_step fb search (.frame data) hlisten.inv)
  cases hrequest : requestOf fb w.device data with
  | none =>
    have hsame := hnone hrequest
    refine iff_of_true ?_ ?_
    · rw [watch_of_published rfl hsame.published]
      simpa [storedRequest, hrequest] using h.of_sameSlot hsame
    · intro data' seq vtime hinput hrequest'
      obtain rfl : data = data' := by simpa using hinput
      rw [entryAt_before, hrequest] at hrequest'
      cases hrequest'
  | some request =>
    obtain ⟨seq, vtime⟩ := request
    rw [acknowledges_frame_iff hlisten h hrequest rfl (hsome seq vtime hrequest)]
    constructor
    · intro hfits data' seq' vtime' hinput hrequest'
      obtain rfl : data = data' := by simpa using hinput
      rw [entryAt_before, hrequest] at hrequest'
      obtain ⟨rfl, rfl⟩ := Prod.mk.inj (Option.some.inj hrequest')
      exact hfits
    · intro hanswer
      exact hanswer data seq vtime rfl hrequest

theorem acknowledges_watch_iff (hlisten : Listening w.device) (h : Acknowledges w) (event : Event) :
    Acknowledges (watch fb search w event).1 ↔ Answerable fb (entryAt (watch fb search) w event) := by
  by_cases hallows : allows w.device event = true
  · cases event with
    | tick time =>
      exact iff_of_true (acknowledges_tick hlisten h hallows) fun _ _ _ hevent => nomatch hevent
    | ackTimer => exact iff_of_true (acknowledges_ackTimer hlisten h) fun _ _ _ hevent => nomatch hevent
    | frame data => exact acknowledges_watch_frame_iff hlisten h data
    | read offset | write offset value | rxTimer | backoffTimer | txTimer | reset =>
      have hsame := sameSlot_step fb search hlisten hallows (by simp) (by simp) (by simp)
      refine iff_of_true ?_ fun _ _ _ hevent => nomatch hevent
      rw [watch_of_published hallows hsame.published, storedRequest_of_ne (by simp), append_nil]
      exact h.of_sameSlot hsame
  · -- the event does not happen
    have hsame : (watch fb search w event).1 = w := by rw [watch, if_neg hallows]
    rw [hsame]
    refine iff_of_true h ?_
    intro data seq vtime hinput
    obtain rfl : event = .frame data := hinput
    exact absurd rfl hallows

/-! ## Whole runs -/

/-- Nothing that is allowed leads out of `Rx`. -/
theorem Listening.step (h : Listening s) (hallows : allows s event = true) :
    Listening (step fb search s event).1 := by
  have hinv := h.inv.step fb search event
  cases event with
  | tick time =>
    obtain ⟨now, heq, hnow⟩ := stepChecked_tick (stepChecked_eq_step fb search (.tick time) h.inv)
    rw [heq] at hinv ⊢
    have hlt : now < 2 ^ 63 := by
      rcases hnow with rfl | ⟨rfl, hlt⟩
      exacts [h.now_lt, hlt]
    exact { h with inv := hinv, now_lt := hlt }
  | ackTimer =>
    cases hexpired : isExpired s.ackTimer s.now with
    | false =>
      rw [step_ackTimer_of_not hexpired]
      exact h
    | true =>
      rw [step_ackTimer h hexpired] at hinv ⊢
      exact { h with inv := hinv, slot := rfl }
  | frame data =>
    obtain ⟨hnone, hsome⟩ := onRxFrame_slot (stepChecked_eq_step fb search (.frame data) h.inv)
    cases hrequest : requestOf fb s data with
    | none => exact (hnone hrequest).listening h hinv
    | some request =>
      have ht := hsome request.1 request.2 hrequest
      refine ⟨hinv, ht.state.trans h.state, ht.backoffTimer.trans h.backoffTimer,
        ht.txTimer.trans h.txTimer, ?_, ?_⟩
      · rw [ht.ackPending, ht.ackTimer]
        rfl
      · rw [ht.now]
        exact h.now_lt
  | read offset | write offset value | rxTimer | backoffTimer | txTimer | reset =>
    exact (sameSlot_step fb search h hallows (by simp) (by simp) (by simp)).listening h hinv

theorem Listening.watch (h : Listening w.device) (event : Event) :
    Listening (watch fb search w event).1.device := by
  unfold Ieee802154.watch
  split
  next hallows => exact h.step hallows
  next => exact h

/-- **The radio acknowledges what it accepts exactly if every request is answerable when it comes.** -/
theorem acknowledges_iff (fb : Flatbuffers) (search : BinarySearch (ℕ ×ₗ ℕ)) (s : State)
    (h : Listening s) (hslot : s.ackPending = false) (events : List Event) :
    (∀ entry ∈ entries (watch fb search) ⟨s, [], []⟩ events, Acknowledges entry.after) ↔
      ∀ entry ∈ entries (watch fb search) ⟨s, [], []⟩ events, Answerable fb entry := by
  have howed : owed s = [] := (owed_eq_nil_iff h).mpr hslot
  have htimer : s.ackTimer = none := by
    rw [← Option.not_isSome_iff_eq_none, ← h.slot, hslot]
    exact Bool.false_ne_true
  refine forall_entries_iff (watch fb search) (I := fun w => Listening w.device)
    (fun w event hlisten => hlisten.watch event)
    (fun w event hlisten hall => acknowledges_watch_iff hlisten hall event) h ⟨?_, ?_⟩ events
  · rw [howed]
    rfl
  · rw [htimer]
    exact fun _ hnone => nomatch hnone

/-- The device after the guest has switched the receiver on. -/
def switchedOn : State := (step plainFlatbuffers (linearSearch _) (initial 0) (.write 0x1C 2)).1

theorem listening_switchedOn : Listening switchedOn where
  inv := (inv_initial 0).step _ _ _
  state := by decide +kernel
  backoffTimer := by decide +kernel
  txTimer := by decide +kernel
  slot := by decide +kernel
  now_lt := by decide +kernel

/-- A message with a frame of three bytes that asks for an acknowledgement. -/
def requesting (vtime : UInt64) (seq : UInt8) : Event :=
  .frame (DeterministicCoordinator.encodeRf802154Frame plainFlatbuffers.rf802154Builder vtime
    seq.toUInt64 [0x20, 0x00, seq] 0 255)

theorem acknowledges_iff_listening :
    (∀ entry ∈ entries (watch plainFlatbuffers (linearSearch _)) ⟨switchedOn, [], []⟩
        [requesting 1000 1, .tick 193000, .ackTimer], Acknowledges entry.after) ↔
      ∀ entry ∈ entries (watch plainFlatbuffers (linearSearch _)) ⟨switchedOn, [], []⟩
        [requesting 1000 1, .tick 193000, .ackTimer], Answerable plainFlatbuffers entry :=
  acknowledges_iff _ _ switchedOn listening_switchedOn (by decide +kernel) _

/-- Two requests, the second of which comes before the first is acknowledged. -/
def overtaking : List Event := [requesting 1000 1, requesting 2000 2, .tick 194000, .ackTimer]

/-- Both frames are stored, and only the second is acknowledged. -/
theorem not_acknowledges_overtaking :
    (finalState (watch plainFlatbuffers (linearSearch _)) ⟨switchedOn, [], []⟩ overtaking).requests =
        [(1, 193000), (2, 194000)] ∧
      (finalState (watch plainFlatbuffers (linearSearch _)) ⟨switchedOn, [], []⟩ overtaking).acks =
        [(2, 194000)] ∧
      ¬ Acknowledges (finalState (watch plainFlatbuffers (linearSearch _)) ⟨switchedOn, [], []⟩
        overtaking) := by
  have hrequests : (finalState (watch plainFlatbuffers (linearSearch _)) ⟨switchedOn, [], []⟩
      overtaking).requests = [(1, 193000), (2, 194000)] := by decide +kernel
  have hacks : (finalState (watch plainFlatbuffers (linearSearch _)) ⟨switchedOn, [], []⟩
      overtaking).acks = [(2, 194000)] := by decide +kernel
  refine ⟨hrequests, hacks, fun h => ?_⟩
  have hall := h.requests
  rw [hrequests, hacks] at hall
  exact absurd (List.cons.inj hall).1 (by decide)

end Virtmcu.Ieee802154
