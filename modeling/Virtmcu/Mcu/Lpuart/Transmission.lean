import Virtmcu.Mcu.Lpuart.Reception

/-! # What the LPUART transmits

A byte that the guest writes to DATA waits in the transmit FIFO. The write that finds the FIFO empty arms
the transmit timer; each time it fires, one byte is published and the timer is armed again while bytes are
left. So the timer is armed whenever a byte waits, every byte leaves once and in its turn, and there is at
least the time of one byte between two of them (`transmits_once`).

Here the device runs against the virtual clock, and what leaves is written down with the time
(`Departure`). -/

namespace Virtmcu.Mcu.Lpuart

open Devices Comms List

variable {H : LinHeap}

/-! ## The clock and what leaves -/

/-- A byte that was published, and when. -/
structure Departure where
  time : ℕ
  byte : UInt8
  deriving DecidableEq, Repr

/-- The message that carries it. -/
def Departure.message (d : Departure) : LinFrame := ⟨d.time.toUInt64, linData, some [d.byte]⟩

/-- The data messages among all that was published; the others are breaks. -/
def State.dataMessages (s : State H) : List LinFrame :=
  s.published.filter fun message => decide (message.type = linData)

/-- The device and the virtual clock. -/
structure Timeline (H : LinHeap) where
  device : State H
  now : ℕ
  sent : List Departure

def Timeline.start (H : LinHeap) : Timeline H := ⟨initial H, 0, []⟩

/-- What happens, while nobody resets the device. -/
inductive Action
  /-- The clock goes on, below `2^63`. -/
  | tick (elapsed : ℕ)
  | read (offset : UInt64)
  | write (offset value : UInt64)
  | txTimer
  | rxTimer
  | message (data : List UInt8)
  deriving DecidableEq, Repr

/-- The byte that leaves with an event. -/
def sentBy (s : State H) : Event → List Departure
  | .txTimer now => if isExpired s.txTimer now then (s.txFifo.take 1).map (Departure.mk now) else []
  | _ => []

/-- An event at the device. -/
def Timeline.perform (fb : Flatbuffers) (t : Timeline H) (event : Event) : Timeline H × Option UInt32 :=
  ({ t with device := (step fb t.device event).1, sent := t.sent ++ sentBy t.device event },
    (step fb t.device event).2)

def act (fb : Flatbuffers) (t : Timeline H) : Action → Timeline H × Option UInt32
  | .tick elapsed => ({ t with now := t.now + elapsed }, none)
  | .read offset => t.perform fb (.read offset)
  | .write offset value => t.perform fb (.write t.now offset value)
  | .txTimer => t.perform fb (.txTimer t.now)
  | .rxTimer => t.perform fb (.rxTimer t.now)
  | .message data => t.perform fb (.message data)

/-- The byte that goes into the FIFO: a write of DATA with TE set, while there is room. -/
def acceptedBy (s : State H) : Action → List UInt8
  | .write offset value =>
      if registerAt offset = .data ∧ hasBit s.ctrl ctrlTe = true ∧ s.txFifo.length < 4096 then
        [(value.toUInt32 &&& 0xFF).toUInt8]
      else []
  | _ => []

/-! ## What the events do to the transmitter -/

/-- The transmitter as before. A break may have been published. -/
structure KeepsTx (s t : State H) : Prop where
  txFifo : t.txFifo = s.txFifo
  txTimer : t.txTimer = s.txTimer
  dataMessages : t.dataMessages = s.dataMessages

theorem KeepsTx.refl (s : State H) : KeepsTx s s := ⟨rfl, rfl, rfl⟩

theorem keepsTx_lpuartRead (offset : UInt64) (s : State H) : KeepsTx s (lpuartRead offset s).2 := by
  unfold lpuartRead
  cases registerAt offset with
  | data =>
    show KeepsTx s (readData s).2
    unfold readData
    cases s.rxBuffer <;> exact ⟨rfl, rfl, rfl⟩
  | _ => exact KeepsTx.refl s

theorem keepsTx_writeCtrl (now : ℕ) (val : UInt32) (s : State H) : KeepsTx s (writeCtrl now val s) := by
  unfold writeCtrl
  dsimp only
  split
  · refine ⟨rfl, rfl, ?_⟩
    exact (filter_append _ _).trans (append_nil _)
  · exact ⟨rfl, rfl, rfl⟩

/-- A byte that is written. The timer is armed by the write that finds the FIFO empty. -/
structure AfterWrite (now : ℕ) (byte : UInt8) (s t : State H) : Prop where
  txFifo : t.txFifo = if s.txFifo.length < 4096 then s.txFifo ++ [byte] else s.txFifo
  txTimer : t.txTimer =
    if s.txFifo = [] then some (now + calculateBaudDelayNs s.baud) else s.txTimer
  dataMessages : t.dataMessages = s.dataMessages

theorem afterWrite_writeData (now : ℕ) (byte : UInt8) (s : State H) :
    AfterWrite now byte s (writeData now byte s) := by
  unfold writeData
  dsimp only
  split
  · rename_i hnil
    exact ⟨rfl, (if_pos hnil).symm, rfl⟩
  · rename_i hne
    exact ⟨rfl, (if_neg hne).symm, rfl⟩

variable {s : State H}

/-- Any other write. -/
theorem keepsTx_lpuartWrite (now : ℕ) {offset : UInt64} (value : UInt64)
    (h : registerAt offset = .data → hasBit s.ctrl ctrlTe = false) :
    KeepsTx s (lpuartWrite now offset value s) := by
  unfold lpuartWrite
  dsimp only
  cases hreg : registerAt offset with
  | ctrl => exact keepsTx_writeCtrl now _ s
  | data =>
    dsimp only
    rw [if_neg (Bool.eq_false_iff.mp (h hreg))]
    exact KeepsTx.refl s
  | _ => exact ⟨rfl, rfl, rfl⟩

theorem keepsTx_subCallback (fb : Flatbuffers) (data : List UInt8) (s : State H) :
    KeepsTx s (subCallback fb data s) := by
  unfold subCallback
  cases fb.linFrame data with
  | none => exact KeepsTx.refl s
  | some frame =>
    dsimp only
    split
    · exact ⟨rfl, rfl, rfl⟩
    · exact ⟨rfl, rfl, rfl⟩

theorem keepsTx_rxTimer (fb : Flatbuffers) (now : ℕ) (s : State H) :
    KeepsTx s (step fb s (.rxTimer now)).1 := by
  by_cases hexpired : isExpired s.rxTimer now = true
  · have h := afterRx_step fb hexpired
    exact ⟨h.txFifo, h.txTimer, congrArg (List.filter _) h.published⟩
  · rw [step_rxTimer_of_not_expired fb (Bool.eq_false_iff.mpr hexpired)]
    exact KeepsTx.refl s

/-- The transmit timer fires: one byte leaves, and the timer is armed again if another one is left. -/
structure AfterTx (now : ℕ) (s t : State H) : Prop where
  txFifo : t.txFifo = s.txFifo.tail
  txTimer : t.txTimer = if s.txFifo.tail = [] then none else some (now + calculateBaudDelayNs s.baud)
  dataMessages : t.dataMessages =
    s.dataMessages ++ ((s.txFifo.take 1).map (Departure.mk now)).map Departure.message

theorem sendByte_of_nil (now : ℕ) (h : s.txFifo = []) : sendByte now s = s := by
  unfold sendByte
  rw [h]

theorem sendByte_of_cons (now : ℕ) {byte : UInt8} {rest : List UInt8} (h : s.txFifo = byte :: rest) :
    sendByte now s = sendLinMsg now linData [byte] { s with txFifo := rest } := by
  unfold sendByte
  rw [h]

theorem afterTx_lpuartTxTimerCb (now : ℕ) (s : State H) :
    AfterTx now s (lpuartTxTimerCb now { s with txTimer := none }) := by
  unfold lpuartTxTimerCb
  by_cases hnil : s.txFifo = []
  · rw [sendByte_of_nil now (s := { s with txTimer := none }) hnil]
    dsimp only
    rw [if_pos hnil]
    refine ⟨?_, ?_, ?_⟩
    · exact hnil.trans (congrArg List.tail hnil).symm
    · rw [hnil]
      rfl
    · rw [hnil]
      exact (append_nil _).symm
  · obtain ⟨byte, rest, hfifo⟩ := exists_cons_of_ne_nil hnil
    have hmessages : (s.published ++ [Departure.message ⟨now, byte⟩]).filter
        (fun message => decide (message.type = linData)) =
        s.dataMessages ++ [Departure.message ⟨now, byte⟩] := filter_append _ _
    rw [sendByte_of_cons now (s := { s with txTimer := none }) hfifo]
    dsimp only [sendLinMsg]
    by_cases hrest : rest = []
    · rw [if_pos hrest]
      refine ⟨?_, ?_, ?_⟩
      · rw [hfifo]
        rfl
      · rw [hfifo, tail_cons, if_pos hrest]
        rfl
      · rw [hfifo]
        exact hmessages
    · rw [if_neg hrest]
      refine ⟨?_, ?_, ?_⟩
      · rw [hfifo]
        rfl
      · rw [hfifo, tail_cons, if_neg hrest]
      · rw [hfifo]
        exact hmessages

variable {now : ℕ}

theorem afterTx_step (fb : Flatbuffers) (h : isExpired s.txTimer now = true) :
    AfterTx now s (step fb s (.txTimer now)).1 := by
  have hstep : (step fb s (.txTimer now)).1 = lpuartTxTimerCb now { s with txTimer := none } := by
    simp only [step, h, if_true]
  rw [hstep]
  exact afterTx_lpuartTxTimerCb now s

theorem step_txTimer_of_not_expired (fb : Flatbuffers)
    (h : isExpired s.txTimer now = false) : (step fb s (.txTimer now)).1 = s := by
  simp only [step, h, Bool.false_eq_true, if_false]

/-! ## Every byte once -/

/-- The data messages are the bytes that left, these and the FIFO are the bytes that were accepted, and
the timer is armed while one of them waits. -/
structure Timeline.Accounted (accepted : List UInt8) (t : Timeline H) : Prop where
  messages : t.device.dataMessages = t.sent.map Departure.message
  bytes : t.sent.map Departure.byte ++ t.device.txFifo = accepted
  armed : t.device.txFifo ≠ [] → ∃ expiry, t.device.txTimer = some expiry

variable {accepted : List UInt8} {t : Timeline H}

variable {fb : Flatbuffers}

theorem KeepsTx.accounted {event : Event}
    (h : KeepsTx t.device (step fb t.device event).1) (hsent : sentBy t.device event = [])
    (ht : t.Accounted accepted) : (t.perform fb event).1.Accounted accepted := by
  refine ⟨?_, ?_, ?_⟩
  · show (step fb t.device event).1.dataMessages = (t.sent ++ sentBy t.device event).map Departure.message
    rw [hsent, append_nil, h.dataMessages]
    exact ht.messages
  · show (t.sent ++ sentBy t.device event).map Departure.byte ++ (step fb t.device event).1.txFifo = accepted
    rw [hsent, append_nil, h.txFifo]
    exact ht.bytes
  · show (step fb t.device event).1.txFifo ≠ [] → ∃ expiry, (step fb t.device event).1.txTimer = some expiry
    rw [h.txFifo, h.txTimer]
    exact ht.armed

/-- A byte that fits goes to the end of the FIFO. -/
theorem AfterWrite.accounted {offset value : UInt64} {byte : UInt8}
    (h : AfterWrite now byte t.device (step fb t.device (.write now offset value)).1)
    (ht : t.Accounted accepted) : (t.perform fb (.write now offset value)).1.Accounted
      (accepted ++ if t.device.txFifo.length < 4096 then [byte] else []) := by
  have hfifo : (step fb t.device (.write now offset value)).1.txFifo =
      t.device.txFifo ++ if t.device.txFifo.length < 4096 then [byte] else [] := by
    rw [h.txFifo]
    split
    · rfl
    · exact (append_nil _).symm
  refine ⟨?_, ?_, fun hne => ?_⟩
  · show (step fb t.device (.write now offset value)).1.dataMessages = (t.sent ++ []).map Departure.message
    rw [append_nil, h.dataMessages]
    exact ht.messages
  · show (t.sent ++ []).map Departure.byte ++ (step fb t.device (.write now offset value)).1.txFifo = _
    rw [append_nil, hfifo, ← append_assoc, ht.bytes]
  · show ∃ expiry, (step fb t.device (.write now offset value)).1.txTimer = some expiry
    rw [h.txTimer]
    split
    · exact ⟨_, rfl⟩
    · rename_i hne
      exact ht.armed hne

/-- The first byte of the FIFO leaves. -/
theorem AfterTx.accounted (h : AfterTx now t.device (step fb t.device (.txTimer now)).1)
    (hexpired : isExpired t.device.txTimer now = true) (ht : t.Accounted accepted) :
    (t.perform fb (.txTimer now)).1.Accounted accepted := by
  have hsent : sentBy t.device (.txTimer now) = (t.device.txFifo.take 1).map (Departure.mk now) :=
    if_pos hexpired
  refine ⟨?_, ?_, fun hne => ?_⟩
  · show (step fb t.device (.txTimer now)).1.dataMessages = (t.sent ++ _).map Departure.message
    rw [hsent, h.dataMessages, map_append, ht.messages]
  · show (t.sent ++ sentBy t.device (.txTimer now)).map Departure.byte ++
      (step fb t.device (.txTimer now)).1.txFifo = accepted
    have hbyte : ((t.device.txFifo.take 1).map (Departure.mk now)).map Departure.byte =
        t.device.txFifo.take 1 := by
      rw [map_map]
      exact map_id _
    rw [hsent, h.txFifo, map_append, hbyte, append_assoc, ← drop_one, take_append_drop]
    exact ht.bytes
  · have hne : (step fb t.device (.txTimer now)).1.txFifo ≠ [] := hne
    show ∃ expiry, (step fb t.device (.txTimer now)).1.txTimer = some expiry
    rw [h.txFifo] at hne
    rw [h.txTimer, if_neg hne]
    exact ⟨_, rfl⟩

/-- A write of DATA with TE set. -/
theorem afterWrite_step (fb : Flatbuffers) (now : ℕ) {offset : UInt64} (value : UInt64)
    (h : registerAt offset = .data ∧ hasBit s.ctrl ctrlTe = true) :
    AfterWrite now (value.toUInt32 &&& 0xFF).toUInt8 s (step fb s (.write now offset value)).1 := by
  have hstep : (step fb s (.write now offset value)).1 =
      writeData now (value.toUInt32 &&& 0xFF).toUInt8 s := by
    simp only [step, lpuartWrite, h.1, h.2, if_true]
  rw [hstep]
  exact afterWrite_writeData now _ s

theorem accounted_write (fb : Flatbuffers) (offset value : UInt64) (ht : t.Accounted accepted) :
    (act fb t (.write offset value)).1.Accounted
      (accepted ++ acceptedBy t.device (.write offset value)) := by
  by_cases hdata : registerAt offset = .data ∧ hasBit t.device.ctrl ctrlTe = true
  · have haccepted : acceptedBy t.device (.write offset value) =
        if t.device.txFifo.length < 4096 then [(value.toUInt32 &&& 0xFF).toUInt8] else [] := by
      simp only [acceptedBy, hdata.1, hdata.2, true_and]
    rw [haccepted]
    exact (afterWrite_step fb t.now value hdata).accounted ht
  · have haccepted : acceptedBy t.device (.write offset value) = [] :=
      if_neg fun h => hdata ⟨h.1, h.2.1⟩
    rw [haccepted, append_nil]
    refine KeepsTx.accounted (keepsTx_lpuartWrite t.now value fun hreg => ?_) rfl ht
    exact Bool.eq_false_iff.mpr fun hte => hdata ⟨hreg, hte⟩

theorem accounted_act (fb : Flatbuffers) (action : Action) (ht : t.Accounted accepted) :
    (act fb t action).1.Accounted (accepted ++ acceptedBy t.device action) := by
  by_cases hwrite : ∃ offset value, action = .write offset value
  · obtain ⟨offset, value, rfl⟩ := hwrite
    exact accounted_write fb offset value ht
  have haccepted : acceptedBy t.device action = [] := by
    cases action with
    | write offset value => exact absurd ⟨offset, value, rfl⟩ hwrite
    | _ => rfl
  rw [haccepted, append_nil]
  cases action with
  | tick elapsed => exact ⟨ht.messages, ht.bytes, ht.armed⟩
  | read offset => exact KeepsTx.accounted (keepsTx_lpuartRead offset t.device) rfl ht
  | write offset value => exact absurd ⟨offset, value, rfl⟩ hwrite
  | txTimer =>
    by_cases hexpired : isExpired t.device.txTimer t.now = true
    · exact (afterTx_step fb hexpired).accounted hexpired ht
    · refine KeepsTx.accounted ?_ (if_neg hexpired) ht
      rw [step_txTimer_of_not_expired fb (Bool.eq_false_iff.mpr hexpired)]
      exact KeepsTx.refl _
  | rxTimer => exact KeepsTx.accounted (keepsTx_rxTimer fb t.now t.device) rfl ht
  | message data => exact KeepsTx.accounted (keepsTx_subCallback fb data t.device) rfl ht

/-! ## The distance of two bytes -/

/-- From departure number `mark` on, no two are closer than the delay, and the timer is not armed for an
earlier time either. -/
structure Timeline.Paced (mark delay : ℕ) (t : Timeline H) : Prop where
  mark_le : mark ≤ t.sent.length
  spaced : (t.sent.drop mark).Pairwise fun d e => d.time + delay ≤ e.time
  past : ∀ d ∈ t.sent.drop mark, d.time ≤ t.now
  ahead : ∀ d ∈ t.sent.drop mark, ∀ expiry, t.device.txTimer = some expiry → d.time + delay ≤ expiry

variable {mark delay : ℕ}

/-- An event without a departure. The timer may be armed anew. -/
theorem Timeline.Paced.perform {event : Event} (hsent : sentBy t.device event = [])
    (htimer : (step fb t.device event).1.txTimer = t.device.txTimer ∨
      (step fb t.device event).1.txTimer = some (t.now + delay)) (ht : t.Paced mark delay) :
    (t.perform fb event).1.Paced mark delay := by
  have hdrop : (t.perform fb event).1.sent = t.sent := by
    show t.sent ++ sentBy t.device event = t.sent
    rw [hsent, append_nil]
  refine ⟨?_, ?_, ?_, ?_⟩
  · rw [hdrop]
    exact ht.mark_le
  · rw [hdrop]
    exact ht.spaced
  · rw [hdrop]
    exact ht.past
  · rw [hdrop]
    intro d hd expiry hexpiry
    have hexpiry : (step fb t.device event).1.txTimer = some expiry := hexpiry
    rcases htimer with h | h
    · exact ht.ahead d hd expiry (h.symm.trans hexpiry)
    · obtain rfl := Option.some.inj (h.symm.trans hexpiry)
      exact Nat.add_le_add_right (ht.past d hd) delay

/-- The transmit timer fires: all that left before left a delay ago. -/
theorem AfterTx.paced (h : AfterTx t.now t.device (step fb t.device (.txTimer t.now)).1)
    (hexpired : isExpired t.device.txTimer t.now = true)
    (hdelay : calculateBaudDelayNs t.device.baud = delay) (ht : t.Paced mark delay) :
    (t.perform fb (.txTimer t.now)).1.Paced mark delay := by
  have hdrop : (t.perform fb (.txTimer t.now)).1.sent.drop mark =
      t.sent.drop mark ++ (t.device.txFifo.take 1).map (Departure.mk t.now) := by
    show (t.sent ++ sentBy t.device (.txTimer t.now)).drop mark = _
    rw [drop_append_of_le_length ht.mark_le, sentBy, if_pos hexpired]
  have hnew : ∀ d ∈ (t.device.txFifo.take 1).map (Departure.mk t.now), d.time = t.now := by
    intro d hd
    obtain ⟨byte, _, rfl⟩ := mem_map.mp hd
    rfl
  obtain ⟨expiry, htimer, hexpiry⟩ := isExpired_iff.mp hexpired
  have hpast : ∀ d ∈ (t.perform fb (.txTimer t.now)).1.sent.drop mark, d.time ≤ t.now := by
    rw [hdrop]
    intro d hd
    rcases mem_append.mp hd with hd | hd
    · exact ht.past d hd
    · exact (hnew d hd).le
  refine ⟨?_, ?_, hpast, fun d hd expiry' hexpiry' => ?_⟩
  · exact ht.mark_le.trans (length_append ▸ Nat.le_add_right _ _)
  · rw [hdrop]
    refine pairwise_append.mpr ⟨ht.spaced, ?_, fun d hd e he => ?_⟩
    · -- one byte at most leaves at a time
      rcases hfifo : t.device.txFifo with _ | ⟨byte, rest⟩
      · exact List.Pairwise.nil
      · exact pairwise_singleton _ _
    · rw [hnew e he]
      exact (ht.ahead d hd expiry htimer).trans hexpiry
  · have hexpiry' : (step fb t.device (.txTimer t.now)).1.txTimer = some expiry' := hexpiry'
    rw [h.txTimer] at hexpiry'
    split at hexpiry'
    · exact absurd hexpiry' (by simp)
    · obtain rfl := Option.some.inj hexpiry'
      rw [hdelay]
      exact Nat.add_le_add_right (hpast d hd) delay

theorem paced_act (fb : Flatbuffers) (action : Action)
    (hdelay : calculateBaudDelayNs t.device.baud = delay) (ht : t.Paced mark delay) :
    (act fb t action).1.Paced mark delay := by
  cases action with
  | tick elapsed =>
    exact ⟨ht.mark_le, ht.spaced, fun d hd => (ht.past d hd).trans (Nat.le_add_right _ _), ht.ahead⟩
  | read offset => exact ht.perform rfl (.inl (keepsTx_lpuartRead offset t.device).txTimer)
  | write offset value =>
    refine ht.perform rfl ?_
    by_cases hdata : registerAt offset = .data ∧ hasBit t.device.ctrl ctrlTe = true
    · rw [(afterWrite_step fb t.now value hdata).txTimer, hdelay]
      split
      · exact .inr rfl
      · exact .inl rfl
    · refine .inl (keepsTx_lpuartWrite t.now value fun hreg => ?_).txTimer
      exact Bool.eq_false_iff.mpr fun hte => hdata ⟨hreg, hte⟩
  | txTimer =>
    by_cases hexpired : isExpired t.device.txTimer t.now = true
    · exact (afterTx_step fb hexpired).paced hexpired hdelay ht
    · refine ht.perform (if_neg hexpired) (.inl ?_)
      rw [step_txTimer_of_not_expired fb (Bool.eq_false_iff.mpr hexpired)]
  | rxTimer => exact ht.perform rfl (.inl (keepsTx_rxTimer fb t.now t.device).txTimer)
  | message data => exact ht.perform rfl (.inl (keepsTx_subCallback fb data t.device).txTimer)

/-! ## Runs -/

/-- **Every byte is transmitted once**, in the order in which it was written, while the timer is armed for
those that wait; and where BAUD has one value, no two of them leave closer than its delay. -/
theorem transmits_once (fb : Flatbuffers) (actions : List Action) :
    let run := finalState (act fb) (Timeline.start H)
    (run actions).device.dataMessages = (run actions).sent.map Departure.message ∧
      (run actions).sent.map Departure.byte ++ (run actions).device.txFifo =
        (entries (act fb) (Timeline.start H) actions).flatMap
          (fun entry => acceptedBy entry.before.device entry.input) ∧
      ((run actions).device.txFifo ≠ [] → ∃ expiry, (run actions).device.txTimer = some expiry) ∧
      ∀ past rest baud, actions = past ++ rest →
        (∀ entry ∈ entries (act fb) (run past) rest, entry.before.device.baud = baud) →
        ((run actions).sent.drop (run past).sent.length).Pairwise
          fun d e => d.time + calculateBaudDelayNs baud ≤ e.time := by
  intro run
  have haccounted : (run actions).Accounted ((entries (act fb) (Timeline.start H) actions).flatMap
      fun entry => acceptedBy entry.before.device entry.input) := by
    refine entries_invariant (act fb) (P := fun es t => t.Accounted
      (es.flatMap fun entry => acceptedBy entry.before.device entry.input)) ?_ ?_ actions
    · exact ⟨rfl, rfl, fun hne => absurd rfl hne⟩
    · intro es t action ht
      rw [List.flatMap_append, List.flatMap_singleton]
      exact accounted_act fb action ht
  refine ⟨haccounted.messages, haccounted.bytes, haccounted.armed, ?_⟩
  rintro past rest baud rfl hbaud
  have hpaced : (finalState (act fb) (run past) rest).Paced (run past).sent.length
      (calculateBaudDelayNs baud) := by
    refine (entries_of_assumption (act fb) (R := fun _ => True) (fun t action hbefore ht => ?_) ?_ hbaud).1
    · exact ⟨paced_act fb action (congrArg calculateBaudDelayNs hbefore) ht, trivial⟩
    · refine ⟨le_rfl, ?_, ?_, ?_⟩
      · rw [List.drop_length]
        exact List.Pairwise.nil
      · rw [List.drop_length]
        exact fun d hd => absurd hd List.not_mem_nil
      · rw [List.drop_length]
        exact fun d hd => absurd hd List.not_mem_nil
  rw [show run (past ++ rest) = finalState (act fb) (run past) rest from finalState_append _ _ _ _]
  exact hpaced.spaced

/-- Two bytes at the rate after power-up, and a break in between. -/
example :
    (finalState (act plainFlatbuffers) (Timeline.start plainHeap)
      [.write 0x18 0x80000, .write 0x1C 65, .write 0x1C 66, .tick 13330, .txTimer, .write 0x18 0x80001,
        .tick 13330, .txTimer]).sent = [⟨13330, 65⟩, ⟨26660, 66⟩] := by
  decide +kernel

end Virtmcu.Mcu.Lpuart
