import Virtmcu.Ieee802154.Radio

/-! # The receive queue of the radio, and no panic

One invariant for the whole device: the lengths that guard the arrays (`Bounds`), the queue (`Stored`), and
that a frame in it will be delivered (`Woken`). With it no access to an array is out of range, so that every
run goes through (`runChecked_inv`). The delivery of the first frame is due to the guest while the receive
bit is set, and due to the timer otherwise; `check_rx_queue` brings this about from any state, and that is
why the register write that clears the bit may rely on it. -/

namespace Virtmcu.Ieee802154

open Comms Devices List Option

variable {s : State}

/-! ## The invariant -/

/-- The lengths that the code goes by. -/
structure Bounds (s : State) : Prop where
  length_txFifo : s.txFifo.length = 128
  length_rxFifo : s.rxFifo.length = 128
  txLen_le : s.txLen ≤ 128
  rxReadPos_le : s.rxReadPos ≤ s.rxLen
  rxLen_le : s.rxLen ≤ 128
  be_ge : macMinBe ≤ s.be
  be_le : s.be ≤ macMaxBe

/-- What is in the receive queue. -/
structure Stored (s : State) : Prop where
  fits : ∀ f ∈ s.rxQueue, f.data.length = 128 ∧ f.size ≤ 128
  sorted : s.rxQueue.Pairwise fun f g => f.key ≤ g.key
  length_le : s.rxQueue.length ≤ rxQueueCapacity

/-- The first frame of the queue waits for the guest, or for a timer that is not late. -/
def Woken (s : State) : Prop :=
  ∀ f ∈ s.rxQueue.head?, hasBit s.status statusRx = true ∨
    ∃ expiry, s.rxTimer = some expiry ∧ expiry ≤ f.deliveryVtime.toNat

/-- What every step keeps. -/
structure Inv (s : State) : Prop where
  bounds : Bounds s
  stored : Stored s
  woken : Woken s

/-- It holds at the start. -/
theorem inv_initial (nodeId : UInt32) : Inv (initial nodeId) := by
  refine ⟨⟨?_, ?_, ?_, ?_, ?_, ?_, ?_⟩, ⟨?_, ?_, ?_⟩, ?_⟩ <;>
    simp [initial, macMinBe, macMaxBe, Woken]

/-- The operation goes through and leaves the invariant. -/
def Keeps (result : Option State) : Prop := ∃ t, result = some t ∧ Inv t

/-- Nothing is done. -/
theorem Inv.keeps (h : Inv s) : Keeps (some s) := ⟨s, rfl, h⟩

/-! ## The queue -/

/-- Delivering a frame sets the receive bit. -/
theorem deliver_keeps (hbounds : Bounds s) (hstored : Stored s) {f : RxFrame} {rest : List RxFrame}
    (hqueue : s.rxQueue = f :: rest) : Keeps (deliver f rest s) := by
  obtain ⟨hdata, hsize⟩ := hstored.fits f (by simp [hqueue])
  have hslice : slice f.data 0 f.size = some (f.data.take f.size) := slice_zero (by omega)
  have hcopy : copyFront s.rxFifo f.size (f.data.take f.size) =
      some (f.data.take f.size ++ s.rxFifo.drop f.size) := by
    refine copyFront_eq_some ?_ ?_
    · rw [hbounds.length_rxFifo]
      exact hsize
    · rw [length_take]
      omega
  refine ⟨_, by rw [deliver, hslice, bind_some, hcopy, map_some], ?_, ?_, ?_⟩
  · have hlength := hbounds.length_rxFifo
    have hfifo : (f.data.take f.size ++ s.rxFifo.drop f.size).length = 128 := by
      simp only [length_append, length_take, length_drop]
      omega
    exact { hbounds with length_rxFifo := hfifo, rxReadPos_le := Nat.zero_le _, rxLen_le := hsize }
  · have hall := hstored.fits
    have hsorted := hstored.sorted
    have hlength := hstored.length_le
    rw [hqueue] at hall hsorted hlength
    exact ⟨fun g hg => hall g (mem_cons_of_mem f hg), (pairwise_cons.mp hsorted).2,
      Nat.le_of_succ_le hlength⟩
  · intro g _
    left
    rw [hasBit_or, show hasBit statusRx statusRx = true by decide, Bool.or_true]

/-- `check_rx_queue` leaves no frame without a wakeup, wherever it starts. -/
theorem checkRxQueue_keeps (hbounds : Bounds s) (hstored : Stored s) : Keeps (checkRxQueue s) := by
  unfold checkRxQueue
  split
  next hqueue => exact ⟨s, rfl, hbounds, hstored, by simp [Woken, hqueue]⟩
  next f rest hqueue =>
    split
    next =>
      split
      -- the guest has a frame to read
      next hbit => exact ⟨s, rfl, hbounds, hstored, fun _ _ => .inl hbit⟩
      next => exact deliver_keeps hbounds hstored hqueue
    next =>
      -- too early: the timer is armed again
      refine ⟨_, rfl, ?_, ?_, ?_⟩
      · exact { hbounds with }
      · exact { hstored with }
      · intro g hg
        have hfirst : f = g := by simpa [hqueue] using hg
        exact .inr ⟨_, rfl, hfirst ▸ expiryOf_le f.deliveryVtime⟩

/-- A frame that is stored stands where the search found its place, and the timer is armed for the first. -/
theorem enqueue_keeps (search : BinarySearch (ℕ ×ₗ ℕ)) (h : Inv s) {r : Received}
    (hframe : r.frame.length ≤ 128) : Keeps (enqueue search r s) := by
  have hcopy : copyFront (List.replicate 128 (0 : UInt8)) r.frame.length r.frame =
      some (r.frame ++ (List.replicate 128 0).drop r.frame.length) :=
    copyFront_eq_some (by rw [length_replicate]; exact hframe) rfl
  unfold enqueue
  rw [hcopy, bind_some]
  split
  next hroom =>
    dsimp only
    generalize hf : (⟨r.vtime, r.sequence, r.frame ++ (List.replicate 128 0).drop r.frame.length,
      r.frame.length, r.rssi⟩ : RxFrame) = f
    have hfits : f.data.length = 128 ∧ f.size ≤ 128 := by
      subst hf
      refine ⟨?_, hframe⟩
      simp only [length_append, length_drop, length_replicate]
      omega
    -- the contract of the search holds because the queue is sorted
    have hposition := search.position_le_length h.stored.sorted f
    rw [insertAt_eq_some f hposition, bind_some]
    have hsorted := search.pairwise_insert h.stored.sorted f
    generalize hqueue : s.rxQueue.take (search.position (s.rxQueue.map RxFrame.key) f.key) ++
      f :: s.rxQueue.drop (search.position (s.rxQueue.map RxFrame.key) f.key) = queue at hsorted ⊢
    have hmem : ∀ g ∈ queue, g.data.length = 128 ∧ g.size ≤ 128 := by
      subst hqueue
      rw [forall_mem_append, forall_mem_cons]
      exact ⟨fun g hg => h.stored.fits g (mem_of_mem_take hg), hfits,
        fun g hg => h.stored.fits g (mem_of_mem_drop hg)⟩
    have hlength : queue.length = s.rxQueue.length + 1 := by
      subst hqueue
      simp only [length_append, length_take, length_cons, length_drop]
      omega
    -- the timer is armed for the head, whichever frame that is now
    obtain ⟨first, rest, hcons⟩ := exists_cons_of_length_pos (l := queue) (by omega)
    subst hcons
    refine ⟨_, rfl, ?_, ⟨hmem, hsorted, ?_⟩, ?_⟩
    · exact { h.bounds with }
    · rw [hlength]
      exact hroom
    · intro g hg
      have hfirst : first = g := by simpa using hg
      exact .inr ⟨_, rfl, hfirst ▸ expiryOf_le first.deliveryVtime⟩
  next => exact h.keeps

/-! ## Reading a frame -/

variable (fb : Flatbuffers)

/-- The first half of `on_rx_frame` reads within the message. -/
theorem readFrame_eq (data : List UInt8) :
    ∃ received, readFrame fb data = some received ∧ ∀ r ∈ received, r.frame.length ≤ 128 := by
  unfold readFrame
  split
  next => exact ⟨none, rfl, by simp⟩
  next hlength =>
    split
    next => exact ⟨none, rfl, by simp⟩
    next header _ =>
      rw [slice_zero (by omega), bind_some]
      dsimp only
      split
      next => exact ⟨none, rfl, by simp⟩
      next hfits =>
        rw [slice_eq_some (by omega) (by omega), map_some]
        refine ⟨_, rfl, ?_⟩
        intro r hr
        obtain rfl : _ = r := Option.some.inj hr
        simp only [length_take, length_drop]
        omega

/-- An integer inside the frame is read. -/
theorem readNat_eq (frame : List UInt8) {a b : ℕ} (hab : a ≤ b) (hb : b ≤ frame.length) :
    ∃ n, readNat frame a b = some n :=
  ⟨_, by rw [readNat, slice_eq_some hab hb, map_some]⟩

/-- The address test does not index past the frame. -/
theorem frameMatchesAddress_eq (panId shortAddr : UInt16) (extAddr : UInt64) (frame : List UInt8) :
    ∃ isOurs, frameMatchesAddress panId shortAddr extAddr frame = some isOurs := by
  unfold frameMatchesAddress
  split
  next => exact ⟨false, rfl⟩
  next hlength =>
    obtain ⟨fcf, hfcf⟩ := readNat_eq frame (a := 0) (b := 2) (by omega) (by omega)
    rw [hfcf, bind_some]
    split
    next => exact ⟨true, rfl⟩
    next =>
      split
      next => exact ⟨false, rfl⟩
      next hshort =>
        obtain ⟨pan, hpan⟩ := readNat_eq frame (a := 3) (b := 5) (by omega) (by omega)
        obtain ⟨addr, haddr⟩ := readNat_eq frame (a := 5) (b := 7) (by omega) (by omega)
        rw [hpan, bind_some, haddr, map_some]
        exact ⟨_, rfl⟩
    next =>
      split
      next => exact ⟨false, rfl⟩
      next hlong =>
        obtain ⟨pan, hpan⟩ := readNat_eq frame (a := 3) (b := 5) (by omega) (by omega)
        obtain ⟨addr, haddr⟩ := readNat_eq frame (a := 5) (b := 13) (by omega) (by omega)
        rw [hpan, bind_some, haddr, map_some]
        exact ⟨_, rfl⟩
    next => exact ⟨false, rfl⟩

/-- Nor does the test for an acknowledgement request. -/
theorem ackRequest_eq (frame : List UInt8) : ∃ request, ackRequest frame = some request := by
  unfold ackRequest
  split
  next hlength =>
    obtain ⟨fcf, hfcf⟩ := readNat_eq frame (a := 0) (b := 2) (by omega) (by omega)
    rw [hfcf, bind_some]
    split
    next =>
      rw [getElem?_eq_getElem (by omega : 2 < frame.length), map_some]
      exact ⟨_, rfl⟩
    next => exact ⟨none, rfl⟩
  next => exact ⟨none, rfl⟩

/-- What `requestAck` changes is none of the queue's business. -/
theorem Inv.requestAck (h : Inv s) (vtime : UInt64) (request : Option UInt8) :
    Inv (requestAck vtime request s) := by
  cases request with
  | none => exact h
  | some seq =>
    exact ⟨{ h.bounds with }, { h.stored with }, h.woken⟩

/-- A frame from the medium. -/
theorem onRxFrame_keeps (search : BinarySearch (ℕ ×ₗ ℕ)) (data : List UInt8)
    (h : Inv s) : Keeps (onRxFrame fb search data s) := by
  unfold onRxFrame
  split
  next => exact h.keeps
  next =>
    obtain ⟨received, hread, hlength⟩ := readFrame_eq fb data
    rw [hread, bind_some]
    cases received with
    | none => exact h.keeps
    | some r =>
      obtain ⟨isOurs, hmatches⟩ :=
        frameMatchesAddress_eq s.panId s.shortAddr s.extAddr r.frame
      obtain ⟨request, hrequest⟩ := ackRequest_eq r.frame
      dsimp only
      rw [hmatches, bind_some]
      split
      · rw [hrequest, bind_some]
        exact enqueue_keeps search (h.requestAck r.vtime request) (hlength r rfl)
      · exact h.keeps

/-! ## Registers -/

/-- The queue and its wakeup depend on three fields. -/
theorem Inv.of_bounds (h : Inv s) {t : State} (hbounds : Bounds t) (hqueue : t.rxQueue = s.rxQueue)
    (hstatus : hasBit s.status statusRx = true → hasBit t.status statusRx = true)
    (htimer : t.rxTimer = s.rxTimer) : Inv t := by
  refine ⟨hbounds, ?_, ?_⟩
  · refine ⟨?_, ?_, ?_⟩ <;> rw [hqueue]
    exacts [h.stored.fits, h.stored.sorted, h.stored.length_le]
  · intro f hf
    rw [hqueue] at hf
    rw [htimer]
    exact (h.woken f hf).imp_left hstatus

/-- A read of a register. -/
theorem read_keeps (offset : UInt64) (h : Inv s) : Keeps ((read offset s).map Prod.snd) := by
  unfold read
  split
  case h_2 =>
    split
    next hread =>
      have hlength := h.bounds.length_rxFifo
      have hle := h.bounds.rxLen_le
      rw [getElem?_eq_getElem (by omega : s.rxReadPos < s.rxFifo.length)]
      refine ⟨_, rfl, h.of_bounds ?_ rfl id rfl⟩
      exact { h.bounds with rxReadPos_le := hread.2 }
    next => exact h.keeps
  all_goals exact h.keeps

/-- A byte is loaded into the transmit FIFO. -/
theorem loadByte_keeps (value : UInt64) (h : Inv s) : Keeps (loadByte value s) := by
  unfold loadByte
  split
  next hroom =>
    rw [setAt_eq_some _ (by rw [h.bounds.length_txFifo]; exact hroom)]
    refine ⟨_, rfl, h.of_bounds ?_ rfl id rfl⟩
    have hlength : (s.txFifo.set s.txLen value.toUInt8).length = 128 := by
      rw [length_set, h.bounds.length_txFifo]
    exact { h.bounds with length_txFifo := hlength, txLen_le := hroom }
  next => exact h.keeps

/-- Status bits are cleared, and the next frame may be delivered. -/
theorem clearStatus_keeps (value : UInt64) (h : Inv s) : Keeps (clearStatus value s) := by
  have hbounds (status : UInt32) (irq : Bool) : Bounds { s with status := status, irq := irq } :=
    { h.bounds with }
  have hstored (status : UInt32) (irq : Bool) : Stored { s with status := status, irq := irq } :=
    { h.stored with }
  unfold clearStatus
  dsimp only
  split
  next hbit => exact ⟨_, rfl, hbounds _ _, hstored _ _, fun _ _ => .inl hbit⟩
  next => exact checkRxQueue_keeps (hbounds _ _) (hstored _ _)

/-- The transmit command. -/
theorem Inv.txGo (h : Inv s) : Inv (txGo s) := by
  unfold Ieee802154.txGo
  split
  · exact h
  · have hbe : macMinBe ≤ macMaxBe := by decide
    exact h.of_bounds { h.bounds with be_ge := le_rfl, be_le := hbe } rfl id rfl

/-- A write of the state register. -/
theorem Inv.writeState (h : Inv s) (value : UInt64) : Inv (writeState value s) := by
  have hset (state : RadioState) : Inv { s with state := state } :=
    h.of_bounds { h.bounds with }
      rfl id rfl
  unfold Ieee802154.writeState
  split
  · exact hset _
  · exact hset _
  · exact hset _
  · exact h.txGo
  · split
    · exact h.txGo
    · exact h

/-- A write of any register. -/
theorem write_keeps (offset value : UInt64) (h : Inv s) : Keeps (write offset value s) := by
  have hrest (panId shortAddr : UInt16) (extAddr : UInt64) :
      Keeps (some { s with panId := panId, shortAddr := shortAddr, extAddr := extAddr }) :=
    ⟨_, rfl, h.of_bounds
      { h.bounds with } rfl id rfl⟩
  unfold write
  split
  · exact loadByte_keeps value h
  · have hmask : (value &&& 0x7F).toNat ≤ 128 := by
      rw [UInt64.toNat_and]
      exact Nat.and_le_right.trans (by decide)
    exact ⟨_, rfl, h.of_bounds
      { h.bounds with txLen_le := hmask } rfl id rfl⟩
  · exact h.txGo.keeps
  · exact clearStatus_keeps value h
  · exact (h.writeState value).keeps
  · exact hrest _ _ _
  · exact hrest _ _ _
  · exact hrest _ _ _
  · exact hrest _ _ _
  · exact h.keeps

/-! ## Timers -/

/-- The end of a transmission. -/
theorem Inv.finishTx (h : Inv s) : Inv (finishTx s) := by
  refine h.of_bounds ?_ rfl ?_ rfl
  · exact { h.bounds with txLen_le := Nat.zero_le _ }
  · intro hbit
    rw [Ieee802154.finishTx, hasBit_or, hbit, Bool.true_or]

/-- The backoff is over: the frame goes out, or the backoff begins again. -/
theorem backoffTimerCb_keeps (h : Inv s) : Keeps (backoffTimerCb s) := by
  have hcount : Inv { s with nb := s.nb + 1 } :=
    h.of_bounds { h.bounds with }
      rfl id rfl
  have hge := h.bounds.be_ge
  unfold backoffTimerCb
  split
  next =>
    split
    next => exact hcount.finishTx.keeps
    next =>
      refine ⟨_, rfl, h.of_bounds ?_ rfl id rfl⟩
      exact { h.bounds with
        be_ge := le_min (hge.trans (Nat.le_succ _)) (by decide)
        be_le := min_le_right _ _ }
  next =>
    unfold txReal
    rw [slice_zero (by rw [h.bounds.length_txFifo]; exact h.bounds.txLen_le), map_some]
    exact ⟨_, rfl, h.of_bounds
      { h.bounds with } rfl id rfl⟩

/-- The acknowledgement is sent. -/
theorem Inv.ackTimerCb (h : Inv s) : Inv (ackTimerCb s) := by
  unfold Ieee802154.ackTimerCb
  split
  · exact h.of_bounds
      { h.bounds with } rfl id rfl
  · exact h

/-- A reset. -/
theorem inv_reset (h : Inv s) : Inv (reset s) := by
  refine ⟨⟨h.bounds.1, h.bounds.2, ?_, ?_, ?_, ?_, ?_⟩, ⟨?_, ?_, ?_⟩, ?_⟩ <;>
    simp [reset, macMinBe, macMaxBe, Woken]

/-- **No step panics**, and each keeps the invariant. -/
theorem stepChecked_keeps (search : BinarySearch (ℕ ×ₗ ℕ)) (event : Event)
    (h : Inv s) : Keeps (stepChecked fb search s event) := by
  have htimers (backoffTimer ackTimer txTimer : Option ℕ) (now : ℕ) : Inv { s with
      backoffTimer := backoffTimer, ackTimer := ackTimer, txTimer := txTimer, now := now } :=
    h.of_bounds { h.bounds with }
      rfl id rfl
  cases event with
  | tick time =>
    simp only [stepChecked]
    split
    · exact (htimers _ _ _ _).keeps
    · exact h.keeps
  | read offset => exact read_keeps offset h
  | write offset value => exact write_keeps offset value h
  | frame data => exact onRxFrame_keeps fb search data h
  | rxTimer =>
    simp only [stepChecked]
    split
    · exact checkRxQueue_keeps
        { h.bounds with }
        { h.stored with }
    · exact h.keeps
  | backoffTimer =>
    simp only [stepChecked]
    split
    · exact backoffTimerCb_keeps (htimers _ _ _ _)
    · exact h.keeps
  | ackTimer =>
    simp only [stepChecked]
    split
    · exact (htimers s.backoffTimer none s.txTimer s.now).ackTimerCb.keeps
    · exact h.keeps
  | txTimer =>
    simp only [stepChecked]
    split
    · exact (htimers s.backoffTimer s.ackTimer none s.now).finishTx.keeps
    · exact h.keeps
  | reset => exact (inv_reset h).keeps

/-! ## Runs -/

/-- Along a run, `step` is a step of the code. -/
theorem stepChecked_eq_step (search : BinarySearch (ℕ ×ₗ ℕ)) (event : Event)
    (h : Inv s) : stepChecked fb search s event = some (step fb search s event).1 := by
  obtain ⟨t, ht, -⟩ := stepChecked_keeps fb search event h
  rw [step, ht, getD_some]

/-- The same of the steps without the panics. -/
theorem Inv.step (h : Inv s) (fb : Flatbuffers) (search : BinarySearch (ℕ ×ₗ ℕ)) (event : Event) :
    Inv (step fb search s event).1 := by
  obtain ⟨t, ht, hinv⟩ := stepChecked_keeps fb search event h
  rw [Ieee802154.step, ht, getD_some]
  exact hinv

/-- No run panics. -/
theorem foldlM_stepChecked (search : BinarySearch (ℕ ×ₗ ℕ)) (events : List Event)
    (h : Inv s) : Keeps (events.foldlM (stepChecked fb search) s) := by
  induction events generalizing s with
  | nil => exact h.keeps
  | cons event events ih =>
    obtain ⟨t, ht, hinv⟩ := stepChecked_keeps fb search event h
    rw [foldlM_cons, ht]
    exact ih hinv

/-- **No event panics, and the invariant holds after every run.** -/
theorem runChecked_inv (fb : Flatbuffers) (search : BinarySearch (ℕ ×ₗ ℕ)) (nodeId : UInt32)
    (events : List Event) : ∃ s, runChecked fb search nodeId events = some s ∧ Inv s :=
  foldlM_stepChecked fb search events (inv_initial nodeId)

end Virtmcu.Ieee802154
