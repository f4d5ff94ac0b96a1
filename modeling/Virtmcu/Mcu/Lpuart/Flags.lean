import Virtmcu.Mcu.Lpuart.Reception

/-! # The status flags of the LPUART

TDRE and TC tell the guest that the transmit FIFO is empty, RDRF that there is a byte to read, LBKDIF that
a break was seen. The flags and what they stand for are changed one by one, in the accesses, the two timer
callbacks and the reset.

RDRF is right whatever happens (`readable_step`). The other two are not: `lpuart_reset` writes
`0xC0000000` to STAT, which sets LBKDIF and clears TDRE and TC, while `lpuart_init_internal` does the
opposite. All flags are right exactly as long as nobody resets the device (`flagsMirror_iff`). -/

namespace Virtmcu.Mcu.Lpuart

open Devices Comms List

variable {H : LinHeap}

/-! ## What they stand for -/

/-- RDRF says whether there is a byte in the buffer. -/
def State.Readable (s : State H) : Prop := hasBit s.stat statRdrf = true ↔ s.rxBuffer ≠ []

/-- TDRE and TC say whether the FIFO is empty. -/
def State.Writable (s : State H) : Prop :=
  (hasBit s.stat statTdre = true ∧ hasBit s.stat statTc = true) ↔ s.txFifo = []

/-! ## Received frames -/

/-- What bytes do to the flags: nothing, apart from OR. -/
theorem receiveBytes_flags (bytes : List UInt8) (s : State H) : (∀ mask, hasBit statOr mask = false →
      hasBit (bytes.foldl receiveByte s).stat mask = hasBit s.stat mask) ∧
      (s.rxBuffer ≠ [] → (bytes.foldl receiveByte s).rxBuffer ≠ []) := by
  induction bytes generalizing s with
  | nil => exact ⟨fun _ _ => rfl, id⟩
  | cons byte bytes ih =>
    have hbyte : (∀ mask, hasBit statOr mask = false →
        hasBit (receiveByte s byte).stat mask = hasBit s.stat mask) ∧
        (s.rxBuffer ≠ [] → (receiveByte s byte).rxBuffer ≠ []) := by
      unfold receiveByte
      split
      · refine ⟨fun mask hmask => ?_, id⟩
        rw [hasBit_or, hmask, Bool.or_false]
      · exact ⟨fun _ _ => rfl, fun _ => concat_ne_nil _ _⟩
    obtain ⟨hflags, hbuffer⟩ := ih (receiveByte s byte)
    refine ⟨fun mask hmask => ?_, fun hne => hbuffer (hbyte.2 hne)⟩
    rw [foldl_cons, hflags mask hmask, hbyte.1 mask hmask]

/-- What frames can do to the flags. -/
structure FlagsAfter (frames : List OrderedLinFrame) (s t : State H) : Prop where
  tdre : hasBit t.stat statTdre = hasBit s.stat statTdre
  tc : hasBit t.stat statTc = hasBit s.stat statTc
  readable : s.Readable → t.Readable
  lbkdif : hasBit t.stat statLbkdif = true →
    hasBit s.stat statLbkdif = true ∨ ∃ p ∈ frames, p.msgType = linBreak

theorem flagsAfter_receiveFrame (s : State H) (p : OrderedLinFrame) :
    FlagsAfter [p] s (receiveFrame s p) := by
  unfold receiveFrame
  split
  · rename_i hbreak
    refine ⟨?_, ?_, fun hs => ?_, fun _ => .inr ⟨p, mem_singleton_self p, hbreak.1⟩⟩
    · rw [hasBit_or, show hasBit statLbkdif statTdre = false by decide, Bool.or_false]
    · rw [hasBit_or, show hasBit statLbkdif statTc = false by decide, Bool.or_false]
    · unfold State.Readable
      rw [hasBit_or, show hasBit statLbkdif statRdrf = false by decide, Bool.or_false]
      exact hs
  · split
    · obtain ⟨hflags, hbuffer⟩ := receiveBytes_flags p.data s
      have htdre := hflags statTdre (by decide)
      have htc := hflags statTc (by decide)
      have hrdrf := hflags statRdrf (by decide)
      have hlbkdif := hflags statLbkdif (by decide)
      dsimp only
      split
      · rename_i hne
        refine ⟨?_, ?_, fun _ => ?_, fun h => .inl ?_⟩
        · rw [hasBit_or, show hasBit statRdrf statTdre = false by decide, Bool.or_false, htdre]
        · rw [hasBit_or, show hasBit statRdrf statTc = false by decide, Bool.or_false, htc]
        · unfold State.Readable
          rw [hasBit_or, show hasBit statRdrf statRdrf = true by decide, Bool.or_true]
          exact iff_of_true rfl hne
        · rwa [hasBit_or, show hasBit statRdrf statLbkdif = false by decide, Bool.or_false, hlbkdif] at h
      · -- nothing was received, and the buffer was empty before
        rename_i hempty
        refine ⟨htdre, htc, fun hs => ?_, fun h => .inl (hlbkdif ▸ h)⟩
        unfold State.Readable
        rw [hrdrf]
        exact hs.trans (iff_of_false (fun hne => hempty (hbuffer hne)) hempty)
    · exact ⟨rfl, rfl, id, .inl⟩

theorem flagsAfter_receiveFrames (frames : List OrderedLinFrame) (s : State H) :
    FlagsAfter frames s (frames.foldl receiveFrame s) := by
  induction frames generalizing s with
  | nil => exact ⟨rfl, rfl, id, .inl⟩
  | cons p frames ih =>
    have hfirst := flagsAfter_receiveFrame s p
    have hrest := ih (receiveFrame s p)
    refine ⟨hrest.tdre.trans hfirst.tdre, hrest.tc.trans hfirst.tc,
      fun hs => hrest.readable (hfirst.readable hs), fun h => ?_⟩
    rcases hrest.lbkdif h with h | ⟨q, hq, hbreak⟩
    · rcases hfirst.lbkdif h with h | ⟨q, hq, hbreak⟩
      · exact .inl h
      · exact .inr ⟨q, mem_cons.mpr (.inl (mem_singleton.mp hq)), hbreak⟩
    · exact .inr ⟨q, mem_cons_of_mem p hq, hbreak⟩

/-- What the timer callback can do to them. -/
theorem AfterRx.flags {now : ℕ} {s t : State H} (h : AfterRx now s t) : FlagsAfter (s.dueAt now) s t := by
  have hframes := flagsAfter_receiveFrames (s.dueAt now) (s.takeDue now)
  refine ⟨?_, ?_, fun hs => ?_, fun hset => ?_⟩
  · rw [h.stat]
    exact hframes.tdre
  · rw [h.stat]
    exact hframes.tc
  · unfold State.Readable
    rw [h.stat, h.rxBuffer]
    exact hframes.readable hs
  · rw [h.stat] at hset
    exact hframes.lbkdif hset

/-! ## Events -/

/-- The flags are as right as before. A flag for a break was there, or a break was among the frames. -/
structure FlagsKept (frames : List OrderedLinFrame) (s t : State H) : Prop where
  readable : s.Readable → t.Readable
  writable : s.Writable → t.Writable
  lbkdif : hasBit t.stat statLbkdif = true →
    hasBit s.stat statLbkdif = true ∨ ∃ p ∈ frames, p.msgType = linBreak

theorem FlagsAfter.kept {frames : List OrderedLinFrame} {s t : State H} (h : FlagsAfter frames s t)
    (hfifo : t.txFifo = s.txFifo) : FlagsKept frames s t := by
  refine ⟨h.readable, fun hs => ?_, h.lbkdif⟩
  unfold State.Writable
  rw [h.tdre, h.tc, hfifo]
  exact hs

/-- STAT, the buffer and the FIFO are the same. -/
theorem flagsKept_of_eq {s t : State H} (hstat : t.stat = s.stat) (hbuffer : t.rxBuffer = s.rxBuffer)
    (hfifo : t.txFifo = s.txFifo) : FlagsKept [] s t := by
  refine ⟨fun hs => ?_, fun hs => ?_, fun hset => .inl (hstat ▸ hset)⟩
  · unfold State.Readable
    rw [hstat, hbuffer]
    exact hs
  · unfold State.Writable
    rw [hstat, hfifo]
    exact hs

/-- Flags are cleared, none of those that stand for a FIFO. -/
theorem flagsKept_clear (s : State H) {cleared : UInt32} (htdre : cleared &&& statTdre = 0)
    (htc : cleared &&& statTc = 0) (hrdrf : cleared &&& statRdrf = 0) :
    FlagsKept [] s { s with stat := s.stat &&& ~~~cleared } := by
  refine ⟨fun hs => ?_, fun hs => ?_, fun hset => .inl (hasBit_of_hasBit_clear hset)⟩
  · unfold State.Readable
    rw [hasBit_clear_of_disjoint s.stat hrdrf]
    exact hs
  · unfold State.Writable
    rw [hasBit_clear_of_disjoint s.stat htdre, hasBit_clear_of_disjoint s.stat htc]
    exact hs

/-- The last byte that is read takes RDRF with it. -/
theorem flagsKept_readData (s : State H) : FlagsKept [] s (readData s).2 := by
  unfold readData
  cases hbuffer : s.rxBuffer with
  | nil => exact flagsKept_of_eq rfl rfl rfl
  | cons byte rest =>
    dsimp only
    by_cases hrest : rest = []
    · rw [if_pos hrest]
      refine ⟨fun _ => ?_, fun hs => ?_, fun hset => .inl (hasBit_of_hasBit_clear hset)⟩
      · unfold State.Readable
        rw [hasBit_clear_of_covers s.stat (by decide)]
        exact iff_of_false Bool.false_ne_true (not_not_intro hrest)
      · unfold State.Writable
        rw [hasBit_clear_of_disjoint s.stat (by decide), hasBit_clear_of_disjoint s.stat (by decide)]
        exact hs
    · rw [if_neg hrest]
      refine ⟨fun hs => hs.trans (iff_of_true ?_ hrest), id, .inl⟩
      rw [hbuffer]
      exact cons_ne_nil byte rest

theorem flagsKept_lpuartRead (offset : UInt64) (s : State H) : FlagsKept [] s (lpuartRead offset s).2 := by
  unfold lpuartRead
  cases registerAt offset with
  | data => exact flagsKept_readData s
  | _ => exact flagsKept_of_eq rfl rfl rfl

/-- A byte that is written is in the FIFO, or the FIFO was full. -/
theorem flagsKept_writeData (now : ℕ) (byte : UInt8) (s : State H) :
    FlagsKept [] s (writeData now byte s) := by
  have hfifo : (if s.txFifo.length < 4096 then s.txFifo ++ [byte] else s.txFifo) ≠ [] := by
    split
    · exact concat_ne_nil _ _
    · rename_i hfull
      intro hnil
      rw [hnil] at hfull
      exact hfull (by decide)
  have hclear : FlagsKept [] s
      { s with
        txFifo := if s.txFifo.length < 4096 then s.txFifo ++ [byte] else s.txFifo
        stat := s.stat &&& ~~~(statTc ||| statTdre) } := by
    refine ⟨fun hs => ?_, fun _ => ?_, fun hset => .inl (hasBit_of_hasBit_clear hset)⟩
    · unfold State.Readable
      rw [hasBit_clear_of_disjoint s.stat (by decide)]
      exact hs
    · unfold State.Writable
      rw [hasBit_clear_of_covers s.stat (by decide)]
      exact iff_of_false (fun h => Bool.false_ne_true h.1) hfifo
  unfold writeData
  dsimp only
  split
  · exact ⟨hclear.readable, hclear.writable, hclear.lbkdif⟩
  · exact ⟨hclear.readable, hclear.writable, hclear.lbkdif⟩

theorem flagsKept_writeCtrl (now : ℕ) (val : UInt32) (s : State H) :
    FlagsKept [] s (writeCtrl now val s) := by
  unfold writeCtrl
  dsimp only
  split
  · exact flagsKept_of_eq rfl rfl rfl
  · exact flagsKept_of_eq rfl rfl rfl

theorem flagsKept_lpuartWrite (now : ℕ) (offset value : UInt64) (s : State H) :
    FlagsKept [] s (lpuartWrite now offset value s) := by
  unfold lpuartWrite
  dsimp only
  cases registerAt offset with
  | stat =>
    have hdisjoint : ∀ mask, statW1c &&& mask = 0 → (value.toUInt32 &&& statW1c) &&& mask = 0 := by
      intro mask hmask
      rw [UInt32.and_assoc, hmask, UInt32.and_zero]
    exact flagsKept_clear s (hdisjoint _ (by decide)) (hdisjoint _ (by decide)) (hdisjoint _ (by decide))
  | ctrl => exact flagsKept_writeCtrl now _ s
  | data =>
    dsimp only
    split
    · exact flagsKept_writeData now _ s
    · exact flagsKept_of_eq rfl rfl rfl
  | _ => exact flagsKept_of_eq rfl rfl rfl

/-- What is sent leaves STAT and the receive buffer alone, and an empty FIFO empty. -/
theorem sendByte_flags (now : ℕ) (s : State H) :
    (sendByte now s).stat = s.stat ∧ (sendByte now s).rxBuffer = s.rxBuffer ∧
      (s.txFifo = [] → (sendByte now s).txFifo = []) := by
  unfold sendByte
  cases hfifo : s.txFifo with
  | nil => exact ⟨rfl, rfl, fun _ => hfifo⟩
  | cons byte rest => exact ⟨rfl, rfl, fun hnil => absurd hnil (cons_ne_nil byte rest)⟩

theorem flagsKept_lpuartTxTimerCb (now : ℕ) (s : State H) : FlagsKept [] s (lpuartTxTimerCb now s) := by
  obtain ⟨hstat, hbuffer, hfifo⟩ := sendByte_flags now s
  unfold lpuartTxTimerCb
  dsimp only
  split
  · -- the last byte has gone, and both flags are set
    rename_i hempty
    refine ⟨fun hs => ?_, fun _ => ?_, fun hset => .inl ?_⟩
    · show hasBit ((sendByte now s).stat ||| (statTc ||| statTdre)) statRdrf = true ↔
        (sendByte now s).rxBuffer ≠ []
      rw [hasBit_or, show hasBit (statTc ||| statTdre) statRdrf = false by decide, Bool.or_false, hstat,
        hbuffer]
      exact hs
    · refine iff_of_true ⟨?_, ?_⟩ hempty
      · show hasBit ((sendByte now s).stat ||| (statTc ||| statTdre)) statTdre = true
        rw [hasBit_or, show hasBit (statTc ||| statTdre) statTdre = true by decide, Bool.or_true]
      · show hasBit ((sendByte now s).stat ||| (statTc ||| statTdre)) statTc = true
        rw [hasBit_or, show hasBit (statTc ||| statTdre) statTc = true by decide, Bool.or_true]
    · have hset : hasBit ((sendByte now s).stat ||| (statTc ||| statTdre)) statLbkdif = true := hset
      rwa [hasBit_or, show hasBit (statTc ||| statTdre) statLbkdif = false by decide, Bool.or_false,
        hstat] at hset
  · rename_i hmore
    refine ⟨fun hs => ?_, fun hs => ?_, fun hset => .inl ?_⟩
    · show hasBit (sendByte now s).stat statRdrf = true ↔ (sendByte now s).rxBuffer ≠ []
      rw [hstat, hbuffer]
      exact hs
    · show (hasBit (sendByte now s).stat statTdre = true ∧ hasBit (sendByte now s).stat statTc = true) ↔
        (sendByte now s).txFifo = []
      rw [hstat]
      exact hs.trans (iff_of_false (fun hnil => hmore (hfifo hnil)) hmore)
    · exact hstat ▸ hset

theorem flagsKept_subCallback (fb : Flatbuffers) (data : List UInt8) (s : State H) :
    FlagsKept [] s (subCallback fb data s) := by
  unfold subCallback
  cases fb.linFrame data with
  | none => exact flagsKept_of_eq rfl rfl rfl
  | some frame =>
    dsimp only
    split
    · exact flagsKept_of_eq rfl rfl rfl
    · exact flagsKept_of_eq rfl rfl rfl

/-- **Everything but the reset keeps the flags right.** -/
theorem flagsKept_step (fb : Flatbuffers) (s : State H) {event : Event} (hevent : event ≠ .reset) :
    FlagsKept (handledBy s event) s (step fb s event).1 := by
  cases event with
  | read offset => exact flagsKept_lpuartRead offset s
  | write now offset value => exact flagsKept_lpuartWrite now offset value s
  | txTimer now =>
    show FlagsKept [] s
      (if isExpired s.txTimer now then lpuartTxTimerCb now { s with txTimer := none } else s)
    split
    · have h := flagsKept_lpuartTxTimerCb now { s with txTimer := none }
      exact ⟨h.readable, h.writable, h.lbkdif⟩
    · exact flagsKept_of_eq rfl rfl rfl
  | rxTimer now =>
    cases hexpired : isExpired s.rxTimer now with
    | false =>
      rw [step_rxTimer_of_not_expired fb hexpired]
      exact ⟨id, id, .inl⟩
    | true =>
      have hafter := afterRx_step fb hexpired
      rw [handledBy, if_pos hexpired]
      exact hafter.flags.kept hafter.txFifo
  | message data => exact flagsKept_subCallback fb data s
  | reset => exact absurd rfl hevent

/-- A write of STAT with the bit of LBKDIF clears it. -/
theorem lbkdif_writeStat (now : ℕ) {offset value : UInt64} (s : State H)
    (hreg : registerAt offset = .stat) (hbit : hasBit value.toUInt32 statLbkdif = true) :
    hasBit (lpuartWrite now offset value s).stat statLbkdif = false := by
  unfold lpuartWrite
  simp only [hreg]
  rw [hasBit_clear_written (i := 31) (by decide) (by decide), hbit]
  exact Bool.and_false _

/-! ## The buffer, in every run -/

theorem readable_step (fb : Flatbuffers) (s : State H) (event : Event) (hs : s.Readable) :
    (step fb s event).1.Readable := by
  by_cases hevent : event = .reset
  · rw [hevent]
    show hasBit 0xC0000000 statRdrf = true ↔ ([] : List UInt8) ≠ []
    decide
  · exact (flagsKept_step fb s hevent).readable hs

/-! ## All flags -/

/-- The device, and whether a break was seen since LBKDIF was last cleared or the device reset. -/
structure Watched (H : LinHeap) where
  device : State H
  breakSeen : Bool

def Watched.start (H : LinHeap) : Watched H := ⟨initial H, false⟩

/-- What becomes of the memory of a break. -/
def breakSeenAfter (s : State H) (seen : Bool) : Event → Bool
  | .write _ offset value =>
      seen && !(decide (registerAt offset = .stat) && hasBit value.toUInt32 statLbkdif)
  | .rxTimer now => seen || (handledBy s (.rxTimer now)).any fun p => decide (p.msgType = linBreak)
  | .reset => false
  | _ => seen

def watch (fb : Flatbuffers) (w : Watched H) (event : Event) : Watched H × Option UInt32 :=
  (⟨(step fb w.device event).1, breakSeenAfter w.device w.breakSeen event⟩, (step fb w.device event).2)

/-- The flags say what they stand for. -/
structure Watched.FlagsMirror (w : Watched H) : Prop where
  transmit : w.device.Writable
  receive : w.device.Readable
  breaks : hasBit w.device.stat statLbkdif = true → w.breakSeen = true

/-- A flag for a break has a break that is remembered. -/
theorem breakSeen_step (fb : Flatbuffers) (w : Watched H) {event : Event} (hevent : event ≠ .reset)
    (hw : hasBit w.device.stat statLbkdif = true → w.breakSeen = true)
    (hset : hasBit (step fb w.device event).1.stat statLbkdif = true) :
    breakSeenAfter w.device w.breakSeen event = true := by
  have hcases := (flagsKept_step fb w.device hevent).lbkdif hset
  cases event with
  | write now offset value =>
    have hseen : w.breakSeen = true := hw (hcases.resolve_right fun ⟨p, hp, _⟩ => nomatch hp)
    rw [breakSeenAfter, hseen, Bool.true_and, Bool.not_eq_true', Bool.and_eq_false_iff]
    by_cases hreg : registerAt offset = .stat
    · right
      by_contra hbit
      rw [Bool.not_eq_false] at hbit
      exact Bool.false_ne_true ((lbkdif_writeStat now w.device hreg hbit).symm.trans hset)
    · exact .inl (decide_eq_false hreg)
  | rxTimer now =>
    rw [breakSeenAfter, Bool.or_eq_true, any_eq_true]
    rcases hcases with h | ⟨p, hp, hbreak⟩
    · exact .inl (hw h)
    · exact .inr ⟨p, hp, decide_eq_true hbreak⟩
  | reset => exact absurd rfl hevent
  | _ => exact hw (hcases.resolve_right fun ⟨p, hp, _⟩ => nomatch hp)

/-- The reset takes TDRE and TC away while the FIFO is empty. -/
theorem not_writable_reset (s : State H) : ¬ (lpuartReset s).Writable := by
  show ¬ ((hasBit 0xC0000000 statTdre = true ∧ hasBit 0xC0000000 statTc = true) ↔ ([] : List UInt8) = [])
  decide

theorem flagsMirror_step_iff (fb : Flatbuffers) (w : Watched H) (event : Event) (hw : w.FlagsMirror) :
    (watch fb w event).1.FlagsMirror ↔ (entryAt (watch fb) w event).input ≠ .reset := by
  constructor
  · rintro h rfl
    exact not_writable_reset w.device h.transmit
  · intro hevent
    have hkept := flagsKept_step fb w.device hevent
    exact ⟨hkept.writable hw.transmit, hkept.readable hw.receive, breakSeen_step fb w hevent hw.breaks⟩

theorem flagsMirror_start (H : LinHeap) : (Watched.start H).FlagsMirror := by
  refine ⟨?_, ?_, fun h => ?_⟩
  · show (hasBit (statTdre ||| statTc) statTdre = true ∧ hasBit (statTdre ||| statTc) statTc = true) ↔
      ([] : List UInt8) = []
    decide
  · show hasBit (statTdre ||| statTc) statRdrf = true ↔ ([] : List UInt8) ≠ []
    decide
  · have hnot : hasBit (statTdre ||| statTc) statLbkdif = false := by decide
    exact absurd (hnot.symm.trans h) Bool.false_ne_true

/-- **When the status flags say what they stand for**: exactly as long as the device is not reset. -/
theorem flagsMirror_iff (fb : Flatbuffers) (events : List Event) :
    (∀ entry ∈ entries (watch fb) (Watched.start H) events, entry.after.FlagsMirror) ↔
      ∀ event ∈ events, event ≠ .reset := by
  rw [forall_entries_iff (watch fb) (I := fun _ => True) (Q := fun entry => entry.input ≠ .reset)
    (fun _ _ _ => trivial) (fun w event _ hw => flagsMirror_step_iff fb w event hw) trivial
    (flagsMirror_start H) events]
  exact forall_entries_input (watch fb) (p := fun event => event ≠ .reset)

/-- **After a reset the flags are wrong**: both FIFOs are empty and no frame ever came, and yet TDRE and TC
are clear and LBKDIF is set. -/
theorem not_flagsMirror_reset :
    let w := finalState (watch plainFlatbuffers) (Watched.start plainHeap) [.reset]
    w.device.txFifo = [] ∧ hasBit w.device.stat statTdre = false ∧ hasBit w.device.stat statTc = false ∧
      hasBit w.device.stat statLbkdif = true ∧ w.breakSeen = false ∧ ¬ w.FlagsMirror := by
  intro w
  have hset : hasBit w.device.stat statLbkdif = true := by decide
  exact ⟨rfl, by decide, by decide, hset, rfl, fun h => Bool.false_ne_true (h.breaks hset)⟩

end Virtmcu.Mcu.Lpuart
