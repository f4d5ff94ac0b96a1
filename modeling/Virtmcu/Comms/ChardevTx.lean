import Virtmcu.Comms.RxQueue
import Virtmcu.DeterministicCoordinator.Wire
import Virtmcu.Foundations.Run

/-! # The transmit FIFO of the character device

The guest writes into a FIFO, `tx_timer` takes one byte off per baud delay and hands it to the channel of
the transmit thread. The timer is armed in two places: by the write that finds the FIFO empty, and by the
callback that leaves bytes in it.

Where the bytes are (`Ledger`) and when they were there (`Times`) holds in every run. What the FIFO is
for needs more (`Exact`): the byte that meets a full channel is lost with its sequence number, and a delay
that leads past the end of the 64-bit clock arms the timer for the past. Nothing else can go wrong
(`exact_iff`). -/

namespace Virtmcu.Comms.ChardevTx

open DeterministicCoordinator List

/-! ## State -/

/-- `MAX_FIFO_SIZE`. -/
def maxFifoSize : ℕ := 65536

/-- The capacity of the channel to the transmit thread. -/
def channelCapacity : ℕ := 1024

structure TxPacket where
  vtime : UInt64
  sequence : UInt64
  data : List UInt8
  deriving DecidableEq, Repr

/-- A byte in the FIFO. The model remembers with it when it was written; no code reads that. -/
structure FifoByte where
  value : UInt8
  written : ℕ
  deriving DecidableEq, Repr

/-- A call of `virtmcu_chr_write`, and whether its data went into the FIFO. -/
structure Write where
  data : List UInt8
  time : ℕ
  isTaken : Bool
  deriving DecidableEq, Repr

/-- When the first byte of the FIFO became the first, and the baud delay in force then. -/
structure Turn where
  since : ℕ
  delay : UInt64
  deriving DecidableEq, Repr

/-- A byte off the FIFO with the packet made of it, and whether the channel took the packet. -/
structure Popped where
  byte : FifoByte
  packet : TxPacket
  turn : Turn
  isSent : Bool
  deriving DecidableEq, Repr

/-- The transmit side of `VirtmcuChardevState` with the virtual clock. The fields from `taken` on are a
record of the run that no code reads. -/
structure State where
  fifo : List FifoByte
  txTimer : Option ℕ
  baudDelayNs : UInt64
  txSequence : UInt64
  /-- The packets between `tx_sender` and the thread. -/
  channel : List TxPacket
  now : ℕ
  /-- The packets that the thread took. -/
  taken : List TxPacket
  turn : Turn
  writes : List Write
  popped : List Popped
  deriving DecidableEq, Repr

/-- The device with a `baud-rate-ns` option. -/
def initial (baudDelayNs : UInt64) : State :=
  ⟨[], none, baudDelayNs, 0, [], 0, [], ⟨0, 0⟩, [], []⟩

/-! ## Steps -/

/-- `virtmcu_timer_mod(tx_timer, now + delay as i64)`. The sum wraps around. -/
def armTxTimer (s : State) : State :=
  { s with
    txTimer := some (expiryOf (s.now.toUInt64 + s.baudDelayNs))
    turn := ⟨s.now, s.baudDelayNs⟩ }

/-- The first half of `virtmcu_chr_write`: the data goes into the FIFO as a whole or not at all. -/
def extendFifo (data : List UInt8) (s : State) : State :=
  { s with
    fifo :=
      if s.fifo.length + data.length ≤ maxFifoSize then s.fifo ++ data.map (FifoByte.mk · s.now)
      else s.fifo
    writes := s.writes ++ [⟨data, s.now, decide (s.fifo.length + data.length ≤ maxFifoSize)⟩] }

/-- `virtmcu_chr_write`. Data that was dropped arms the timer as well. -/
def virtmcuChrWrite (data : List UInt8) (s : State) : State :=
  if s.fifo.isEmpty && !data.isEmpty then armTxTimer (extendFifo data s) else extendFifo data s

/-- The first half of `virtmcu_chr_tx_timer_cb`. -/
def popByte (s : State) : State :=
  match s.fifo with
  | [] => s
  | byte :: rest =>
      let packet : TxPacket := ⟨s.now.toUInt64, s.txSequence, [byte.value]⟩
      { s with
        fifo := rest
        txSequence := s.txSequence + 1
        -- `try_send`: a packet that finds the channel full is dropped
        channel := if s.channel.length < channelCapacity then s.channel ++ [packet] else s.channel
        popped := s.popped ++ [⟨byte, packet, s.turn, decide (s.channel.length < channelCapacity)⟩] }

/-- `virtmcu_chr_tx_timer_cb`. -/
def virtmcuChrTxTimerCb (s : State) : State :=
  if (popByte s).fifo.isEmpty then popByte s else armTxTimer (popByte s)

/-- `CHR_IOCTL_SERIAL_SET_PARAMS`. -/
def chrIoctlSerialSetParams : Int32 := 1

/-- `virtmcu_chr_ioctl`, with the speed that `arg` points to, if it points anywhere. -/
def virtmcuChrIoctl (cmd : Int32) (speed : Option Int32) (s : State) : State × ℤ :=
  if cmd = chrIoctlSerialSetParams then
    match speed with
    | some speed =>
        if 0 < speed then
          ({ s with baudDelayNs := 1000000000 / speed.toInt.toNat.toUInt64 * 10 }, 0)
        else (s, 0)
    | none => (s, 0)
  else (s, -1)

inductive Event
  /-- The virtual clock goes on. It is an `i64`. -/
  | tick (time : ℕ)
  | write (data : List UInt8)
  | ioctl (cmd : Int32) (speed : Option Int32)
  /-- `tx_timer` fires. -/
  | txTimer
  /-- The transmit thread receives a packet. -/
  | take
  deriving DecidableEq, Repr

/-- One event. The number is what QEMU gets back from a write or an ioctl. -/
def step (s : State) : Event → State × ℤ
  | .tick time => (if s.now ≤ time ∧ time < 2 ^ 63 then { s with now := time } else s, 0)
  | .write data => (virtmcuChrWrite data s, data.length)
  | .ioctl cmd speed => virtmcuChrIoctl cmd speed s
  | .txTimer =>
      (if isExpired s.txTimer s.now then virtmcuChrTxTimerCb { s with txTimer := none } else s, 0)
  | .take => ({ s with taken := s.taken ++ s.channel.take 1, channel := s.channel.drop 1 }, 0)

/-! ## What the FIFO is for -/

/-- The bytes of the writes that were taken, in write order. -/
def State.accepted (s : State) : List FifoByte :=
  ((s.writes.filter Write.isTaken).map fun w => w.data.map (FifoByte.mk · w.time)).flatten

/-- The bytes whose packets went into the channel. -/
def State.sent (s : State) : List Popped := s.popped.filter Popped.isSent

/-- The time stamp of the packet that was made of the byte. -/
def Popped.vtime (p : Popped) : ℕ := p.packet.vtime.toNat

/-- The byte waited as long as the delay that was in force when its turn came. -/
def Popped.IsPaced (p : Popped) : Prop := p.turn.since + p.turn.delay.toNat ≤ p.vtime

/-- The FIFO hands over what it accepted, in order and with the baud rate's pace. -/
structure Exact (s : State) : Prop where
  fifo_le : s.fifo.length ≤ maxFifoSize
  handed : s.taken ++ s.channel = s.sent.map Popped.packet
  bytes : s.accepted = s.sent.map Popped.byte ++ s.fifo
  payload : ∀ p ∈ s.sent, p.packet.data = [p.byte.value]
  sequences : s.sent.map (·.packet.sequence) = (List.range s.sent.length).map Nat.toUInt64
  /-- Its turn comes after its own write and after the packet before it. -/
  written_le : ∀ p ∈ s.sent, p.byte.written ≤ p.turn.since
  previous_le : s.sent.Pairwise fun p q => p.vtime ≤ q.turn.since
  paced : ∀ p ∈ s.sent, p.IsPaced
  armed : s.fifo ≠ [] → s.txTimer.isSome

/-! ## Where the bytes are -/

structure Ledger (s : State) : Prop where
  fifo_le : s.fifo.length ≤ maxFifoSize
  handed : s.taken ++ s.channel = s.sent.map Popped.packet
  bytes : s.accepted = s.popped.map Popped.byte ++ s.fifo
  payload : ∀ p ∈ s.popped, p.packet.data = [p.byte.value]
  next : s.txSequence = s.popped.length.toUInt64
  sequences : s.popped.map (·.packet.sequence) = (List.range s.popped.length).map Nat.toUInt64

theorem ledger_initial (baudDelayNs : UInt64) : Ledger (initial baudDelayNs) :=
  ⟨Nat.zero_le _, rfl, rfl, by simp [initial], rfl, rfl⟩

theorem accepted_extendFifo (data : List UInt8) (s : State) : (extendFifo data s).accepted = s.accepted ++
        if s.fifo.length + data.length ≤ maxFifoSize then data.map (FifoByte.mk · s.now) else [] := by
  by_cases hfits : s.fifo.length + data.length ≤ maxFifoSize <;>
    simp [extendFifo, State.accepted, filter_append, hfits]

variable {s : State}

theorem Ledger.armTxTimer (h : Ledger s) : Ledger (armTxTimer s) := { h with }

theorem Ledger.extendFifo (h : Ledger s) (data : List UInt8) : Ledger (extendFifo data s) where
  fifo_le := by
    unfold ChardevTx.extendFifo
    dsimp only
    split
    next hfits => simpa using hfits
    next => exact h.fifo_le
  handed := h.handed
  bytes := by
    rw [accepted_extendFifo, h.bytes]
    unfold ChardevTx.extendFifo
    dsimp only
    split <;> simp
  payload := h.payload
  next := h.next
  sequences := h.sequences

theorem Ledger.virtmcuChrWrite (h : Ledger s) (data : List UInt8) : Ledger (virtmcuChrWrite data s) := by
  unfold ChardevTx.virtmcuChrWrite
  split
  · exact (h.extendFifo data).armTxTimer
  · exact h.extendFifo data

theorem Ledger.popByte (h : Ledger s) : Ledger (popByte s) := by
  unfold ChardevTx.popByte
  split
  next => exact h
  next byte rest hfifo =>
    refine ⟨?_, ?_, ?_, ?_, ?_, ?_⟩
    · have hle := h.fifo_le
      rw [hfifo, length_cons] at hle
      exact Nat.le_of_succ_le hle
    · -- the packet is in the channel exactly if it is marked as sent
      have hhanded := h.handed
      unfold State.sent at hhanded ⊢
      by_cases hroom : s.channel.length < channelCapacity
      · simp [filter_append, hroom, ← hhanded]
      · simp [filter_append, hroom, ← hhanded]
    · have hbytes := h.bytes
      rw [hfifo] at hbytes
      simpa [State.accepted] using hbytes
    · intro p hp
      rw [mem_append, mem_singleton] at hp
      rcases hp with hp | rfl
      · exact h.payload p hp
      · rfl
    · simp [h.next, Nat.toUInt64]
    · simp [h.next, h.sequences, range_succ]

theorem Ledger.virtmcuChrTxTimerCb (h : Ledger s) : Ledger (virtmcuChrTxTimerCb s) := by
  unfold ChardevTx.virtmcuChrTxTimerCb
  split
  · exact h.popByte
  · exact h.popByte.armTxTimer

theorem Ledger.virtmcuChrIoctl (h : Ledger s) (cmd : Int32) (speed : Option Int32) :
    Ledger (virtmcuChrIoctl cmd speed s).1 := by
  unfold ChardevTx.virtmcuChrIoctl
  have hset (delay : UInt64) : Ledger { s with baudDelayNs := delay } :=
    { h with }
  split
  · split
    · split
      · exact hset _
      · exact h
    · exact h
  · exact h

theorem Ledger.step (h : Ledger s) (event : Event) : Ledger (step s event).1 := by
  cases event with
  | tick time =>
    simp only [ChardevTx.step]
    split
    · exact { h with }
    · exact h
  | write data => exact h.virtmcuChrWrite data
  | ioctl cmd speed => exact h.virtmcuChrIoctl cmd speed
  | txTimer =>
    simp only [ChardevTx.step]
    split
    · have hfired : Ledger { s with txTimer := none } :=
        { h with }
      exact hfired.virtmcuChrTxTimerCb
    · exact h
  | take =>
    refine { h with handed := ?_ }
    simp only [ChardevTx.step]
    rw [append_assoc, take_append_drop]
    exact h.handed

/-! ## When they were there -/

/-- The times on the record. -/
structure Recorded (s : State) : Prop where
  now_lt : s.now < 2 ^ 63
  accepted_le : ∀ b ∈ s.accepted, b.written ≤ s.now
  vtime_le : ∀ p ∈ s.popped, p.vtime ≤ s.now
  popped_le : ∀ p ∈ s.popped, p.byte.written ≤ p.turn.since
  pairwise : s.popped.Pairwise fun p q => p.vtime ≤ q.turn.since

/-- The timer runs for the turn of the first byte, which came after all that the byte waited for. -/
structure Times (s : State) : Prop extends Recorded s where
  armed : s.fifo ≠ [] → s.txTimer = some (expiryOf (s.turn.since.toUInt64 + s.turn.delay))
  first_le : ∀ b ∈ s.fifo.head?, b.written ≤ s.turn.since
  last_le : s.fifo ≠ [] → ∀ p ∈ s.popped, p.vtime ≤ s.turn.since

theorem times_initial (baudDelayNs : UInt64) : Times (initial baudDelayNs) := by
  refine ⟨⟨by simp [initial], ?_, ?_, ?_, ?_⟩, ?_, ?_, ?_⟩ <;> simp [initial, State.accepted]

theorem Times.of_fifo_nil (h : Recorded s) (hfifo : s.fifo = []) : Times s :=
  ⟨h, fun hne => absurd hfifo hne, by simp [hfifo], fun hne => absurd hfifo hne⟩

/-- The timer that is armed now: everything on the record is past. -/
theorem Recorded.armTxTimer (h : Recorded s) (hledger : Ledger s) : Times (armTxTimer s) where
  now_lt := h.now_lt
  accepted_le := h.accepted_le
  vtime_le := h.vtime_le
  popped_le := h.popped_le
  pairwise := h.pairwise
  armed := fun _ => rfl
  first_le := by
    intro b hb
    have hmem : b ∈ s.fifo := mem_of_mem_head? hb
    exact h.accepted_le b (hledger.bytes ▸ mem_append_right _ hmem)
  last_le := fun _ => h.vtime_le

theorem Recorded.extendFifo (h : Recorded s) (data : List UInt8) : Recorded (extendFifo data s) where
  now_lt := h.now_lt
  accepted_le := by
    intro b hb
    rw [accepted_extendFifo, mem_append] at hb
    rcases hb with hold | hnew
    · exact h.accepted_le b hold
    · split at hnew
      · obtain ⟨value, -, rfl⟩ := mem_map.mp hnew
        exact le_rfl
      · cases hnew
  vtime_le := h.vtime_le
  popped_le := h.popped_le
  pairwise := h.pairwise

theorem Times.virtmcuChrWrite (h : Times s) (hledger : Ledger s) (data : List UInt8) :
    Times (virtmcuChrWrite data s) := by
  unfold ChardevTx.virtmcuChrWrite
  split
  next => exact (h.toRecorded.extendFifo data).armTxTimer (hledger.extendFifo data)
  next hnot =>
    by_cases hfifo : s.fifo = []
    · -- nothing was written
      have hdata : data = [] := by simpa [hfifo] using hnot
      subst hdata
      exact .of_fifo_nil (h.toRecorded.extendFifo []) (by simp [ChardevTx.extendFifo, hfifo])
    · -- the first byte stays the first
      obtain ⟨first, rest, hcons⟩ := exists_cons_of_ne_nil hfifo
      refine ⟨h.toRecorded.extendFifo data, fun _ => h.armed hfifo, ?_, fun _ => h.last_le hfifo⟩
      intro b hb
      have hhead : b ∈ s.fifo.head? := by
        simp only [ChardevTx.extendFifo, hcons] at hb ⊢
        split at hb <;> simpa using hb
      exact h.first_le b hhead

theorem toNat_toUInt64 {time : ℕ} (h : time < 2 ^ 63) : time.toUInt64.toNat = time :=
  UInt64.toNat_ofNat_of_lt' (h.trans (by decide))

theorem Times.popByte (h : Times s) : Recorded (popByte { s with txTimer := none }) := by
  unfold ChardevTx.popByte
  split
  next => exact { h with }
  next byte rest hfifo =>
    have hne : s.fifo ≠ [] := by simp [show s.fifo = byte :: rest from hfifo]
    have hvtime : s.now.toUInt64.toNat = s.now := toNat_toUInt64 h.now_lt
    refine ⟨h.now_lt, h.accepted_le, ?_, ?_, ?_⟩
    · intro p hp
      rw [mem_append, mem_singleton] at hp
      rcases hp with hp | rfl
      · exact h.vtime_le p hp
      · exact le_of_eq hvtime
    · intro p hp
      rw [mem_append, mem_singleton] at hp
      rcases hp with hp | rfl
      · exact h.popped_le p hp
      · exact h.first_le byte (by simp [show s.fifo = byte :: rest from hfifo])
    · rw [pairwise_append]
      refine ⟨h.pairwise, pairwise_singleton _ _, ?_⟩
      intro p hp q hq
      rw [mem_singleton.mp hq]
      exact h.last_le hne p hp

theorem Times.virtmcuChrTxTimerCb (h : Times s) (hledger : Ledger s) :
    Times (virtmcuChrTxTimerCb { s with txTimer := none }) := by
  have hfired : Ledger { s with txTimer := none } := { hledger with }
  unfold ChardevTx.virtmcuChrTxTimerCb
  split
  next hempty => exact .of_fifo_nil h.popByte (isEmpty_iff.mp hempty)
  next => exact h.popByte.armTxTimer hfired.popByte

theorem Times.virtmcuChrIoctl (h : Times s) (cmd : Int32) (speed : Option Int32) :
    Times (virtmcuChrIoctl cmd speed s).1 := by
  -- the timer that runs keeps the delay it was armed with
  have hset (delay : UInt64) : Times { s with baudDelayNs := delay } :=
    { h with }
  unfold ChardevTx.virtmcuChrIoctl
  split
  · split
    · split
      · exact hset _
      · exact h
    · exact h
  · exact h

theorem Times.step (h : Times s) (hledger : Ledger s) (event : Event) : Times (step s event).1 := by
  cases event with
  | tick time =>
    simp only [ChardevTx.step]
    split
    next hlater =>
      refine { h with now_lt := hlater.2, accepted_le := ?_, vtime_le := ?_ }
      · exact fun b hb => (h.accepted_le b hb).trans hlater.1
      · exact fun p hp => (h.vtime_le p hp).trans hlater.1
    next => exact h
  | write data => exact h.virtmcuChrWrite hledger data
  | ioctl cmd speed => exact h.virtmcuChrIoctl cmd speed
  | txTimer =>
    simp only [ChardevTx.step]
    split
    · exact h.virtmcuChrTxTimerCb hledger
    · exact h
  | take => exact { h with }

/-! ## Exactness -/

/-- What decides about a byte: it was sent, and it waited for its delay. -/
def Popped.IsGood (p : Popped) : Prop := p.isSent = true ∧ p.IsPaced

/-- Of the record, only the bytes off the FIFO can spoil the result. -/
theorem exact_iff_popped (hledger : Ledger s) (htimes : Times s) : Exact s ↔ ∀ p ∈ s.popped, p.IsGood := by
  constructor
  · intro h
    -- as many bytes are sent as are off the FIFO
    have hlength : s.sent.length = s.popped.length := by
      have hboth := congrArg List.length (h.bytes.symm.trans hledger.bytes)
      simpa using hboth
    have hall : ∀ p ∈ s.popped, p.isSent = true := length_filter_eq_length_iff.mp hlength
    intro p hp
    exact ⟨hall p hp, h.paced p (mem_filter.mpr ⟨hp, hall p hp⟩)⟩
  · intro h
    have hsent : s.sent = s.popped := filter_eq_self.mpr fun p hp => (h p hp).1
    exact {
      fifo_le := hledger.fifo_le
      handed := hledger.handed
      bytes := by rw [hsent]; exact hledger.bytes
      payload := by rw [hsent]; exact hledger.payload
      sequences := by rw [hsent]; exact hledger.sequences
      written_le := by rw [hsent]; exact htimes.popped_le
      previous_le := by rw [hsent]; exact htimes.pairwise
      paced := by rw [hsent]; exact fun p hp => (h p hp).2
      armed := fun hne => by rw [htimes.armed hne]; rfl }

/-- The byte that the event takes off the FIFO finds room in the channel, and its turn ends within the
64-bit clock. -/
def Fits (s : State) (event : Event) : Prop :=
  event = .txTimer → isExpired s.txTimer s.now = true → s.fifo ≠ [] →
    s.channel.length < channelCapacity ∧ s.turn.since + s.turn.delay.toNat < 2 ^ 63

/-- The clock is past the end of the turn exactly if the turn ends within the clock's range. -/
theorem paced_iff (h : Times s) (hfifo : s.fifo ≠ []) (hexpired : isExpired s.txTimer s.now = true) :
    s.turn.since + s.turn.delay.toNat ≤ s.now ↔ s.turn.since + s.turn.delay.toNat < 2 ^ 63 := by
  constructor
  · exact fun hle => lt_of_le_of_lt hle h.now_lt
  · intro hlt
    have hsum : (s.turn.since.toUInt64 + s.turn.delay).toNat = s.turn.since + s.turn.delay.toNat := by
      rw [UInt64.toNat_add, toNat_toUInt64 (by omega), Nat.mod_eq_of_lt (by omega)]
    rw [h.armed hfifo, expiryOf_of_lt (by rw [hsum]; exact hlt), hsum] at hexpired
    simpa [isExpired] using hexpired

theorem popped_virtmcuChrWrite (data : List UInt8) (s : State) :
    (virtmcuChrWrite data s).popped = s.popped := by
  unfold virtmcuChrWrite
  split <;> rfl

theorem popped_virtmcuChrIoctl (cmd : Int32) (speed : Option Int32) (s : State) :
    (virtmcuChrIoctl cmd speed s).1.popped = s.popped := by
  unfold virtmcuChrIoctl
  split
  · split
    · split <;> rfl
    · rfl
  · rfl

theorem popped_virtmcuChrTxTimerCb (s : State) : (virtmcuChrTxTimerCb s).popped = (popByte s).popped := by
  unfold virtmcuChrTxTimerCb
  split <;> rfl

/-- The byte that the timer takes is good exactly if it fits. -/
theorem good_popByte_iff (h : Times s) (hexpired : isExpired s.txTimer s.now = true)
    (hgood : ∀ p ∈ s.popped, p.IsGood) :
    (∀ p ∈ (popByte { s with txTimer := none }).popped, p.IsGood) ↔ Fits s .txTimer := by
  unfold popByte Fits
  split
  next hfifo =>
    have hnil : s.fifo = [] := hfifo
    simp only [forall_const, hexpired, hnil, ne_eq, not_true_eq_false, false_imp_iff, iff_true]
    exact hgood
  next byte rest hfifo =>
    have hne : s.fifo ≠ [] := by simp [show s.fifo = byte :: rest from hfifo]
    simp only [forall_mem_append, forall_mem_singleton, Popped.IsGood, Popped.IsPaced,
      Popped.vtime, toNat_toUInt64 h.now_lt, decide_eq_true_eq, paced_iff h hne hexpired, hexpired, hne,
      ne_eq, not_false_eq_true, forall_const]
    exact and_iff_right hgood

theorem good_step_iff (h : Times s) (event : Event) (hgood : ∀ p ∈ s.popped, p.IsGood) :
    (∀ p ∈ (step s event).1.popped, p.IsGood) ↔ Fits s event := by
  cases event with
  | tick time =>
    have hsame : (step s (.tick time)).1.popped = s.popped := by
      simp only [step]
      split <;> rfl
    rw [hsame]
    exact iff_of_true hgood fun hevent => nomatch hevent
  | write data =>
    rw [show (step s (.write data)).1.popped = s.popped from popped_virtmcuChrWrite data s]
    exact iff_of_true hgood fun hevent => nomatch hevent
  | ioctl cmd speed =>
    rw [show (step s (.ioctl cmd speed)).1.popped = s.popped from popped_virtmcuChrIoctl cmd speed s]
    exact iff_of_true hgood fun hevent => nomatch hevent
  | txTimer =>
    simp only [step]
    split
    next hexpired =>
      rw [popped_virtmcuChrTxTimerCb]
      exact good_popByte_iff h hexpired hgood
    next hnot => exact iff_of_true hgood fun _ hexpired => absurd hexpired hnot
  | take => exact iff_of_true hgood fun hevent => nomatch hevent

/-- **The FIFO is exact and paced all along exactly if every byte taken off it fits.** -/
theorem exact_iff (baudDelayNs : UInt64) (events : List Event) :
    (∀ entry ∈ entries step (initial baudDelayNs) events, Exact entry.after) ↔
      ∀ entry ∈ entries step (initial baudDelayNs) events, Fits entry.before entry.input := by
  refine forall_entries_iff step (I := fun s => Ledger s ∧ Times s) ?_ ?_
    ⟨ledger_initial baudDelayNs, times_initial baudDelayNs⟩ ?_ events
  · exact fun s event h => ⟨h.1.step event, h.2.step h.1 event⟩
  · intro s event h hexact
    rw [exact_iff_popped (h.1.step event) (h.2.step h.1 event)]
    exact good_step_iff h.2 event ((exact_iff_popped h.1 h.2).mp hexact)
  · rw [exact_iff_popped (ledger_initial baudDelayNs) (times_initial baudDelayNs)]
    simp [initial]

/-! ## A thread that does not get its turn -/

/-- The clock goes on and the timer fires. -/
def round (time : ℕ) : List Event := [.tick time, .txTimer]

/-- `n` bytes go out, one every nanosecond, and the thread takes its first packet before the last. -/
def overrunning (n : ℕ) : List Event :=
  .write (List.replicate n 0x55) ::
    (((List.range (n - 1)).map fun k => round (k + 1)).flatten ++ .take :: round n)

/-- After `k` rounds in which no packet was taken. -/
structure Overrun (n k : ℕ) (s : State) : Prop where
  ledger : Ledger s
  now : s.now = k
  delay : s.baudDelayNs = 1
  fifo : s.fifo = List.replicate (n - k) ⟨0x55, 0⟩
  timer : s.txTimer = some (k + 1)
  accepted : s.accepted.length = n
  channel : s.channel.length = min k channelCapacity
  taken : s.taken = []

theorem overrun_write {n : ℕ} (hn : n + 1 ≤ maxFifoSize) :
    Overrun (n + 1) 0 (step (initial 1) (.write (List.replicate (n + 1) 0x55))).1 := by
  have hledger := (ledger_initial 1).step (.write (List.replicate (n + 1) 0x55))
  have hwrite : (step (initial 1) (.write (List.replicate (n + 1) 0x55))).1 =
      armTxTimer (extendFifo (List.replicate (n + 1) 0x55) (initial 1)) := rfl
  rw [hwrite] at hledger ⊢
  have hfits : (initial 1).fifo.length + (List.replicate (n + 1) (0x55 : UInt8)).length ≤ maxFifoSize := by
    simpa [initial] using hn
  refine ⟨hledger, rfl, rfl, ?_, rfl, ?_, rfl, rfl⟩
  · simp only [armTxTimer, extendFifo, if_pos hfits]
    simp [initial]
  · rw [show (armTxTimer (extendFifo (List.replicate (n + 1) 0x55) (initial 1))).accepted =
      (extendFifo (List.replicate (n + 1) 0x55) (initial 1)).accepted from rfl, accepted_extendFifo,
      if_pos hfits]
    simp [initial, State.accepted]

/-- A round takes the first byte off the FIFO at the time it is due. -/
theorem finalState_round {k : ℕ} (hnow : s.now = k) (hk : k + 1 < 2 ^ 63)
    (htimer : s.txTimer = some (k + 1)) : finalState step s (round (k + 1)) =
      virtmcuChrTxTimerCb { s with now := k + 1, txTimer := none } := by
  have htick : (step s (.tick (k + 1))).1 = { s with now := k + 1 } := by
    simp only [step]
    rw [if_pos ⟨by omega, hk⟩]
  have hexpired : isExpired s.txTimer (k + 1) = true := by simp [htimer, isExpired]
  simp only [round, finalState_cons, finalState_nil, htick]
  simp only [step, hexpired, if_true]

theorem expiryOf_next {k : ℕ} (hk : k + 2 < 2 ^ 63) : expiryOf ((k + 1).toUInt64 + 1) = k + 2 := by
  have hsum : ((k + 1).toUInt64 + 1).toNat = k + 2 := by
    rw [UInt64.toNat_add, toNat_toUInt64 (by omega)]
    exact Nat.mod_eq_of_lt (by simp only [UInt64.toNat_one]; omega)
  rw [expiryOf_of_lt (by omega), hsum]

theorem Overrun.round {n k : ℕ} (h : Overrun n k s) (hk : k + 1 < n) (hn : n < 2 ^ 63) :
    Overrun n (k + 1) (finalState step s (round (k + 1))) := by
  have hledger : Ledger (finalState step s (ChardevTx.round (k + 1))) :=
    (h.ledger.step (.tick (k + 1))).step .txTimer
  have hfifo : s.fifo = ⟨0x55, 0⟩ :: ⟨0x55, 0⟩ :: List.replicate (n - k - 2) ⟨0x55, 0⟩ := by
    rw [h.fifo, show n - k = n - k - 2 + 1 + 1 by omega, replicate_succ, replicate_succ]
    rfl
  rw [finalState_round h.now (by omega) h.timer] at hledger ⊢
  refine ⟨hledger, ?_, ?_, ?_, ?_, ?_, ?_, ?_⟩
  all_goals simp only [virtmcuChrTxTimerCb, popByte, hfifo, armTxTimer, isEmpty_cons,
    Bool.false_eq_true, if_false]
  · exact h.delay
  · rw [show n - (k + 1) = n - k - 2 + 1 by omega, replicate_succ]
  · rw [h.delay, expiryOf_next (by omega)]
  · exact h.accepted
  · have hchannel := h.channel
    split
    · rw [length_append, length_singleton]
      omega
    · omega
  · exact h.taken

theorem overrun_rounds {n k : ℕ} (hk : k < n) (hn : n < 2 ^ 63) (h : Overrun n 0 s) :
    Overrun n k (finalState step s ((List.range k).map fun k => round (k + 1)).flatten) := by
  induction k with
  | zero => exact h
  | succ k ih =>
    rw [range_succ, map_append, flatten_append, finalState_append]
    simpa using (ih (by omega)).round (by omega) hn

/-- The last round, after the thread took a packet. What met the full channel is missing. -/
theorem Overrun.last {k : ℕ} (h : Overrun (k + 1) k s) (hk : channelCapacity < k) (hlt : k + 1 < 2 ^ 63) :
    (finalState step s (.take :: ChardevTx.round (k + 1))).accepted.length = k + 1 ∧
      (finalState step s (.take :: ChardevTx.round (k + 1))).fifo = [] ∧
      (finalState step s (.take :: ChardevTx.round (k + 1))).sent.length = channelCapacity + 1 ∧
      (finalState step s (.take :: ChardevTx.round (k + 1))).channel.getLast? =
        some ⟨(k + 1).toUInt64, k.toUInt64, [0x55]⟩ := by
  have hledger : Ledger (finalState step s (.take :: ChardevTx.round (k + 1))) :=
    ((h.ledger.step .take).step (.tick (k + 1))).step .txTimer
  have hfifo : s.fifo = [⟨0x55, 0⟩] := by simpa using h.fifo
  have hchannel : s.channel.length = channelCapacity := by rw [h.channel]; omega
  have hpopped : s.popped.length = k := by
    have hbytes := congrArg List.length h.ledger.bytes
    rw [h.accepted, hfifo, length_append, length_map] at hbytes
    exact Nat.succ.inj hbytes.symm
  have hroom : (s.channel.drop 1).length < channelCapacity := by
    rw [length_drop, hchannel]
    decide
  have hfirst : (s.channel.take 1).length = 1 := by
    rw [length_take, hchannel]
    rfl
  rw [finalState_cons, finalState_round (s := (step s .take).1) h.now hlt h.timer] at hledger ⊢
  have hsent := congrArg List.length hledger.handed
  rw [length_map] at hsent
  rw [← hsent]
  simp only [virtmcuChrTxTimerCb, popByte, step, hfifo, isEmpty_nil, if_true, if_pos hroom]
  refine ⟨h.accepted, trivial, ?_, ?_⟩
  · rw [length_append, length_append, length_append, h.taken, hfirst, length_drop, hchannel]
    rfl
  · rw [getLast?_concat, h.ledger.next, hpopped]

/-- 1024 packets fill the channel and the byte after them is lost. The next one follows with a gap in the
sequence numbers. With a delay of `2 ^ 63` a byte goes out at the time of its write. -/
theorem not_exact_overrun : (finalState step (initial 1) (overrunning 1026)).accepted.length = 1026 ∧
      (finalState step (initial 1) (overrunning 1026)).fifo = [] ∧
      (finalState step (initial 1) (overrunning 1026)).sent.length = 1025 ∧
      (finalState step (initial 1) (overrunning 1026)).channel.getLast? = some ⟨1026, 1025, [0x55]⟩ ∧
      ¬ Exact (finalState step (initial 1) (overrunning 1026)) ∧
      (finalState step (initial 0x8000000000000000) [.write [0x55], .txTimer]).channel = [⟨0, 0, [0x55]⟩] ∧
      ¬ Exact (finalState step (initial 0x8000000000000000) [.write [0x55], .txTimer]) := by
  have hwrite : Overrun 1026 0 (step (initial 1) (.write (List.replicate 1026 0x55))).1 :=
    overrun_write (by decide)
  have hrun := (overrun_rounds (k := 1025) (by omega) (by omega) hwrite).last (by decide) (by omega)
  rw [← finalState_append, ← finalState_cons] at hrun
  obtain ⟨hbytes, hfifo, hsent, hlast⟩ := hrun
  refine ⟨hbytes, hfifo, hsent, hlast, ?_, by decide +kernel, ?_⟩
  · intro h
    have hlength := congrArg List.length h.bytes
    rw [overrunning, hbytes, hfifo, List.append_nil, List.length_map, hsent] at hlength
    exact absurd hlength (by decide)
  · intro h
    have hpaced := h.paced ⟨⟨0x55, 0⟩, ⟨0, 0, [0x55]⟩, ⟨0, 0x8000000000000000⟩, true⟩ (by decide +kernel)
    exact absurd hpaced (by unfold Popped.IsPaced; decide +kernel)

end Virtmcu.Comms.ChardevTx
