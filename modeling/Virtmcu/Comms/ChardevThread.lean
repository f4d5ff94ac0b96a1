import Virtmcu.Comms.ChardevTx

/-! # The transmit thread of the character device

`start_tx_thread` takes the packets of the FIFO off the channel and gathers their bytes in a buffer. The
buffer is published as one frame when it holds 4096 bytes, when 20 ms of host time have passed since the
last frame, or when nothing arrives for 10 ms. The frame carries the time stamp and the sequence number of
the first packet in the buffer.

Two things follow from how the loop is written. It ends as soon as `running` is false and the channel is
empty, and does not look at the buffer: what is in it at that moment is never published
(`published_on_exit_iff`). And the host clock decides which bytes share a frame: from two packets on, the
frames are different on a slow and on a fast host (`hostIndependent_iff`). -/

namespace Virtmcu.Comms.ChardevThread

open ChardevTx DeterministicCoordinator List

/-! ## State -/

/-- `FLUSH_THRESHOLD`. -/
def flushThreshold : ℕ := 4096

/-- `FLUSH_INTERVAL_MS`. -/
def flushIntervalMs : ℕ := 20

/-- The timeout of `recv_timeout`, in nanoseconds. -/
def receiveTimeout : ℕ := 10000000

/-- Where the thread is. -/
inductive Pc
  /-- At the test of `running` and the channel. -/
  | head
  /-- In `recv_timeout`, entered at this host time. -/
  | receiving (since : ℕ)
  | exited
  deriving DecidableEq, Repr

/-- A published frame. The model remembers with it which packets it carries. -/
structure Frame where
  packet : TxPacket
  parts : List TxPacket
  deriving DecidableEq, Repr

/-- The thread with its channel and the host clock in nanoseconds. The fields from `accepted` on are a
record of the run that no code reads. -/
structure State where
  running : Bool
  channel : List TxPacket
  pc : Pc
  buffer : List UInt8
  firstVtime : UInt64
  firstSeq : UInt64
  lastSend : ℕ
  wall : ℕ
  /-- All packets that went into the channel. -/
  accepted : List TxPacket
  taken : List TxPacket
  /-- The packets whose bytes are in the buffer. -/
  group : List TxPacket
  published : List Frame
  deriving DecidableEq, Repr

def initial : State := ⟨true, [], .head, [], 0, 0, 0, 0, [], [], [], []⟩

/-! ## Steps -/

/-- `send_packet` of the buffer, and `buffer.clear()`. -/
def flush (s : State) : State :=
  { s with
    buffer := []
    lastSend := s.wall
    group := []
    published := s.published ++ [⟨⟨s.firstVtime, s.firstSeq, s.buffer⟩, s.group⟩] }

/-- The bytes of a packet go into the buffer. -/
def gather (p : TxPacket) (s : State) : State :=
  { s with
    firstVtime := if s.buffer.isEmpty then p.vtime else s.firstVtime
    firstSeq := if s.buffer.isEmpty then p.sequence else s.firstSeq
    buffer := s.buffer ++ p.data
    taken := s.taken ++ [p]
    group := s.group ++ [p] }

/-- `buffer.len() >= FLUSH_THRESHOLD || last_send.elapsed().as_millis() >= FLUSH_INTERVAL_MS`. -/
def mustFlush (s : State) : Bool :=
  decide (flushThreshold ≤ s.buffer.length) ||
    decide (flushIntervalMs ≤ (s.wall - s.lastSend) / 1000000)

/-- The arm of `recv_timeout` for a packet. -/
def receive (p : TxPacket) (s : State) : State :=
  if mustFlush (gather p s) then flush (gather p s) else gather p s

/-- The arm of `recv_timeout` for `Timeout`. -/
def timeout (s : State) : State := if s.buffer.isEmpty then s else flush s

/-- The thread moves on to its next point, if it can. -/
def thread (s : State) : State :=
  match s.pc with
  | .head =>
      if !s.running && s.channel.isEmpty then { s with pc := .exited }
      else { s with pc := .receiving s.wall }
  | .receiving since =>
      -- a packet in the channel comes before the timeout, however late the thread looks
      match s.channel with
      | p :: rest => receive p { s with channel := rest, pc := .head }
      | [] => if since + receiveTimeout ≤ s.wall then timeout { s with pc := .head } else s
  | .exited => s

inductive Move
  /-- `try_send` by the timer callback. -/
  | put (p : TxPacket)
  /-- `running` becomes false. -/
  | stop
  /-- Host time passes. -/
  | tick (ns : ℕ)
  | thread
  deriving DecidableEq, Repr

def step (s : State) : Move → State × Unit
  | .put p =>
      (if s.channel.length < channelCapacity then
        { s with channel := s.channel ++ [p], accepted := s.accepted ++ [p] }
      else s, ())
  | .stop => ({ s with running := false }, ())
  | .tick ns => ({ s with wall := s.wall + ns }, ())
  | .thread => (thread s, ())

/-! ## Where the bytes are -/

/-- The bytes of a list of packets. -/
def bytesOf (ps : List TxPacket) : List UInt8 := (ps.map TxPacket.data).flatten

@[simp] theorem bytesOf_nil : bytesOf [] = [] := rfl

@[simp] theorem bytesOf_append (ps qs : List TxPacket) : bytesOf (ps ++ qs) = bytesOf ps ++ bytesOf qs := by
  simp [bytesOf]

@[simp] theorem bytesOf_singleton (p : TxPacket) : bytesOf [p] = p.data := by simp [bytesOf]

/-- The bytes that were published. -/
def State.publishedBytes (s : State) : List UInt8 := bytesOf (s.published.map Frame.packet)

structure Ledger (s : State) : Prop where
  channel : s.taken ++ s.channel = s.accepted
  bytes : s.publishedBytes ++ s.buffer = bytesOf s.taken
  group : (s.published.map Frame.parts).flatten ++ s.group = s.taken

theorem ledger_initial : Ledger initial := ⟨rfl, rfl, rfl⟩

variable {s : State}

theorem Ledger.flush (h : Ledger s) : Ledger (flush s) where
  channel := h.channel
  bytes := by
    rw [show bytesOf (ChardevThread.flush s).taken = bytesOf s.taken from rfl, ← h.bytes]
    simp [ChardevThread.flush, State.publishedBytes]
  group := by
    rw [show (ChardevThread.flush s).taken = s.taken from rfl, ← h.group]
    simp [ChardevThread.flush]

variable {p : TxPacket}

/-- The packet that the channel lost is in the buffer. -/
theorem Ledger.gather (h : Ledger s) {rest : List TxPacket} (hchannel : s.channel = p :: rest) (pc : Pc) :
    Ledger (gather p { s with channel := rest, pc := pc }) where
  channel := by
    rw [← show s.accepted = (ChardevThread.gather p { s with channel := rest, pc := pc }).accepted from rfl,
      ← h.channel, hchannel]
    simp [ChardevThread.gather]
  bytes := by
    have hbytes := h.bytes
    simp only [ChardevThread.gather, bytesOf_append, bytesOf_singleton, ← hbytes]
    simp [State.publishedBytes]
  group := by
    have hgroup := h.group
    simp only [ChardevThread.gather, ← hgroup]
    simp

theorem Ledger.thread (h : Ledger s) : Ledger (thread s) := by
  have hmoved (pc : Pc) : Ledger { s with pc := pc } := { h with }
  unfold ChardevThread.thread
  split
  next => split <;> exact hmoved _
  next =>
    split
    next p rest hchannel =>
      unfold receive
      split
      · exact (h.gather hchannel .head).flush
      · exact h.gather hchannel .head
    next =>
      split
      · unfold timeout
        split
        · exact hmoved _
        · exact (hmoved _).flush
      · exact h
  next => exact h

theorem Ledger.step (h : Ledger s) (move : Move) : Ledger (step s move).1 := by
  cases move with
  | put p =>
    simp only [ChardevThread.step]
    split
    · refine ⟨?_, h.bytes, h.group⟩
      rw [← append_assoc, h.channel]
    · exact h
  | stop | tick ns => exact { h with }
  | thread => exact h.thread

theorem accepted_thread (s : State) : (thread s).accepted = s.accepted := by
  unfold thread
  split
  next => split <;> rfl
  next =>
    split
    next =>
      unfold receive
      split <;> rfl
    next =>
      split
      · unfold timeout
        split <;> rfl
      · rfl
  next => rfl

theorem mem_accepted_step (hp : p ∈ s.accepted) (move : Move) : p ∈ (step s move).1.accepted := by
  cases move with
  | put q =>
    simp only [step]
    split
    · exact mem_append_left _ hp
    · exact hp
  | stop | tick ns => exact hp
  | thread => exact (accepted_thread s).symm ▸ hp

theorem ledger_run (moves : List Move) : Ledger (finalState step initial moves) :=
  finalState_invariant step (fun _ move h => h.step move) ledger_initial moves

/-- An invariant that needs something of the packets holds in a run that accepts no others. -/
theorem run_of_accepted {Q : TxPacket → Prop} {I : State → Prop} (hstart : I initial)
    (hstep : ∀ s move, I s → (∀ p ∈ s.channel, Q p) → I (step s move).1) (moves : List Move)
    (hall : ∀ p ∈ (finalState step initial moves).accepted, Q p) : I (finalState step initial moves) := by
  refine (finalState_invariant step (P := fun s => Ledger s ∧ ((∀ p ∈ s.accepted, Q p) → I s)) ?_
    ⟨ledger_initial, fun _ => hstart⟩ moves).2 hall
  intro s move ⟨hledger, h⟩
  refine ⟨hledger.step move, fun hnext => ?_⟩
  have hbefore : ∀ p ∈ s.accepted, Q p := fun p hp => hnext p (mem_accepted_step hp move)
  refine hstep s move (h hbefore) fun p hp => hbefore p ?_
  rw [← hledger.channel]
  exact mem_append_right _ hp

/-! ## What is left in the buffer -/

/-- The thread has published what it took, each byte once and in the order of the channel. -/
def AllPublished (s : State) : Prop :=
  s.taken <+: s.accepted ∧ s.publishedBytes = bytesOf s.taken

theorem Ledger.allPublished_iff (h : Ledger s) : AllPublished s ↔ s.buffer = [] := by
  constructor
  · rintro ⟨-, hbytes⟩
    have hboth := h.bytes
    rw [hbytes] at hboth
    exact append_right_eq_self.mp hboth
  · intro hbuffer
    have hbytes := h.bytes
    rw [hbuffer, append_nil] at hbytes
    exact ⟨⟨s.channel, h.channel⟩, hbytes⟩

/-- The thread ends only at the head of the loop, and the buffer stays as it is. -/
theorem thread_exited (hpc : s.pc ≠ .exited) (hexited : (thread s).pc = .exited) :
    (thread s).buffer = s.buffer := by
  unfold thread at hexited ⊢
  split at hexited
  next =>
    split at hexited
    next hdone => simp [hdone]
    next => cases hexited
  next =>
    split at hexited
    next p rest hchannel =>
      unfold receive at hexited
      split at hexited <;> cases hexited
    next =>
      split at hexited
      · unfold timeout at hexited
        split at hexited <;> cases hexited
      · exact absurd hexited hpc
  next hpc' => exact absurd hpc' hpc

/-- A move that ends the thread finds the buffer empty. -/
def EndsEmpty (entry : Entry State Move Unit) : Prop :=
  entry.before.pc ≠ .exited → entry.after.pc = .exited → entry.before.buffer = []

theorem buffer_step_iff (move : Move) (h : s.pc = .exited → s.buffer = []) :
    ((step s move).1.pc = .exited → (step s move).1.buffer = []) ↔ EndsEmpty (entryAt step s move) := by
  unfold EndsEmpty
  rw [entryAt_before, entryAt_after]
  cases move with
  | put p =>
    have hsame : (step s (.put p)).1.pc = s.pc ∧ (step s (.put p)).1.buffer = s.buffer := by
      simp only [step]
      split <;> exact ⟨rfl, rfl⟩
    rw [hsame.1, hsame.2]
    exact iff_of_true h fun hne heq => absurd heq hne
  | stop | tick ns => exact iff_of_true h fun hne heq => absurd heq hne
  | thread =>
    change ((thread s).pc = .exited → (thread s).buffer = []) ↔ _
    by_cases hpc : s.pc = .exited
    · have hsame : thread s = s := by
        unfold thread
        rw [hpc]
      rw [hsame]
      exact iff_of_true h fun hne => absurd hpc hne
    · constructor
      · intro hall _ hexited
        rw [← thread_exited hpc hexited]
        exact hall hexited
      · intro hends hexited
        rw [thread_exited hpc hexited]
        exact hends hpc hexited

/-- **The thread has published everything when it has ended, exactly if it ends with an empty buffer.** -/
theorem published_on_exit_iff (moves : List Move) :
    (∀ entry ∈ entries step initial moves, entry.after.pc = .exited → AllPublished entry.after) ↔
      ∀ entry ∈ entries step initial moves, EndsEmpty entry := by
  refine forall_entries_iff step (I := Ledger) (P := fun s => s.pc = .exited → AllPublished s)
    (fun s move h => h.step move) ?_ ledger_initial (fun hpc => nomatch hpc) moves
  intro s move h hall
  rw [(h.step move).allPublished_iff]
  exact buffer_step_iff move fun hpc => h.allPublished_iff.mp (hall hpc)

/-- One byte is taken and waits in the buffer. The device stops before the next packet and before the
timeout. -/
def stopping : List Move := [.put ⟨86800, 0, [0x41]⟩, .thread, .thread, .stop, .thread]

/-- The thread has ended, the byte was taken and nothing was published. -/
theorem not_published_on_exit : (finalState step initial stopping).pc = .exited ∧
      (finalState step initial stopping).taken = [⟨86800, 0, [0x41]⟩] ∧
      (finalState step initial stopping).buffer = [0x41] ∧
      (finalState step initial stopping).published = [] ∧
      ¬ AllPublished (finalState step initial stopping) := by
  refine ⟨by decide, by decide, by decide, by decide, ?_⟩
  rintro ⟨-, hbytes⟩
  exact absurd hbytes (by decide)

/-! ## One list of packets on two hosts -/

def Move.packet? : Move → Option TxPacket
  | .put p => some p
  | _ => none

/-- A packet of the timer callback, from its time stamp, its sequence number and its byte. -/
def bytePacket (p : UInt64 × UInt64 × UInt8) : TxPacket := ⟨p.1, p.2.1, [p.2.2]⟩

/-- Moves that bring exactly these packets into the channel and go on until all of them are out of the
buffer. Nothing is said about the host times and when the thread gets its turns. -/
structure IsSchedule (ps : List TxPacket) (moves : List Move) : Prop where
  packets : moves.filterMap Move.packet? = ps
  running : Move.stop ∉ moves
  accepted : (finalState step initial moves).accepted = ps
  channel : (finalState step initial moves).channel = []
  buffer : (finalState step initial moves).buffer = []

/-- What is published is the same on every host, and no frame carries a byte of a later time. -/
structure HostIndependent (ps : List TxPacket) : Prop where
  same : ∀ moves moves', IsSchedule ps moves → IsSchedule ps moves' →
    (finalState step initial moves).published.map Frame.packet =
      (finalState step initial moves').published.map Frame.packet
  on_time : ∀ moves, IsSchedule ps moves →
    ∀ f ∈ (finalState step initial moves).published, ∀ p ∈ f.parts, p.vtime ≤ f.packet.vtime

/-- The frame that a group of packets is published as. -/
def frameOf : List TxPacket → TxPacket
  | [] => ⟨0, 0, []⟩
  | p :: ps => ⟨p.vtime, p.sequence, bytesOf (p :: ps)⟩

theorem frameOf_append {ps : List TxPacket} (h : ps ≠ []) (qs : List TxPacket) :
    frameOf (ps ++ qs) = ⟨(frameOf ps).vtime, (frameOf ps).sequence, bytesOf ps ++ bytesOf qs⟩ := by
  cases ps with
  | nil => exact absurd rfl h
  | cons p ps => simp [frameOf, ← bytesOf_append]

/-- A frame is what its packets make it, if no packet is empty. -/
structure Grouped (s : State) : Prop where
  empty : s.group = [] → s.buffer = []
  nonempty : s.group ≠ [] → s.buffer ≠ []
  pending : s.group ≠ [] → (⟨s.firstVtime, s.firstSeq, s.buffer⟩ : TxPacket) = frameOf s.group
  frames : ∀ f ∈ s.published, f.parts ≠ [] ∧ f.packet = frameOf f.parts

theorem Grouped.flush (h : Grouped s) (hgroup : s.group ≠ []) : Grouped (flush s) where
  empty := fun _ => rfl
  nonempty := fun hne => absurd rfl hne
  pending := fun hne => absurd rfl hne
  frames := by
    intro f hf
    simp only [ChardevThread.flush, mem_append, mem_singleton] at hf
    rcases hf with hf | rfl
    · exact h.frames f hf
    · exact ⟨hgroup, h.pending hgroup⟩

theorem Grouped.gather (h : Grouped s) (hp : p.data ≠ []) : Grouped (gather p s) where
  empty := fun hnil => absurd hnil (by simp [ChardevThread.gather])
  nonempty := fun _ => by simp [ChardevThread.gather, hp]
  pending := by
    intro _
    by_cases hgroup : s.group = []
    · simp [ChardevThread.gather, hgroup, h.empty hgroup, frameOf, bytesOf]
    · have hbuffer := h.nonempty hgroup
      have hpending := h.pending hgroup
      have hbytes : s.buffer = bytesOf s.group := by
        have hdata := congrArg TxPacket.data hpending
        cases hcons : s.group with
        | nil => exact absurd hcons hgroup
        | cons q qs => simpa [hcons, frameOf] using hdata
      simp only [ChardevThread.gather, frameOf_append hgroup, ← hpending, ← hbytes, bytesOf_singleton,
        List.isEmpty_iff, hbuffer, if_false]
  frames := h.frames

theorem Grouped.thread (h : Grouped s) (hchannel : ∀ p ∈ s.channel, p.data ≠ []) : Grouped (thread s) := by
  have hmoved (channel : List TxPacket) (pc : Pc) : Grouped { s with channel := channel, pc := pc } :=
    { h with }
  unfold ChardevThread.thread
  split
  next => split <;> exact hmoved _ _
  next =>
    split
    next p rest hcons =>
      have hgathered := (hmoved rest .head).gather (hchannel p (by simp [hcons]))
      unfold receive
      split
      · exact hgathered.flush (by simp [ChardevThread.gather])
      · exact hgathered
    next =>
      split
      · unfold timeout
        split
        next => exact hmoved _ _
        next hbuffer =>
          refine (hmoved _ _).flush fun hgroup => hbuffer ?_
          rw [List.isEmpty_iff]
          exact h.empty hgroup
      · exact h
  next => exact h

theorem Grouped.step (h : Grouped s) (hchannel : ∀ p ∈ s.channel, p.data ≠ []) (move : Move) :
    Grouped (step s move).1 := by
  cases move with
  | put p =>
    simp only [ChardevThread.step]
    split
    · exact { h with }
    · exact h
  | stop | tick ns => exact { h with }
  | thread => exact h.thread hchannel

theorem grouped_run (moves : List Move)
    (hdata : ∀ p ∈ (finalState step initial moves).accepted, p.data ≠ []) :
    Grouped (finalState step initial moves) := by
  refine run_of_accepted (I := Grouped) ?_ (fun s move h hchannel => h.step hchannel move) moves hdata
  exact ⟨fun _ => rfl, fun hne => absurd rfl hne, fun hne => absurd rfl hne, by simp [initial]⟩

/-- A list of non-empty lists with at most one element in all of them. -/
theorem eq_map_singleton {α : Type*} {xss : List (List α)} {ys : List α} (hflatten : xss.flatten = ys)
    (hne : ∀ xs ∈ xss, xs ≠ []) (hlength : ys.length ≤ 1) : xss = ys.map fun y => [y] := by
  subst hflatten
  match xss with
  | [] => rfl
  | [xs] =>
    obtain ⟨x, rest, rfl⟩ := exists_cons_of_ne_nil (hne xs (by simp))
    cases rest with
    | nil => rfl
    | cons y rest => simp at hlength
  | xs :: ys :: rest =>
    have hfirst := length_pos_iff.mpr (hne xs (by simp))
    have hsecond := length_pos_iff.mpr (hne ys (by simp))
    simp only [flatten_cons, length_append] at hlength
    omega

variable {ps : List TxPacket} {moves : List Move}

/-- A single packet is published as it is. -/
theorem IsSchedule.parts_eq (h : IsSchedule ps moves) (hdata : ∀ p ∈ ps, p.data ≠ [])
    (hlength : ps.length ≤ 1) :
    (finalState step initial moves).published.map Frame.parts = ps.map fun p => [p] := by
  have hledger := ledger_run moves
  have hgrouped := grouped_run moves (by rw [h.accepted]; exact hdata)
  have hgroup : (finalState step initial moves).group = [] := by
    by_contra hne
    exact hgrouped.nonempty hne h.buffer
  have hflatten := hledger.group
  have htaken := hledger.channel
  rw [hgroup, append_nil] at hflatten
  rw [h.channel, append_nil, h.accepted] at htaken
  refine eq_map_singleton (hflatten.trans htaken) ?_ hlength
  intro parts hparts
  obtain ⟨f, hf, rfl⟩ := mem_map.mp hparts
  exact (hgrouped.frames f hf).1

theorem IsSchedule.packet_eq (h : IsSchedule ps moves) (hdata : ∀ p ∈ ps, p.data ≠ [])
    (hlength : ps.length ≤ 1) : (finalState step initial moves).published.map Frame.packet = ps := by
  have hgrouped := grouped_run moves (by rw [h.accepted]; exact hdata)
  calc (finalState step initial moves).published.map Frame.packet
      = ((finalState step initial moves).published.map Frame.parts).map frameOf := by
        rw [map_map]
        exact map_congr_left fun f hf => (hgrouped.frames f hf).2
    _ = ps := by
        rw [h.parts_eq hdata hlength, map_map]
        exact (map_congr_left fun p _ => by simp [frameOf]).trans (map_id ps)

theorem hostIndependent_of_length_le (hdata : ∀ p ∈ ps, p.data ≠ []) (hlength : ps.length ≤ 1) :
    HostIndependent ps where
  same := by
    intro moves moves' h h'
    rw [h.packet_eq hdata hlength, h'.packet_eq hdata hlength]
  on_time := by
    intro moves h f hf p hp
    have hgrouped := grouped_run moves (by rw [h.accepted]; exact hdata)
    have hparts : f.parts ∈ ps.map fun p => [p] := by
      rw [← h.parts_eq hdata hlength]
      exact mem_map_of_mem hf
    obtain ⟨q, -, hq⟩ := mem_map.mp hparts
    rw [(hgrouped.frames f hf).2, ← hq]
    rw [← hq, mem_singleton] at hp
    rw [hp]
    exact UInt64.le_refl q.vtime

/-! ### A slow and a fast host -/

/-- A packet arrives, host time passes, and the thread takes it. -/
def deliver (wait : ℕ) (p : TxPacket) : List Move := [.put p, .tick wait, .thread, .thread]

/-- The thread is at the head of its loop and has nothing to take. -/
structure Resting (s : State) : Prop where
  running : s.running = true
  pc : s.pc = .head
  channel : s.channel = []

theorem finalState_deliver (h : Resting s) (wait : ℕ) (p : TxPacket) : finalState step s (deliver wait p) =
      receive p { s with
        channel := [], pc := .head, wall := s.wall + wait, accepted := s.accepted ++ [p] } := by
  have hput : (step s (.put p)).1 = { s with channel := [p], accepted := s.accepted ++ [p] } := by
    simp [step, h.channel, channelCapacity]
  simp only [deliver, finalState_cons, finalState_nil, hput]
  simp [step, thread, h.pc, h.running]

theorem resting_receive (h : Resting s) : Resting (receive p s) := by
  unfold receive
  split <;> exact { h with }

/-- After 20 ms the packet is published at once. -/
theorem deliver_slow (h : Resting s) (hlast : s.lastSend ≤ s.wall) (p : TxPacket) :
    Resting (finalState step s (deliver 20000000 p)) ∧
      (finalState step s (deliver 20000000 p)).lastSend ≤ (finalState step s (deliver 20000000 p)).wall ∧
      (finalState step s (deliver 20000000 p)).buffer = [] ∧
      (finalState step s (deliver 20000000 p)).accepted = s.accepted ++ [p] ∧
      (finalState step s (deliver 20000000 p)).published.length = s.published.length + 1 := by
  rw [finalState_deliver h]
  refine ⟨resting_receive ⟨h.running, rfl, rfl⟩, ?_⟩
  have hflush : mustFlush (gather p { s with
      channel := [], pc := .head, wall := s.wall + 20000000, accepted := s.accepted ++ [p] }) = true := by
    have helapsed : 20 ≤ (s.wall + 20000000 - s.lastSend) / 1000000 := by omega
    simp [mustFlush, gather, flushIntervalMs, helapsed]
  unfold receive
  rw [if_pos hflush]
  exact ⟨le_rfl, rfl, rfl, by simp [flush, gather]⟩

/-- The packets one after the other, each 20 ms after the last frame. -/
theorem deliver_all (h : Resting s) (hlast : s.lastSend ≤ s.wall) (ps : List TxPacket) :
    Resting (finalState step s (ps.map (deliver 20000000)).flatten) ∧
      (ps ≠ [] → (finalState step s (ps.map (deliver 20000000)).flatten).buffer = []) ∧
      (finalState step s (ps.map (deliver 20000000)).flatten).accepted = s.accepted ++ ps ∧
      (finalState step s (ps.map (deliver 20000000)).flatten).published.length =
        s.published.length + ps.length := by
  induction ps generalizing s with
  | nil => simpa using h
  | cons p ps ih =>
    obtain ⟨hrest, hlast', hbuffer, haccepted, hpublished⟩ := deliver_slow h hlast p
    obtain ⟨hrest', hbuffer', haccepted', hpublished'⟩ := ih hrest hlast'
    rw [map_cons, flatten_cons, finalState_append]
    refine ⟨hrest', fun _ => ?_, ?_, ?_⟩
    · cases ps with
      | nil => exact hbuffer
      | cons q ps => exact hbuffer' (cons_ne_nil q ps)
    · rw [haccepted', haccepted, append_assoc]
      rfl
    · rw [hpublished', hpublished, length_cons]
      omega

theorem filterMap_deliver (wait : ℕ) (p : TxPacket) : (deliver wait p).filterMap Move.packet? = [p] := rfl

theorem filterMap_deliver_all (ps : List TxPacket) :
    (ps.map (deliver 20000000)).flatten.filterMap Move.packet? = ps := by
  induction ps with
  | nil => rfl
  | cons p ps ih => rw [map_cons, flatten_cons, filterMap_append, ih]; rfl

theorem stop_notMem_deliver_all (ps : List TxPacket) : Move.stop ∉ (ps.map (deliver 20000000)).flatten := by
  simp [deliver]

theorem resting_initial : Resting initial := ⟨rfl, rfl, rfl⟩

/-- On the slow host every packet has a frame of its own. -/
theorem isSchedule_slow (ps : List TxPacket) : IsSchedule ps (ps.map (deliver 20000000)).flatten ∧
      (finalState step initial (ps.map (deliver 20000000)).flatten).published.length = ps.length := by
  obtain ⟨hrest, hbuffer, haccepted, hpublished⟩ := deliver_all resting_initial le_rfl ps
  refine ⟨⟨filterMap_deliver_all ps, stop_notMem_deliver_all ps, haccepted, hrest.channel, ?_⟩, ?_⟩
  · cases ps with
    | nil => rfl
    | cons p ps => exact hbuffer (cons_ne_nil p ps)
  · rw [hpublished]
    exact Nat.zero_add _

/-- On the fast host the first two share one. -/
theorem isSchedule_fast (p : TxPacket) (hp : p.data.length = 1) (ps : List TxPacket) (hps : ps ≠ []) :
    IsSchedule (p :: ps) (deliver 0 p ++ (ps.map (deliver 20000000)).flatten) ∧
      (finalState step initial (deliver 0 p ++ (ps.map (deliver 20000000)).flatten)).published.length =
        ps.length := by
  have hstart : finalState step initial (deliver 0 p) =
      gather p { initial with accepted := [p] } := by
    rw [finalState_deliver resting_initial]
    have hflush : mustFlush (gather p { initial with
        channel := [], pc := .head, wall := initial.wall + 0, accepted := initial.accepted ++ [p] }) =
          false := by
      simp [mustFlush, gather, initial, flushThreshold, flushIntervalMs, hp]
    unfold receive
    rw [hflush]
    rfl
  have hrest : Resting (finalState step initial (deliver 0 p)) := by
    rw [hstart]
    exact ⟨rfl, rfl, rfl⟩
  have hlast : (finalState step initial (deliver 0 p)).lastSend ≤
      (finalState step initial (deliver 0 p)).wall := by
    rw [hstart]
    exact le_rfl
  obtain ⟨hrest', hbuffer, haccepted, hpublished⟩ := deliver_all hrest hlast ps
  rw [← finalState_append, hstart] at haccepted hpublished
  rw [← finalState_append] at hrest' hbuffer
  refine ⟨⟨?_, ?_, haccepted, hrest'.channel, hbuffer hps⟩, ?_⟩
  · rw [filterMap_append, filterMap_deliver, filterMap_deliver_all]
    rfl
  · rw [mem_append, not_or]
    exact ⟨by simp [deliver], stop_notMem_deliver_all ps⟩
  · rw [hpublished]
    exact Nat.zero_add _

/-- **What the thread publishes is independent of the host exactly for at most one packet.** -/
theorem hostIndependent_iff (ps : List (UInt64 × UInt64 × UInt8)) :
    HostIndependent (ps.map bytePacket) ↔ ps.length ≤ 1 := by
  constructor
  · intro h
    match ps with
    | [] => exact Nat.zero_le _
    | [p] => exact le_rfl
    | p :: q :: ps =>
      obtain ⟨hslow, hslowLength⟩ := isSchedule_slow ((p :: q :: ps).map bytePacket)
      obtain ⟨hfast, hfastLength⟩ :=
        isSchedule_fast (bytePacket p) rfl ((q :: ps).map bytePacket) (by simp)
      -- one frame more on the slow host
      have hsame := congrArg List.length (h.same _ _ hslow hfast)
      rw [List.length_map, List.length_map, hslowLength, hfastLength] at hsame
      simp at hsame
  · intro hlength
    refine hostIndependent_of_length_le ?_ (by rw [List.length_map]; exact hlength)
    intro p hp
    obtain ⟨q, -, rfl⟩ := List.mem_map.mp hp
    exact List.cons_ne_nil _ _

/-- Two bytes at 115200 baud. On a host that is slow for 20 ms each has its frame; on a fast one the second
is published with the time of the first. -/
theorem not_hostIndependent_pair : (finalState step initial (deliver 20000000 ⟨0, 0, [0x41]⟩ ++
        deliver 20000000 ⟨86800, 1, [0x42]⟩)).published.map Frame.packet =
      [⟨0, 0, [0x41]⟩, ⟨86800, 1, [0x42]⟩] ∧ (finalState step initial (deliver 0 ⟨0, 0, [0x41]⟩ ++
        deliver 20000000 ⟨86800, 1, [0x42]⟩)).published =
      [⟨⟨0, 0, [0x41, 0x42]⟩, [⟨0, 0, [0x41]⟩, ⟨86800, 1, [0x42]⟩]⟩] ∧
    ¬ HostIndependent ([(0, 0, 0x41), (86800, 1, 0x42)].map bytePacket) := by
  refine ⟨by decide, by decide, ?_⟩
  intro h
  have hfast := (isSchedule_fast ⟨0, 0, [0x41]⟩ rfl [⟨86800, 1, [0x42]⟩] (by simp)).1
  have hlate := h.on_time _ hfast ⟨⟨0, 0, [0x41, 0x42]⟩, [⟨0, 0, [0x41]⟩, ⟨86800, 1, [0x42]⟩]⟩
    (by decide) ⟨86800, 1, [0x42]⟩ (by simp)
  exact absurd hlate (by decide)

end Virtmcu.Comms.ChardevThread
