import Virtmcu.CoSim.Bridge
import Virtmcu.Foundations.Transition

/-! # Do responses match requests?

A response is handed to whoever looks into the slot, and nothing in it says which call it answers: the
identifier of its packet is not compared with that of the request. So the response to a call that timed
out is returned to a later call, two calls at once take each other's responses, and the rest of a
packet that a lost connection left in `rx_buf` is completed by the bytes of the next connection.

Responses do match requests (`paired_of_careful`) as long as these three things do not happen: a vCPU
clears the slot only when no other call is open and nothing of an earlier request is outstanding, and a
connection is lost only between two packets. -/

namespace Virtmcu.CoSim

open List Option

variable {n : ℕ}

/-! ## The discipline -/

/-- The vCPU has cleared the slot and not yet returned. -/
def VcpuPc.inCall : VcpuPc → Bool
  | .idle => false
  | .entered _ => false
  | .cleared _ => true
  | .waiting _ => true

/-- The step keeps to the discipline. -/
def Careful (s : State n) : Action n → Prop
  | .clear v _ => (∀ w, w ≠ v → (s.pc w).inCall = false) ∧ s.pending = [] ∧ s.underway = []
  | .disconnect => s.rxBuf = []
  | _ => True

instance (s : State n) (action : Action n) : Decidable (Careful s action) := by
  -- not `cases`, which leaves casts in the instance
  apply @Action.casesOn n (Decidable <| Careful s ·) action <;> intros <;> dsimp only [Careful] <;>
    infer_instance

/-! ## What can reach the slot -/

/-- All that is in the slot or may still get there is for the calls in `P`. -/
structure OnlyFor (s : State n) (P : ℕ → Prop) : Prop where
  pending : ∀ sent ∈ s.pending, P sent.call
  underway : ∀ entry ∈ s.underway, P entry.1
  current : ∀ resp, s.currentResp = some resp → ∃ call, P call ∧ (call, resp) ∈ s.answers

/-- The receive loop has kept its place in the stream, and the responses it will find are answers of the
peer. -/
structure InStep (s : State n) : Prop where
  framed : ∃ packets : List (List UInt8), (∀ packet ∈ packets, rpFraming.IsPacket packet) ∧
    s.rxBuf ++ s.wire = packets.flatten ∧ packets.filterMap responseOf = s.underway.map Prod.snd
  answered : ∀ entry ∈ s.underway, entry ∈ s.answers

/-- The calls a vCPU waits for: one at most. -/
def VcpuPc.awaits : VcpuPc → ℕ → Prop
  | .waiting call => fun c => c = call
  | _ => fun _ => False

/-- The invariant of the careful runs: one call is open at most, and what can reach the slot is for
that call. -/
structure SlotInv (s : State n) : Prop where
  inStep : InStep s
  single : ∀ v w, (s.pc v).inCall = true → (s.pc w).inCall = true → v = w
  onlyFor : ∀ v, (s.pc v).inCall = true → OnlyFor s (s.pc v).awaits
  paired : Paired s

theorem slotInv_initial : SlotInv (initial n) where
  inStep := ⟨⟨[], nofun, rfl, rfl⟩, nofun⟩
  single := nofun
  onlyFor := nofun
  paired := nofun

/-! ## Steps of the receive loop and the peer -/

/-- What a step that no vCPU takes does: it keeps its place, and it brings nothing to the slot that was
not on its way there. -/
structure Evolves (s s' : State n) : Prop where
  pc : s'.pc = s.pc
  returned : s'.returned = s.returned
  answers : s.answers ⊆ s'.answers
  inStep : InStep s'
  onlyFor : ∀ P, OnlyFor s P → OnlyFor s' P

theorem SlotInv.of_evolves {s s' : State n} (hs : SlotInv s) (h : Evolves s s') : SlotInv s' where
  inStep := h.inStep
  single := by
    rw [h.pc]
    exact hs.single
  onlyFor := by
    rw [h.pc]
    intro v hv
    exact h.onlyFor _ (hs.onlyFor v hv)
  paired := by
    intro entry hentry
    rw [h.returned] at hentry
    exact h.answers (hs.paired entry hentry)

/-- A step that leaves the stream alone and brings nothing to the slot. -/
theorem evolves_of_subset {s s' : State n} (hs : InStep s) (hpc : s'.pc = s.pc)
    (hreturned : s'.returned = s.returned) (hanswers : s'.answers = s.answers)
    (hstream : s'.rxBuf ++ s'.wire = s.rxBuf ++ s.wire) (hunderway : s'.underway = s.underway)
    (hpending : s'.pending ⊆ s.pending)
    (hcurrent : ∀ resp, s'.currentResp = some resp → s.currentResp = some resp) : Evolves s s' where
  pc := hpc
  returned := hreturned
  answers := by
    rw [hanswers]
    exact List.Subset.refl _
  inStep := by
    constructor
    · rw [hstream, hunderway]
      exact hs.framed
    · rw [hunderway, hanswers]
      exact hs.answered
  onlyFor := by
    intro P h
    refine ⟨fun sent hsent => h.pending sent (hpending hsent), ?_, ?_⟩
    · rw [hunderway]
      exact h.underway
    · intro resp hresp
      rw [hanswers]
      exact h.current resp (hcurrent resp hresp)

variable {s : State n}

/-- A read moves bytes from the wire to the buffer. -/
theorem evolves_receive (hs : InStep s) (count : ℕ) : Evolves s (step s (.receive count)) := by
  refine evolves_of_subset hs rfl rfl rfl ?_ rfl (List.Subset.refl _) fun _ => id
  show s.rxBuf ++ s.wire.take count ++ s.wire.drop count = s.rxBuf ++ s.wire
  rw [append_assoc, take_append_drop]

/-- The packet that is handled is the first one underway; a response among them goes to the slot. -/
theorem evolves_handle (hs : InStep s) {packet rest : List UInt8}
    (hnext : rpFraming.next s.rxBuf = some (packet, rest)) : Evolves s (step s (.handle packet rest)) := by
  obtain ⟨packets, hpackets, hstream, hresponses⟩ := hs.framed
  obtain ⟨later, rfl, hlater⟩ := rpFraming.next_eq_some hpackets hstream hnext
  have hwhole : ∀ p ∈ later, rpFraming.IsPacket p := fun p hp =>
    hpackets p (mem_cons_of_mem _ hp)
  cases hresponse : responseOf packet with
  | none =>
    rw [filterMap_cons_none hresponse] at hresponses
    have hstep : step s (.handle packet rest) = { s with rxBuf := rest } := by
      simp only [step, hresponse]
    rw [hstep]
    exact ⟨rfl, rfl, List.Subset.refl _, ⟨⟨later, hwhole, hlater, hresponses⟩, hs.answered⟩,
      fun _ h => ⟨h.pending, h.underway, h.current⟩⟩
  | some resp =>
    rw [filterMap_cons_some hresponse] at hresponses
    have hstep : step s (.handle packet rest) =
        { s with rxBuf := rest }.dispatchResponse resp := by
      simp only [step, hresponse]
    rw [hstep]
    obtain ⟨entry, others, hunderway, rfl, hothers⟩ := map_eq_cons_iff.mp hresponses.symm
    have htail : s.underway.tail = others := by rw [hunderway, tail_cons]
    have hentry : entry ∈ s.underway := by
      rw [hunderway]
      exact mem_cons_self
    refine ⟨rfl, rfl, List.Subset.refl _, ⟨⟨later, hwhole, hlater, ?_⟩, ?_⟩, ?_⟩
    · show _ = s.underway.tail.map Prod.snd
      rw [htail, hothers]
    · intro other hother
      exact hs.answered other (mem_of_mem_tail hother)
    · intro P h
      refine ⟨h.pending, fun other hother => h.underway other (mem_of_mem_tail hother), ?_⟩
      intro current hcurrent
      cases hcurrent
      exact ⟨entry.1, h.underway entry hentry, hs.answered entry hentry⟩

/-- A lost connection takes along what is underway. The buffer must be empty: what is left in it would
be read as the beginning of the next connection. -/
theorem evolves_disconnect (hempty : s.rxBuf = []) : Evolves s (step s .disconnect) where
  pc := rfl
  returned := rfl
  answers := List.Subset.refl _
  inStep := by
    refine ⟨⟨[], nofun, ?_, rfl⟩, nofun⟩
    show s.rxBuf ++ [] = []
    rw [hempty, append_nil]
  onlyFor _ h := ⟨nofun, nofun, h.current⟩

variable {packet : List UInt8}

/-- A packet put on the wire comes last in the stream. -/
theorem InStep.framed_append (hs : InStep s) (hpacket : rpFraming.IsPacket packet) :
    ∃ packets : List (List UInt8), (∀ p ∈ packets, rpFraming.IsPacket p) ∧
      s.rxBuf ++ (s.wire ++ packet) = packets.flatten ∧
      packets.filterMap responseOf = s.underway.map Prod.snd ++ (responseOf packet).toList := by
  obtain ⟨packets, hpackets, hstream, hresponses⟩ := hs.framed
  refine ⟨packets ++ [packet], ?_, ?_, ?_⟩
  · intro p hp
    rcases mem_append.mp hp with hp | hp
    · exact hpackets p hp
    · rwa [mem_singleton.mp hp]
  · rw [← append_assoc, hstream, flatten_append, flatten_singleton]
  · rw [filterMap_append, hresponses]
    cases hresponse : responseOf packet with
    | none => rw [filterMap_cons_none hresponse, filterMap_nil, toList_none]
    | some resp => rw [filterMap_cons_some hresponse, filterMap_nil, toList_some]

/-- An answer is for the oldest request that is pending. -/
theorem evolves_answer (hs : InStep s) {call : ℕ}
    {resp : RpResponse} (hcall : s.pending.head?.map Sent.call = some call)
    (hpacket : rpFraming.IsPacket packet) (hresponse : responseOf packet = some resp) :
    Evolves s (step s (.answer call packet resp)) where
  pc := rfl
  returned := rfl
  answers := subset_append_left _ _
  inStep := by
    obtain ⟨packets, hpackets, hstream, hresponses⟩ := hs.framed_append hpacket
    refine ⟨⟨packets, hpackets, hstream, ?_⟩, ?_⟩
    · show _ = (s.underway ++ [(call, resp)]).map Prod.snd
      rw [hresponses, hresponse, map_append, toList_some]
      rfl
    · intro entry hentry
      rcases mem_append.mp hentry with hentry | hentry
      · exact mem_append_left _ (hs.answered entry hentry)
      · exact mem_append_right _ hentry
  onlyFor := by
    intro P h
    refine ⟨fun sent hsent => h.pending sent (mem_of_mem_tail hsent), ?_, ?_⟩
    · intro entry hentry
      rcases mem_append.mp hentry with hentry | hentry
      · exact h.underway entry hentry
      · obtain ⟨sent, hsent, rfl⟩ := map_eq_some_iff.mp hcall
        rw [mem_singleton.mp hentry]
        exact h.pending sent (mem_of_mem_head? hsent)
    · intro current hcurrent
      obtain ⟨c, hc, hmem⟩ := h.current current hcurrent
      exact ⟨c, hc, mem_append_left _ hmem⟩

/-- A packet that is no response passes the slot by. -/
theorem evolves_tell (hs : InStep s)
    (hpacket : rpFraming.IsPacket packet) (hresponse : responseOf packet = none) :
    Evolves s (step s (.tell packet)) where
  pc := rfl
  returned := rfl
  answers := List.Subset.refl _
  inStep := by
    obtain ⟨packets, hpackets, hstream, hresponses⟩ := hs.framed_append hpacket
    refine ⟨⟨packets, hpackets, hstream, ?_⟩, hs.answered⟩
    rw [hresponses, hresponse, toList_none, append_nil]
    rfl
  onlyFor _ h := ⟨h.pending, h.underway, h.current⟩

/-! ## Steps of the vCPUs -/

/-- A step of `v` keeps the invariant if, should `v` then be in a call, it is the only one and what can
reach the slot is for it, and if otherwise nothing new can reach the slot. -/
theorem SlotInv.of_vcpu {s s' : State n} (hs : SlotInv s) (v : Fin n)
    (hpc : ∀ w, w ≠ v → s'.pc w = s.pc w) (hinStep : InStep s') (hpaired : Paired s')
    (hin : (s'.pc v).inCall = true → (∀ w, w ≠ v → (s.pc w).inCall = false) ∧ OnlyFor s' (s'.pc v).awaits)
    (hout : (s'.pc v).inCall = false → ∀ P, OnlyFor s P → OnlyFor s' P) : SlotInv s' := by
  have hothers : ∀ w, w ≠ v → (s'.pc v).inCall = true → (s'.pc w).inCall = false := by
    intro w hw hv
    rw [hpc w hw]
    exact (hin hv).1 w hw
  refine ⟨hinStep, ?_, ?_, hpaired⟩
  · intro a b ha hb
    by_cases hav : a = v <;> by_cases hbv : b = v
    · rw [hav, hbv]
    · rw [hothers b hbv (hav ▸ ha)] at hb
      cases hb
    · rw [hothers a hav (hbv ▸ hb)] at ha
      cases ha
    · rw [hpc a hav] at ha
      rw [hpc b hbv] at hb
      exact hs.single a b ha hb
  · intro a ha
    by_cases hav : a = v
    · rw [hav] at ha ⊢
      exact (hin ha).2
    · cases hv : (s'.pc v).inCall with
      | true =>
        rw [hothers a hav hv] at ha
        cases ha
      | false =>
        rw [hpc a hav] at ha ⊢
        exact hout hv _ (hs.onlyFor a ha)

theorem goto_pc_of_ne (s : State n) {v w : Fin n} (pc : VcpuPc) (h : w ≠ v) :
    (s.goto v pc).pc w = s.pc w :=
  Function.update_of_ne h _ _

@[simp] theorem goto_pc_self (s : State n) (v : Fin n) (pc : VcpuPc) : (s.goto v pc).pc v = pc :=
  Function.update_self _ _ _

/-- A vCPU that goes to a place outside of the calls. -/
theorem SlotInv.goto_outside (hs : SlotInv s) (v : Fin n) {pc : VcpuPc}
    (hpc : pc.inCall = false) : SlotInv (s.goto v pc) := by
  refine hs.of_vcpu v (fun w hw => goto_pc_of_ne s pc hw) ⟨hs.inStep.framed, hs.inStep.answered⟩
    hs.paired ?_ ?_
  · intro hin
    rw [goto_pc_self, hpc] at hin
    cases hin
  · intro _ P h
    exact ⟨h.pending, h.underway, h.current⟩

/-- After the slot is cleared with nothing outstanding, nothing can reach it. -/
theorem SlotInv.clear (hs : SlotInv s) {v : Fin n} {req : RpRequest}
    (halone : ∀ w, w ≠ v → (s.pc w).inCall = false) (hpending : s.pending = [])
    (hunderway : s.underway = []) : SlotInv (step s (.clear v req)) := by
  refine hs.of_vcpu v (fun w hw => goto_pc_of_ne s _ hw) ⟨hs.inStep.framed, hs.inStep.answered⟩
    hs.paired ?_ ?_
  · intro _
    refine ⟨halone, ?_, ?_, nofun⟩
    · show ∀ sent ∈ s.pending, _
      rw [hpending]
      exact nofun
    · show ∀ entry ∈ s.underway, _
      rw [hunderway]
      exact nofun
  · intro _ P h
    exact ⟨h.pending, h.underway, nofun⟩

/-- The request that is sent is then the only one that is pending. -/
theorem SlotInv.send (hs : SlotInv s) {v : Fin n} {req : RpRequest}
    (hpc : s.pc v = .cleared req) : SlotInv (step s (.send v req)) := by
  have hin : (s.pc v).inCall = true := by rw [hpc]; rfl
  have honly : OnlyFor s fun _ => False := by
    have := hs.onlyFor v hin
    rwa [hpc] at this
  have hv : (step s (.send v req)).pc v = .waiting s.nextId := goto_pc_self s v _
  refine hs.of_vcpu v (fun w hw => goto_pc_of_ne s _ hw) ⟨hs.inStep.framed, hs.inStep.answered⟩
    hs.paired ?_ ?_
  · intro _
    rw [hv]
    refine ⟨?_, ?_, ?_, ?_⟩
    · intro w hw
      cases hwin : (s.pc w).inCall with
      | true => exact absurd (hs.single w v hwin hin) hw
      | false => rfl
    · intro sent hsent
      rcases mem_append.mp hsent with hold | hnew
      · exact (honly.pending sent hold).elim
      · rw [mem_singleton.mp hnew]
        rfl
    · intro entry hentry
      exact (honly.underway entry hentry).elim
    · intro resp hresp
      obtain ⟨_, hfalse, _⟩ := honly.current resp hresp
      exact hfalse.elim
  · intro hout
    rw [hv] at hout
    cases hout

/-- What a call takes out of the slot is the answer to it. -/
theorem SlotInv.takeResponse (hs : SlotInv s) {v : Fin n} {call : ℕ}
    (hpc : s.pc v = .waiting call) : SlotInv (s.takeResponse v call) := by
  have hin : (s.pc v).inCall = true := by rw [hpc]; rfl
  refine hs.of_vcpu v (fun w hw => goto_pc_of_ne s _ hw) ⟨hs.inStep.framed, hs.inStep.answered⟩
    ?_ ?_ ?_
  · intro entry hentry
    rcases mem_append.mp hentry with hold | hnew
    · exact hs.paired entry hold
    · obtain ⟨resp, hresp, rfl⟩ := map_eq_some_iff.mp (mem_toList.mp hnew)
      obtain ⟨c, hc, hmem⟩ := (hs.onlyFor v hin).current resp hresp
      rw [hpc] at hc
      cases hc
      exact hmem
  · intro hout
    have hv : (s.takeResponse v call).pc v = .idle := goto_pc_self s v _
    rw [hv] at hout
    cases hout
  · intro _ P h
    exact ⟨h.pending, h.underway, nofun⟩

/-! ## Careful runs -/

/-- A careful step keeps the invariant. -/
theorem SlotInv.step (hs : SlotInv s) {action : Action n} (henabled : Enabled s action)
    (hcareful : Careful s action) : SlotInv (step s action) := by
  cases action with
  | enter v req => exact hs.goto_outside v rfl
  | clear v req =>
    obtain ⟨halone, hpending, hunderway⟩ := hcareful
    exact hs.clear halone hpending hunderway
  | send v req => exact hs.send henabled.1
  | noStream v req => exact hs.goto_outside v rfl
  | writeFails v req =>
    have hidle : SlotInv (s.goto v .idle) := hs.goto_outside v rfl
    exact hidle.of_evolves
      (evolves_of_subset hidle.inStep rfl rfl rfl rfl rfl (List.Subset.refl _) fun _ => id)
  | wake v call => exact hs.takeResponse henabled.1
  | timeout v call => exact hs.takeResponse henabled
  | stop | loop | connect | connectFails =>
    exact hs.of_evolves
      (evolves_of_subset hs.inStep rfl rfl rfl rfl rfl (List.Subset.refl _) fun _ => id)
  | receive count => exact hs.of_evolves (evolves_receive hs.inStep count)
  | handle packet rest => exact hs.of_evolves (evolves_handle hs.inStep henabled.2)
  | disconnect => exact hs.of_evolves (evolves_disconnect hcareful)
  | notifyDisconnected =>
    exact hs.of_evolves
      (evolves_of_subset hs.inStep rfl rfl rfl rfl rfl (List.Subset.refl _) nofun)
  | answer call packet resp =>
    obtain ⟨_, hcall, hpacket, hresponse⟩ := henabled
    exact hs.of_evolves (evolves_answer hs.inStep hcall hpacket hresponse)
  | pass =>
    exact hs.of_evolves
      (evolves_of_subset hs.inStep rfl rfl rfl rfl rfl (fun _ => mem_of_mem_tail) fun _ => id)
  | tell packet =>
    obtain ⟨_, hpacket, hresponse⟩ := henabled
    exact hs.of_evolves (evolves_tell hs.inStep hpacket hresponse)

/-- **Responses match requests in careful runs.** -/
theorem paired_of_careful (actions : List (Action n))
    (h : passes step (fun s a => decide (Enabled s a ∧ Careful s a)) (initial n) actions = true) :
    Paired (actions.foldl step (initial n)) := by
  have hpath := steps_of_passes step _ h
  refine (steps_invariant ?_ hpath slotInv_initial).paired
  rintro s _ ⟨action, hok, rfl⟩ hs
  obtain ⟨henabled, hcareful⟩ := of_decide_eq_true hok
  exact hs.step henabled hcareful

/-! ## Runs -/

/-- A read of four bytes. -/
def readRequest (addr : UInt64) : RpRequest := ⟨.read, addr, 4, none, 0⟩

/-- What a peer answers to a read: one byte, under the identifier of the request. -/
def readResponse (id : UInt32) (addr : UInt64) (value : UInt8) : RpResponse where
  pkt := ⟨⟨RpCmd.read.toUInt32, 39, id, 2, 0⟩, 0, 0, addr, 4, 4, 4, 0⟩
  data := [value, 0, 0, 0, 0, 0, 0, 0]

/-- Its packet. -/
def readReply (id : UInt32) (addr : UInt64) (value : UInt8) : List UInt8 :=
  (readResponse id addr value).pkt.packBe ++ [value]

/-- A vCPU gets as far as the loop with a read. -/
def callRead (v : Fin n) (addr : UInt64) : List (Action n) :=
  [.enter v (readRequest addr), .clear v (readRequest addr), .send v (readRequest addr)]

/-- A read and its answer. -/
def plainRun : List (Action 1) :=
  List.flatten [[.loop, .connect], callRead 0 16,
    [.answer 0 (readReply 0 16 7) (readResponse 0 16 7), .receive 40, .receive 19,
      .handle (readReply 0 16 7) [], .wake 0 0]]

/-- The read is careful and returns its answer. -/
theorem paired_plainRun :
    passes step (fun s a => decide (Enabled s a ∧ Careful s a)) (initial 1) plainRun = true ∧
      (plainRun.foldl step (initial 1)).returned = [(0, readResponse 0 16 7)] ∧
      Paired (plainRun.foldl step (initial 1)) :=
  have hcareful : passes step (fun s a => decide (Enabled s a ∧ Careful s a)) (initial 1) plainRun =
      true := by decide +kernel
  ⟨hcareful, by decide +kernel, paired_of_careful plainRun hcareful⟩

/-- The first read times out; its answer arrives during the second one, at another address. -/
def lateRun : List (Action 1) :=
  List.flatten [[.loop, .connect], callRead 0 16, [.timeout 0 0], callRead 0 32,
    [.answer 0 (readReply 0 16 7) (readResponse 0 16 7), .receive 59,
      .handle (readReply 0 16 7) [], .wake 0 1]]

/-- Two vCPUs clear the slot before either sends its read; the second one wakes up first. -/
def crossedRun : List (Action 2) :=
  [.loop, .connect, .enter 0 (readRequest 16), .clear 0 (readRequest 16), .enter 1 (readRequest 32),
    .clear 1 (readRequest 32), .send 0 (readRequest 16), .send 1 (readRequest 32),
    .answer 0 (readReply 0 16 7) (readResponse 0 16 7), .receive 59, .handle (readReply 0 16 7) [],
    .wake 1 1]

/-- The connection is lost after 30 bytes of an answer. The answer to the read on the next connection is
taken for the rest. -/
def brokenRun : List (Action 1) :=
  List.flatten [[.loop, .connect], callRead 0 16,
    [.answer 0 (readReply 0 16 7) (readResponse 0 16 7), .receive 30, .disconnect,
      .notifyDisconnected, .wake 0 0, .loop, .connect], callRead 0 32,
    [.answer 1 (readReply 1 32 9) (readResponse 1 32 9), .receive 59,
      .handle ((readReply 0 16 7).take 30 ++ (readReply 1 32 9).take 29) ((readReply 1 32 9).drop 29),
      .wake 0 1]]

/-- Each part of the discipline is needed. -/
theorem not_paired_uncareful : (passes step (fun s a => decide (Enabled s a)) (initial 1) lateRun = true ∧
      ¬ Paired (lateRun.foldl step (initial 1))) ∧
    (passes step (fun s a => decide (Enabled s a)) (initial 2) crossedRun = true ∧
      ¬ Paired (crossedRun.foldl step (initial 2))) ∧
    (passes step (fun s a => decide (Enabled s a)) (initial 1) brokenRun = true ∧
      ¬ Paired (brokenRun.foldl step (initial 1))) := by
  decide +kernel

end Virtmcu.CoSim
