import Virtmcu.DeterministicCoordinator.BarrierHistory

/-! # When the barrier makes progress

A quantum that all nodes have reported ought to be answered. Promotion breaks this in one corner: it
recounts the promoted flags but does not test the count, so a lookahead set that is already full when
the current quantum completes becomes a complete quantum that nobody will ever be answered for
(`stuck_of_doneCount_eq`). `barrierProgress_iff` shows that this corner is the only one. -/

namespace Virtmcu.DeterministicCoordinator

open List

variable {n cap q₀ : Nat} {es : List (BarrierEntry n)} {b : QuantumBarrier n}

/-- Every quantum that all nodes have reported, and below which everything has been released, has been
released itself. -/
def Progressed (n q₀ : Nat) (es : List (BarrierEntry n)) : Prop :=
  ∀ q, q₀ ≤ q → (∀ i < n, Reported (accepted es) i q) →
    (∀ q', q₀ ≤ q' → q' < q → ∃ batch, (q', batch) ∈ released es) →
    ∃ batch, (q, batch) ∈ released es

/-- The call completes the current quantum at a moment when every node has already reported the
next one. -/
def CompletesOverFullLookahead (b : QuantumBarrier n) (c : DoneCall) : Prop :=
  (∃ i : Fin n, c.nodeId.toNat = i ∧ b.doneNodes.get i = false) ∧
    c.quantum.toNat = b.currentQuantum.toNat ∧ b.currentQuantum.toNat + 1 < 2 ^ 64 ∧
    b.doneCount + 1 = n ∧ ∀ i : Fin n, b.nextQuantumDoneNodes.get i = true

instance (b : QuantumBarrier n) (c : DoneCall) : Decidable (CompletesOverFullLookahead b c) :=
  inferInstanceAs (Decidable ((∃ i : Fin n, c.nodeId.toNat = i ∧ b.doneNodes.get i = false) ∧
    c.quantum.toNat = b.currentQuantum.toNat ∧ b.currentQuantum.toNat + 1 < 2 ^ 64 ∧
    b.doneCount + 1 = n ∧ ∀ i : Fin n, b.nextQuantumDoneNodes.get i = true))

/-! ## Released quanta and complete quanta -/

/-- The released quanta are exactly those from the start up to the current one. -/
theorem History.mem_released_iff (h : History n cap q₀ es b) {q : Nat} (hq : q₀ ≤ q) :
    (∃ batch, (q, batch) ∈ released es) ↔ q < b.currentQuantum.toNat := by
  have hstart := h.start_le
  rw [h.released_eq]
  constructor
  · rintro ⟨batch, hmem⟩
    obtain ⟨q', hq', heq⟩ := mem_map.mp hmem
    obtain ⟨rfl, -⟩ := Prod.mk.inj heq
    rw [mem_range'_1] at hq'
    omega
  · intro hlt
    refine ⟨_, mem_map.mpr ⟨q, ?_, rfl⟩⟩
    rw [mem_range'_1]
    omega

/-- The count reaches `n` exactly when every node has reported the current quantum. -/
theorem History.doneCount_eq_iff (h : History n cap q₀ es b) :
    b.doneCount = n ↔ ∀ i < n, Reported (accepted es) i b.currentQuantum.toNat := by
  rw [h.doneCount_eq]
  constructor
  · intro hall i hi
    exact (h.done_iff ⟨i, hi⟩).mp (getElem_of_count_eq hall ⟨i, hi⟩)
  · intro hall
    exact count_eq_of_forall fun i => (h.done_iff i).mpr (hall i i.isLt)

/-- Progress in terms of the state: the count never rests at `n`. -/
theorem History.progressed_iff (h : History n cap q₀ es b) : Progressed n q₀ es ↔ b.doneCount ≠ n := by
  constructor
  · intro hprog hall
    obtain ⟨batch, hmem⟩ := hprog _ h.start_le (h.doneCount_eq_iff.mp hall)
      (fun q hq hlt => (h.mem_released_iff hq).mpr hlt)
    exact absurd ((h.mem_released_iff h.start_le).mp ⟨batch, hmem⟩) (lt_irrefl _)
  · intro hne q hq hall hbelow
    rw [h.mem_released_iff hq]
    -- a complete quantum is neither the current one nor, with the current one open, a later one
    rcases lt_trichotomy q b.currentQuantum.toNat with hlt | heq | hgt
    · exact hlt
    · exact absurd (h.doneCount_eq_iff.mpr (heq ▸ hall)) hne
    · have hcur := (h.mem_released_iff h.start_le).mp (hbelow _ h.start_le hgt)
      exact absurd hcur (lt_irrefl _)

/-! ## The one step that loses a quantum -/

/-- From a state that has not come to rest, a call leads to rest exactly when it completes the current
quantum over a full lookahead set. -/
theorem doneCount_submitDone_eq_iff (hne : b.doneCount ≠ n) (c : DoneCall) :
    (b.submitDone c).1.doneCount = n ↔ CompletesOverFullLookahead b c := by
  have hcases := QuantumBarrier.submitDone_cases b c
  generalize b.submitDone c = r at hcases
  unfold CompletesOverFullLookahead
  cases hcases with
  | stale hq | ahead i hi hq hfree =>
    constructor
    · intro hall
      exact absurd hall hne
    · rintro ⟨-, hcur, -⟩
      omega
  | rejected e hq he =>
    constructor
    · intro hall
      exact absurd hall hne
    · rintro ⟨⟨i, hi, hfree⟩, hcur, hmax, -⟩
      cases he with
      | unknownNode hn => exact absurd hi (by have := i.isLt; omega)
      | tooFar hn hfar | duplicateNext j hj hnext hset => omega
      | duplicate j hj hq' hset =>
        have hij : i = j := Fin.ext (hi ▸ hj)
        rw [hij] at hfree
        exact absurd (hfree.symm.trans hset) (by decide)
  | counted i hi hq hmax hfree hcount =>
    constructor
    · intro hall
      exact absurd hall hcount
    · rintro ⟨-, -, -, hcount', -⟩
      exact absurd hcount' hcount
  | released i hi hq hmax hfree hcount =>
    constructor
    · intro hall
      exact ⟨⟨i, hi, hfree⟩, hq, hmax, hcount, getElem_of_count_eq hall⟩
    · rintro ⟨-, -, -, -, hfull⟩
      exact count_eq_of_forall hfull

/-- Over a whole run: the count never rests at `n` exactly when no call completes the current quantum
over a full lookahead set. -/
theorem forall_doneCount_ne_iff (hn : 0 < n) (cap : Nat) (q₀ : UInt64) (cs : List DoneCall) :
    (∀ pre, pre <+: cs → (barrierAfter n cap q₀ pre).doneCount ≠ n) ↔
    ∀ e ∈ barrierRun n cap q₀ cs, ¬ CompletesOverFullLookahead e.before e.input := by
  -- from the end of the run: everything but the last call is the induction hypothesis
  induction cs using reverseRecOn with
  | nil =>
    have hstart : (QuantumBarrier.start n cap q₀).doneCount = 0 := rfl
    constructor
    · intro _ e he
      simp at he
    · intro _ pre hpre
      rw [prefix_nil.mp hpre, barrierAfter, finalState_nil, hstart]
      omega
  | append_singleton cs c ih =>
    rw [barrierRun, entries_concat]
    constructor
    · intro hall e he
      rw [mem_append, mem_singleton] at he
      rcases he with he | rfl
      · exact ih.mp (fun pre hpre => hall pre (hpre.trans (prefix_append cs [c]))) e he
      · have hbefore := hall cs (prefix_append cs [c])
        have hafter := hall (cs ++ [c]) (prefix_refl _)
        rw [barrierAfter, finalState_concat] at hafter
        exact fun hbad => hafter ((doneCount_submitDone_eq_iff hbefore c).mpr hbad)
    · intro hgood pre hpre
      have hcs := ih.mpr fun e he => hgood e (mem_append_left _ he)
      rcases prefix_concat_iff.mp hpre with rfl | hpre
      · have hbefore := hcs cs (prefix_refl _)
        rw [barrierAfter, finalState_concat]
        intro hbad
        exact hgood _ (mem_append_right _ (mem_singleton_self _))
          ((doneCount_submitDone_eq_iff hbefore c).mp hbad)
      · exact hcs pre hpre

/-- **Exactly when the barrier makes progress.** In every run from a fresh barrier, all complete
quanta are answered after every call (equivalently, the count never rests at `n`) if and only if no
call completes the current quantum over a full lookahead set. -/
theorem barrierProgress_iff (hn : 0 < n) (cap : Nat) (q₀ : UInt64) (cs : List DoneCall) :
    (∀ pre, pre <+: cs →
      Progressed n q₀.toNat (barrierRun n cap q₀ pre) ∧ (barrierAfter n cap q₀ pre).doneCount ≠ n) ↔
    ∀ e ∈ barrierRun n cap q₀ cs, ¬ CompletesOverFullLookahead e.before e.input := by
  rw [← forall_doneCount_ne_iff hn cap q₀ cs]
  constructor
  · intro hall pre hpre
    exact (hall pre hpre).2
  · intro hne pre hpre
    exact ⟨(history_entries n cap q₀ pre).progressed_iff.mpr (hne pre hpre), hne pre hpre⟩

/-- The out-of-order sequence of `test_quantum_transition_race` is harmless: node 0 reports quantum 2
early, but node 1 does not. -/
theorem barrierProgress_transitionRace :
    0 < 2 ∧ ∀ pre, pre <+: [⟨1, 1, 1, []⟩, ⟨0, 2, 1, []⟩, ⟨0, 1, 1, []⟩, ⟨1, 2, 2, []⟩] →
      Progressed 2 1 (barrierRun 2 1024 1 pre) ∧ (barrierAfter 2 1024 1 pre).doneCount ≠ 2 :=
  ⟨by decide, (barrierProgress_iff (by decide) 1024 1 _).mpr (by decide)⟩

/-- Two nodes that both report quantum 2 before quantum 1 completes. -/
def fullLookaheadCalls : List DoneCall :=
  [⟨0, 2, 1, []⟩, ⟨1, 2, 1, []⟩, ⟨0, 1, 1, []⟩, ⟨1, 1, 1, []⟩]

/-- Quantum 2 is then reported by both nodes, quantum 1 is released, and quantum 2 is not. -/
theorem not_progressed_fullLookahead : ¬ Progressed 2 1 (barrierRun 2 1024 1 fullLookaheadCalls) ∧
      (barrierAfter 2 1024 1 fullLookaheadCalls).doneCount = 2 := by
  have hcount : (barrierAfter 2 1024 1 fullLookaheadCalls).doneCount = 2 := by decide
  refine ⟨fun hprog => ?_, hcount⟩
  exact (history_entries 2 1024 1 fullLookaheadCalls).progressed_iff.mp hprog hcount

/-! ## A barrier at rest stays at rest -/

/-- Once the count rests at `n` with all flags set, no call moves the quantum or releases a batch:
every further report is stale, turned down, or parked. -/
theorem stuck_of_doneCount_eq (hset : ∀ i : Fin n, b.doneNodes.get i = true) (cs : List DoneCall) :
    released (entries QuantumBarrier.submitDone b cs) = [] ∧
      (finalState QuantumBarrier.submitDone b cs).currentQuantum = b.currentQuantum := by
  induction cs generalizing b with
  | nil => exact ⟨rfl, rfl⟩
  | cons c cs ih =>
    -- both arms that enter a report ask for a clear flag of the current quantum
    have hstep : releasedBatch (b.submitDone c).2 = none ∧
        (b.submitDone c).1.doneNodes = b.doneNodes ∧
        (b.submitDone c).1.currentQuantum = b.currentQuantum := by
      have hcases := QuantumBarrier.submitDone_cases b c
      generalize b.submitDone c = r at hcases
      cases hcases with
      | stale | rejected | ahead => exact ⟨rfl, rfl, rfl⟩
      | counted i hi hq hmax hfree | released i hi hq hmax hfree =>
        exact absurd (hfree.symm.trans (hset i)) (by decide)
    obtain ⟨hrel, hdone, hcur⟩ := hstep
    obtain ⟨ihrel, ihcur⟩ := ih (b := (b.submitDone c).1) (by rw [hdone]; exact hset)
    constructor
    · simpa [released, entryAt, hrel] using ihrel
    · rw [finalState_cons, ihcur, hcur]

/-- The two nodes that have reported ahead are not answered, even if they report everything again. -/
theorem stuck_fullLookahead : released (entries QuantumBarrier.submitDone
    (barrierAfter 2 1024 1 fullLookaheadCalls) fullLookaheadCalls) = [] :=
  (stuck_of_doneCount_eq (by decide) fullLookaheadCalls).1

end Virtmcu.DeterministicCoordinator
