import Virtmcu.DeterministicCoordinator.Barrier
import Mathlib.Data.List.Range

/-! # The barrier as a function of its accepted reports

What the barrier holds at any moment is determined by the reports it has accepted so far: the flags
say which nodes reported the current and the next quantum, the buffers hold the kept messages of those
reports in order of acceptance, and every earlier quantum has been answered exactly once with the
sorted collection of its reports. `History` states this of a run and its last state, and
`history_entries` proves it for every sequence of calls whatever their order, their node ids and their
quanta. -/

namespace Virtmcu.DeterministicCoordinator

variable {n : Nat}

/-- The record of one `submit_done` call. -/
abbrev BarrierEntry (n : Nat) := Entry (QuantumBarrier n) DoneCall SubmitResult

/-- The record of a sequence of calls on a fresh barrier. -/
abbrev barrierRun (n cap : Nat) (q₀ : UInt64) (cs : List DoneCall) : List (BarrierEntry n) :=
  entries QuantumBarrier.submitDone (QuantumBarrier.start n cap q₀) cs

/-- The barrier a sequence of calls on a fresh barrier leads to. -/
abbrev barrierAfter (n cap : Nat) (q₀ : UInt64) (cs : List DoneCall) : QuantumBarrier n :=
  finalState QuantumBarrier.submitDone (QuantumBarrier.start n cap q₀) cs

/-- The report was neither stale nor turned down. -/
def IsAccepted (e : BarrierEntry n) : Bool :=
  decide (e.before.currentQuantum.toNat ≤ e.input.quantum.toNat) && e.output.isOk

/-- The accepted reports of a run, oldest first. -/
def accepted (es : List (BarrierEntry n)) : List DoneCall := (es.filter IsAccepted).map Entry.input

/-- The batch an answer releases, if any. -/
def releasedBatch : SubmitResult → Option (List CoordMessage)
  | .ok answer => answer
  | .error _ => none

/-- The released quanta with their batches, oldest first. The quantum is the one the completing
report named. -/
def released (es : List (BarrierEntry n)) : List (Nat × List CoordMessage) :=
  es.filterMap fun e => (releasedBatch e.output).map fun batch => (e.input.quantum.toNat, batch)

/-- The kept messages of the reports for quantum `q`, in order of acceptance. -/
def collected (cap : Nat) (cs : List DoneCall) (q : Nat) : List CoordMessage :=
  (cs.filter fun c => c.quantum.toNat = q).flatMap fun c => sortTruncate cap c.messages

/-- Node `i` has reported quantum `q`. -/
def Reported (cs : List DoneCall) (i q : Nat) : Prop :=
  ∃ c ∈ cs, c.nodeId.toNat = i ∧ c.quantum.toNat = q

/-- What holds between the calls made so far and the state they lead to. -/
structure History (n cap q₀ : Nat) (es : List (BarrierEntry n)) (b : QuantumBarrier n) : Prop where
  cap_eq : b.maxMessagesPerNode = cap
  start_le : q₀ ≤ b.currentQuantum.toNat
  doneCount_eq : b.doneCount = b.doneNodes.count true
  done_iff : ∀ i : Fin n, b.doneNodes[i] = true ↔ Reported (accepted es) i b.currentQuantum.toNat
  next_iff : ∀ i : Fin n,
    b.nextQuantumDoneNodes[i] = true ↔ Reported (accepted es) i (b.currentQuantum.toNat + 1)
  buffer_eq : b.messageBuffer = collected cap (accepted es) b.currentQuantum.toNat
  next_eq : b.nextQuantumBuffer = collected cap (accepted es) (b.currentQuantum.toNat + 1)
  /-- Accepted reports come from known nodes and lie inside the lookahead window. -/
  accepted_bounds : ∀ c ∈ accepted es, c.nodeId.toNat < n ∧ q₀ ≤ c.quantum.toNat ∧
    c.quantum.toNat ≤ b.currentQuantum.toNat + 1
  /-- No node is counted twice for one quantum. -/
  accepted_nodup : ((accepted es).map fun c => (c.nodeId.toNat, c.quantum.toNat)).Nodup
  /-- A quantum is left behind only when every node has reported it. -/
  complete : ∀ q, q₀ ≤ q → q < b.currentQuantum.toNat → ∀ i : Fin n, Reported (accepted es) i q
  released_eq : released es = (List.range' q₀ (b.currentQuantum.toNat - q₀)).map fun q =>
    (q, sort (collected cap (accepted es) q))

/-! ## Flag vectors -/

variable {v : Vector Bool n} {i : Fin n}

/-- Setting a clear flag adds one to the number of set flags. -/
theorem count_set_true (h : v.get i = false) : (v.set i true i.isLt).count true = v.count true + 1 := by
  have h' : v[i.val] = false := h
  rw [Vector.count_set]
  simp [h']

/-- `n` set flags are all the flags. -/
theorem getElem_of_count_eq (h : v.count true = n) (i : Fin n) :
    v[i] = true :=
  (Vector.count_eq_size.mp h _ (Vector.getElem_mem i.isLt)).symm

theorem count_eq_of_forall (h : ∀ i : Fin n, v.get i = true) : v.count true = n := by
  refine Vector.count_eq_size.mpr fun flag hflag => ?_
  obtain ⟨i, hi, rfl⟩ := Vector.mem_iff_getElem.mp hflag
  exact (h ⟨i, hi⟩).symm

/-- Not all flags are set while one of them is clear. -/
theorem count_lt_of_clear (h : v.get i = false) : v.count true < n := by
  refine lt_of_le_of_ne Vector.count_le_size fun hn => ?_
  exact absurd (h.symm.trans (getElem_of_count_eq hn i)) (by decide)

theorem get_set_true (i j : Fin n) : (v.set i true i.isLt).get j = true ↔ v.get j = true ∨ j = i := by
  show (v.set i true)[j.val] = true ↔ v[j.val] = true ∨ j = i
  simp only [Vector.getElem_set, Fin.ext_iff]
  by_cases h : i.val = j.val
  · simp [h]
  · simp [h, Ne.symm h]

/-! ## Appending one call to the record -/

section Concat

variable (es : List (BarrierEntry n)) (e : BarrierEntry n)

theorem accepted_concat : accepted (es ++ [e]) = accepted es ++ if IsAccepted e then [e.input] else [] := by
  simp only [accepted, List.filter_append, List.map_append]
  cases h : IsAccepted e <;> simp [h]

theorem released_concat : released (es ++ [e]) = released es ++
    ((releasedBatch e.output).map fun batch => (e.input.quantum.toNat, batch)).toList := by
  simp only [released, List.filterMap_append]
  cases h : releasedBatch e.output <;> simp [h]

end Concat

theorem collected_concat (cap : Nat) (cs : List DoneCall) (c : DoneCall) (q : Nat) :
    collected cap (cs ++ [c]) q = collected cap cs q ++
      if c.quantum.toNat = q then sortTruncate cap c.messages else [] := by
  simp only [collected, List.filter_append, List.flatMap_append]
  by_cases h : c.quantum.toNat = q <;> simp [h]

variable {cs : List DoneCall}

/-- Nothing is collected for a quantum nobody reported. -/
theorem collected_eq_nil {cap q : Nat} (h : ∀ c ∈ cs, c.quantum.toNat ≠ q) : collected cap cs q = [] := by
  rw [collected, List.filter_eq_nil_iff.mpr (by simpa using h), List.flatMap_nil]

theorem reported_concat (cs : List DoneCall) (c : DoneCall) (i q : Nat) :
    Reported (cs ++ [c]) i q ↔ Reported cs i q ∨ (c.nodeId.toNat = i ∧ c.quantum.toNat = q) := by
  simp [Reported, or_and_right, exists_or]

theorem Reported.concat {i q : Nat} (h : Reported cs i q) (c : DoneCall) :
    Reported (cs ++ [c]) i q := (reported_concat cs c i q).mpr (.inl h)

variable {c : DoneCall}

/-- A report that is not among the accepted ones can be appended without repetition. -/
theorem nodup_concat_of_not_reported (hcs : (cs.map fun c => (c.nodeId.toNat, c.quantum.toNat)).Nodup)
    (h : ¬ Reported cs c.nodeId.toNat c.quantum.toNat) :
    ((cs ++ [c]).map fun c => (c.nodeId.toNat, c.quantum.toNat)).Nodup := by
  rw [List.map_append, List.map_singleton, ← List.concat_eq_append]
  refine List.Nodup.concat ?_ hcs
  rw [List.mem_map]
  rintro ⟨d, hd, hdc⟩
  exact h ⟨d, hd, (Prod.mk.inj hdc).1, (Prod.mk.inj hdc).2⟩

/-! ## The step lemma, one outcome at a time -/

namespace History

variable {cap q₀ : Nat} {es : List (BarrierEntry n)} {b : QuantumBarrier n}

/-- A call that was not accepted and released nothing leaves the history as it was. -/
theorem skip (h : History n cap q₀ es b) (e : BarrierEntry n) (hacc : IsAccepted e = false)
    (hrel : releasedBatch e.output = none) : History n cap q₀ (es ++ [e]) b := by
  have hacc' : accepted (es ++ [e]) = accepted es := by simp [accepted_concat, hacc]
  have hrel' : released (es ++ [e]) = released es := by simp [released_concat, hrel]
  exact { h with
    done_iff := hacc' ▸ h.done_iff
    next_iff := hacc' ▸ h.next_iff
    buffer_eq := hacc' ▸ h.buffer_eq
    next_eq := hacc' ▸ h.next_eq
    accepted_bounds := hacc' ▸ h.accepted_bounds
    accepted_nodup := hacc' ▸ h.accepted_nodup
    complete := hacc' ▸ h.complete
    released_eq := by rw [hrel', hacc']; exact h.released_eq }

/-- The answers given so far do not change when a report for an unfinished quantum is accepted. -/
theorem released_congr (h : History n cap q₀ es b) (hq : b.currentQuantum.toNat ≤ c.quantum.toNat) :
    released es = (List.range' q₀ (b.currentQuantum.toNat - q₀)).map fun q =>
      (q, sort (collected cap (accepted es ++ [c]) q)) := by
  rw [h.released_eq]
  refine List.map_congr_left fun q hmem => ?_
  have hlt := h.start_le
  rw [List.mem_range'_1] at hmem
  have hne : c.quantum.toNat ≠ q := by omega
  rw [collected_concat, if_neg hne, List.append_nil]

/-- A parked report. -/
theorem noteNext (h : History n cap q₀ es b) {e : BarrierEntry n}
    (hacc : accepted (es ++ [e]) = accepted es ++ [c]) (hrel : released (es ++ [e]) = released es)
    (hi : c.nodeId.toNat = i) (hq : c.quantum.toNat = b.currentQuantum.toNat + 1)
    (hfree : b.nextQuantumDoneNodes.get i = false) :
    History n cap q₀ (es ++ [e]) (b.noteNext i c.messages) := by
  have hne : c.quantum.toNat ≠ b.currentQuantum.toNat := by omega
  have hij : ∀ j : Fin n, c.nodeId.toNat = j.val ↔ j = i := fun j => by
    rw [hi, Fin.ext_iff, eq_comm]
  -- the lookahead flag is clear, so this is the first report of the node for that quantum
  have hnew : ¬ Reported (accepted es) c.nodeId.toNat c.quantum.toNat := by
    rw [hi, hq, ← h.next_iff]
    exact ne_true_of_eq_false hfree
  refine ⟨h.cap_eq, h.start_le, h.doneCount_eq, fun j => ?_, fun j => ?_, ?_, ?_, fun d hd => ?_,
    ?_, fun q hq₀ hlt j => ?_, ?_⟩
  · rw [hacc, reported_concat, QuantumBarrier.noteNext_currentQuantum]
    simpa [hne] using h.done_iff j
  · rw [hacc, reported_concat, QuantumBarrier.noteNext_currentQuantum,
      QuantumBarrier.noteNext_nextQuantumDoneNodes]
    refine ((get_set_true i j).trans (or_congr_left (h.next_iff j))).trans ?_
    simp [hij, hq]
  · rw [hacc, collected_concat]
    simpa [hne] using h.buffer_eq
  · rw [hacc, collected_concat]
    simp [hq, h.next_eq, h.cap_eq]
  · rw [hacc, List.mem_append, List.mem_singleton] at hd
    rcases hd with hd | rfl
    · exact h.accepted_bounds d hd
    · exact ⟨hi ▸ i.isLt, by have := h.start_le; omega, hq.le⟩
  · rw [hacc]
    exact nodup_concat_of_not_reported h.accepted_nodup hnew
  · rw [hacc]
    exact (h.complete q hq₀ hlt j).concat c
  · rw [hrel, hacc]
    exact h.released_congr (by omega)

/-- A report for the current quantum is entered, before the completion test. Only `doneCount` and the
current flags and buffer move. -/
theorem noteDone (h : History n cap q₀ es b) {e : BarrierEntry n}
    (hacc : accepted (es ++ [e]) = accepted es ++ [c]) (hrel : released (es ++ [e]) = released es)
    (hi : c.nodeId.toNat = i) (hq : c.quantum.toNat = b.currentQuantum.toNat)
    (hfree : b.doneNodes.get i = false) : History n cap q₀ (es ++ [e]) (b.noteDone i c.messages) := by
  have hne : c.quantum.toNat ≠ b.currentQuantum.toNat + 1 := by omega
  have hij : ∀ j : Fin n, c.nodeId.toNat = j.val ↔ j = i := fun j => by
    rw [hi, Fin.ext_iff, eq_comm]
  have hnew : ¬ Reported (accepted es) c.nodeId.toNat c.quantum.toNat := by
    rw [hi, hq, ← h.done_iff]
    exact ne_true_of_eq_false hfree
  refine ⟨h.cap_eq, h.start_le, ?_, fun j => ?_, fun j => ?_, ?_, ?_, fun d hd => ?_, ?_,
    fun q hq₀ hlt j => ?_, ?_⟩
  · rw [QuantumBarrier.noteDone_doneCount, QuantumBarrier.noteDone_doneNodes, count_set_true hfree,
      h.doneCount_eq]
  · rw [hacc, reported_concat, QuantumBarrier.noteDone_currentQuantum, QuantumBarrier.noteDone_doneNodes]
    refine ((get_set_true i j).trans (or_congr_left (h.done_iff j))).trans ?_
    simp [hij, hq]
  · rw [hacc, reported_concat, QuantumBarrier.noteDone_currentQuantum]
    simpa [hne] using h.next_iff j
  · rw [hacc, collected_concat]
    simp [hq, h.buffer_eq, h.cap_eq]
  · rw [hacc, collected_concat]
    simpa [hne] using h.next_eq
  · rw [hacc, List.mem_append, List.mem_singleton] at hd
    rcases hd with hd | rfl
    · exact h.accepted_bounds d hd
    · exact ⟨hi ▸ i.isLt, hq ▸ h.start_le, by simp [hq]⟩
  · rw [hacc]
    exact nodup_concat_of_not_reported h.accepted_nodup hnew
  · rw [hacc]
    exact (h.complete q hq₀ hlt j).concat c
  · rw [hrel, hacc]
    exact h.released_congr hq.ge

/-- Promotion when every node is done. `es` is the record that ends in the completing report without
its answer, `es'` the record with the answer: same acceptances, one more released batch. -/
theorem promote {es' : List (BarrierEntry n)} (h : History n cap q₀ es b)
    (hacc : accepted es' = accepted es)
    (hrel : released es' = released es ++ [(b.currentQuantum.toNat, sort b.messageBuffer)])
    (hmax : b.currentQuantum.toNat + 1 < 2 ^ 64) (hall : b.doneCount = n) :
    History n cap q₀ es' b.promote := by
  have hcur : b.promote.currentQuantum.toNat = b.currentQuantum.toNat + 1 := by
    rw [QuantumBarrier.promote_currentQuantum, UInt64.toNat_add]
    exact Nat.mod_eq_of_lt hmax
  have hdone : ∀ i : Fin n, b.doneNodes[i] = true :=
    getElem_of_count_eq (h.doneCount_eq ▸ hall)
  -- nobody is two quanta ahead, so the fresh lookahead fields are the right ones
  have hfar : ∀ c ∈ accepted es, c.quantum.toNat ≠ b.currentQuantum.toNat + 1 + 1 := by
    intro c hc
    have := (h.accepted_bounds c hc).2.2
    omega
  refine ⟨h.cap_eq, ?_, rfl, fun i => ?_, fun i => ?_, ?_, ?_, fun c hc => ?_, ?_,
    fun q hq₀ hlt i => ?_, ?_⟩
  · have := h.start_le
    omega
  · rw [hcur, hacc]
    exact h.next_iff i
  · rw [hcur, hacc]
    constructor
    · intro hset
      simp at hset
    · rintro ⟨c, hc, -, hq⟩
      exact absurd hq (hfar c hc)
  · rw [hcur, hacc]
    exact h.next_eq
  · rw [hcur, hacc]
    exact (collected_eq_nil hfar).symm
  · rw [hacc] at hc
    obtain ⟨hn, hle, hwin⟩ := h.accepted_bounds c hc
    exact ⟨hn, hle, by omega⟩
  · rw [hacc]
    exact h.accepted_nodup
  · rw [hacc]
    rw [hcur] at hlt
    by_cases hq : q = b.currentQuantum.toNat
    · rw [hq]
      exact (h.done_iff i).mp (hdone i)
    · exact h.complete q hq₀ (by omega) i
  · have hstart := h.start_le
    have hlen : b.currentQuantum.toNat + 1 - q₀ = (b.currentQuantum.toNat - q₀) + 1 := by omega
    have hlast : q₀ + 1 * (b.currentQuantum.toNat - q₀) = b.currentQuantum.toNat := by omega
    rw [hrel, hacc, hcur, hlen, List.range'_concat, List.map_append, h.released_eq, hlast, h.buffer_eq]
    rfl

end History

/-! ## Every run -/

/-- The history of a fresh barrier. -/
theorem history_start (n cap : Nat) (q₀ : UInt64) :
    History n cap q₀.toNat [] (QuantumBarrier.start n cap q₀) := by
  refine ⟨rfl, le_rfl, ?_, fun i => ?_, fun i => ?_, rfl, rfl, ?_, List.nodup_nil, fun q hq hlt => ?_, ?_⟩
  · simp [QuantumBarrier.start, Vector.count_replicate]
  · simp [QuantumBarrier.start, accepted, Reported]
  · simp [QuantumBarrier.start, accepted, Reported]
  · simp [accepted]
  · exact absurd hlt (not_lt.mpr hq)
  · simp [released, QuantumBarrier.start]

/-- **One call keeps the history**, whatever it is. -/
theorem history_step {cap q₀ : Nat} {es : List (BarrierEntry n)} {b : QuantumBarrier n}
    (h : History n cap q₀ es b) (c : DoneCall) :
    History n cap q₀ (es ++ [entryAt QuantumBarrier.submitDone b c]) (QuantumBarrier.submitDone b c).1 := by
  have hcases := QuantumBarrier.submitDone_cases b c
  unfold entryAt
  generalize QuantumBarrier.submitDone b c = r at hcases
  cases hcases with
  | stale hq =>
    exact h.skip _ (by simp [IsAccepted, Except.isOk, Except.toBool, hq]) rfl
  | rejected e hq he =>
    exact h.skip _ (by simp [IsAccepted, Except.isOk, Except.toBool]) rfl
  | ahead i hi hq hfree =>
    have hacc : IsAccepted ⟨b, c, .ok none, b.noteNext i c.messages⟩ = true := by
      simp [IsAccepted, Except.isOk, Except.toBool, hq]
    refine h.noteNext ?_ ?_ hi hq hfree
    · rw [accepted_concat, if_pos hacc]
    · simp [released_concat, releasedBatch]
  | counted i hi hq hmax hfree hcount =>
    have hacc : IsAccepted ⟨b, c, .ok none, b.noteDone i c.messages⟩ = true := by
      simp [IsAccepted, Except.isOk, Except.toBool, hq]
    refine h.noteDone ?_ ?_ hi hq hfree
    · rw [accepted_concat, if_pos hacc]
    · simp [released_concat, releasedBatch]
  | released i hi hq hmax hfree hcount =>
    -- the same report as if it had been answered `None`, and then the promotion
    have hacc : ∀ a, IsAccepted ⟨b, c, .ok a, (b.noteDone i c.messages).promote⟩ = true := by
      intro a
      simp [IsAccepted, Except.isOk, Except.toBool, hq]
    have hnote : History n cap q₀
        (es ++ [⟨b, c, .ok none, (b.noteDone i c.messages).promote⟩]) (b.noteDone i c.messages) := by
      refine h.noteDone ?_ ?_ hi hq hfree
      · rw [accepted_concat, if_pos (hacc none)]
      · simp [released_concat, releasedBatch]
    refine hnote.promote ?_ ?_ hmax hcount
    · rw [accepted_concat, accepted_concat, if_pos (hacc _), if_pos (hacc _)]
    · simp [released_concat, releasedBatch, hq]

/-- **The barrier is determined by its accepted reports**, in every state of every run. -/
theorem history_entries (n cap : Nat) (q₀ : UInt64) (cs : List DoneCall) :
    History n cap q₀.toNat (barrierRun n cap q₀ cs) (barrierAfter n cap q₀ cs) :=
  entries_invariant _ (history_start n cap q₀) (fun _ _ c h => history_step h c) cs

end Virtmcu.DeterministicCoordinator
