import Virtmcu.ZenohCoordinator.Barrier

/-! # Release under arbitrary lookahead

Nodes may report quanta in any order and arbitrarily far ahead. As long as no more names report than
the barrier waits for, and no name reports a quantum twice, every report counts: none is stale and
none is turned down. What the calls return together is then the sorted batch of every quantum of the
complete prefix, in order, and it depends on the set of reports only. -/

namespace Virtmcu.ZenohCoordinator

open QuantumBarrier List

/-- At most `n` names report, and each reports a quantum at most once. -/
structure Lookahead (n : Nat) (cs : List DoneCall) : Prop where
  names_le : (cs.map DoneCall.nodeId).toFinset.card ≤ n
  quantum_pos : ∀ c ∈ cs, 1 ≤ c.quantum
  nodup : (cs.map fun c => (c.nodeId, c.quantum)).Nodup

instance (n : Nat) (cs : List DoneCall) : Decidable (Lookahead n cs) :=
  decidable_of_iff ((cs.map DoneCall.nodeId).toFinset.card ≤ n ∧ (∀ c ∈ cs, 1 ≤ c.quantum) ∧
      (cs.map fun c => (c.nodeId, c.quantum)).Nodup)
    ⟨fun h => ⟨h.1, h.2.1, h.2.2⟩, fun h => ⟨h.names_le, h.quantum_pos, h.nodup⟩⟩

/-- `Q` is the last quantum such that all quanta up to it are complete. -/
def LastComplete (n : Nat) (cs : List DoneCall) (Q : Nat) : Prop :=
  Settled n cs Q ∧ ∀ q, 1 ≤ q → q ≤ Q → IsComplete n cs q

/-- The sorted messages of quantum `q`: of every report its first `cap` messages. -/
def batch (cap : Nat) (cs : List DoneCall) (q : Nat) : List CoordMessage :=
  sort ((reports cs q).flatMap fun c => sortTruncate cap c.messages)

/-- The messages an answer of `submit_done` hands out. -/
def batchOf : Except BarrierError (Option (List CoordMessage)) → List CoordMessage
  | .ok (some messages) => messages
  | _ => []

/-- Everything a sequence of calls returns, joined together. -/
def returned (n cap : Nat) (cs : List DoneCall) : List CoordMessage :=
  (entries submitDone (QuantumBarrier.new n cap) cs).flatMap fun e => batchOf e.output

theorem returned_concat (n cap : Nat) (cs : List DoneCall) (c : DoneCall) : returned n cap (cs ++ [c]) =
      returned n cap cs ++ batchOf ((barrierAfter n cap cs).submitDone c).2 := by
  rw [returned, entries_concat, flatMap_append, returned]
  simp

/-! ## Reports that all count -/

namespace Lookahead

variable {n : Nat} {cs ds : List DoneCall} {c : DoneCall}

/-- The condition holds of what has been called so far. -/
theorem of_append (h : Lookahead n (cs ++ ds)) : Lookahead n cs where
  names_le := by
    refine le_trans (Finset.card_le_card ?_) h.names_le
    intro name hname
    rw [mem_toFinset] at hname ⊢
    rw [map_append]
    exact mem_append_left _ hname
  quantum_pos c hc := h.quantum_pos c (mem_append_left _ hc)
  nodup := by
    have hnodup := h.nodup
    rw [map_append] at hnodup
    exact hnodup.of_append_left

/-- The condition does not depend on the order of the calls. -/
theorem of_perm (h : Lookahead n cs) (hperm : cs.Perm ds) : Lookahead n ds where
  names_le := by
    rw [← toFinset_eq_of_perm _ _ (hperm.map DoneCall.nodeId)]
    exact h.names_le
  quantum_pos c hc := h.quantum_pos c (hperm.mem_iff.mpr hc)
  nodup := (hperm.map _).nodup_iff.mp h.nodup

/-- A call repeats no report. -/
theorem notMem_reporters (h : Lookahead n (cs ++ [c])) : c.nodeId ∉ reporters cs c.quantum.toNat := by
  intro hmem
  rw [mem_reporters] at hmem
  obtain ⟨d, hd, hq, hname⟩ := hmem
  have hnodup := h.nodup
  rw [map_append, nodup_append'] at hnodup
  have hpair : (d.nodeId, d.quantum) = (c.nodeId, c.quantum) := by
    rw [hname, UInt64.toNat_inj.mp hq]
  exact hnodup.2.2 (mem_map.mpr ⟨d, hd, hpair⟩) (mem_singleton.mpr rfl)

/-- A complete quantum has been reported by every name, so nobody is left to report it. -/
theorem not_isComplete (h : Lookahead n (cs ++ [c])) : ¬ IsComplete n cs c.quantum.toNat := by
  intro hcomplete
  apply h.notMem_reporters
  have hsub : reporters cs c.quantum.toNat ⊆ ((cs ++ [c]).map DoneCall.nodeId).toFinset := by
    intro name hname
    rw [mem_reporters] at hname
    obtain ⟨d, hd, -, rfl⟩ := hname
    exact mem_toFinset.mpr (mem_map.mpr ⟨d, mem_append_left _ hd, rfl⟩)
  have hall := Finset.eq_of_subset_of_card_le hsub (hcomplete.symm ▸ h.names_le)
  rw [hall, mem_toFinset]
  exact mem_map.mpr ⟨c, by simp, rfl⟩

/-- The reports of one quantum carry different names. -/
theorem nodup_reports (h : Lookahead n cs) (q : Nat) : ((reports cs q).map DoneCall.nodeId).Nodup := by
  have hsub : ((reports cs q).map fun c => (c.nodeId, c.quantum)).Nodup :=
    (filter_sublist.map _).nodup h.nodup
  rw [List.Nodup, pairwise_map] at hsub ⊢
  refine hsub.imp_of_mem fun {c d} hc hd hne hname => hne ?_
  rw [reports, mem_filter, decide_eq_true_iff] at hc hd
  rw [hname, UInt64.toNat_inj.mp (hc.2.trans hd.2.symm)]

/-- What the loop hands out for a quantum is its batch. -/
theorem messages_completedAt (h : Lookahead n cs) (cap q : Nat) :
    (completedAt cap cs q).messages = batch cap cs q := by
  rw [completedAt, messages_collect (h.nodup_reports q), batch]

end Lookahead

/-! ## Independence of the order of calls -/

section Perm

variable {n : Nat} {cs ds : List DoneCall}

theorem reports_perm (h : cs.Perm ds) (q : Nat) : (reports cs q).Perm (reports ds q) := h.filter _

theorem isComplete_iff_of_perm (h : cs.Perm ds) (q : Nat) : IsComplete n cs q ↔ IsComplete n ds q := by
  rw [IsComplete, IsComplete, reporters, reporters,
    toFinset_eq_of_perm _ _ ((reports_perm h q).map DoneCall.nodeId)]

/-- A batch depends on its reports, not on their order. -/
theorem batch_eq_of_perm (h : cs.Perm ds) (cap q : Nat) : batch cap cs q = batch cap ds q :=
  sort_eq_of_perm ((reports_perm h q).flatMap_right _)

theorem LastComplete.of_perm {Q : Nat} (h : LastComplete n cs Q) (hperm : cs.Perm ds) :
    LastComplete n ds Q := by
  refine ⟨⟨h.1.1, fun hlt => ?_⟩, fun q hq hq' => ?_⟩
  · rw [← isComplete_iff_of_perm hperm]
    exact h.1.2 hlt
  · rw [← isComplete_iff_of_perm hperm]
    exact h.2 q hq hq'

/-- The complete prefix ends in one place. -/
theorem LastComplete.unique {Q Q' : Nat} (h : LastComplete n cs Q) (h' : LastComplete n cs Q') :
    Q = Q' := by
  rcases Nat.lt_trichotomy Q Q' with hlt | heq | hlt
  · have hbound := h'.1.1
    exact absurd (h'.2 (Q + 1) (by omega) (by omega)) (h.1.2 (by omega))
  · exact heq
  · have hbound := h.1.1
    exact absurd (h.2 (Q' + 1) (by omega) (by omega)) (h'.1.2 (by omega))

end Perm

/-! ## The run -/

section Run

variable {n cap : Nat} {cs : List DoneCall}

/-- What holds after the calls `cs`, the quanta up to `Q` being released. -/
structure Released (n cap : Nat) (cs : List DoneCall) (Q : Nat) : Prop where
  history : History n cap cs (barrierAfter n cap cs) Q
  complete : ∀ q, 1 ≤ q → q ≤ Q → IsComplete n cs q
  returned_eq : returned n cap cs = (List.range' 1 Q).flatMap (batch cap cs)

theorem Released.lastComplete {Q : Nat} (h : Released n cap cs Q) : LastComplete n cs Q :=
  ⟨h.history.settled, h.complete⟩

/-- Joining the completed quanta gives `None` or the batches one after the other. -/
theorem answer_map_completedAt (h : Lookahead n cs) {Q Q' : Nat} (hle : Q ≤ Q') :
    answer ((List.range' (Q + 1) (Q' - Q)).map (completedAt cap cs)) =
      if Q' = Q then none else some ((List.range' (Q + 1) (Q' - Q)).flatMap (batch cap cs)) := by
  by_cases heq : Q' = Q
  · simp [answer, heq]
  · have hne : (List.range' (Q + 1) (Q' - Q)).map (completedAt cap cs) ≠ [] := by
      rw [Ne, map_eq_nil_iff, List.range'_eq_nil_iff]
      omega
    rw [answer, if_neg hne, if_neg heq, flatMap_map]
    congr 2
    funext q
    exact h.messages_completedAt cap q

/-- **One call**: it is accepted, and it releases what it completes. -/
theorem released_step (hn : 0 < n) {Q : Nat} (h : Released n cap cs Q) {c : DoneCall}
    (hlook : Lookahead n (cs ++ [c])) :
    ∃ Q', Released n cap (cs ++ [c]) Q' ∧ ((barrierAfter n cap cs).submitDone c).2 =
      .ok (if Q' = Q then none
        else some ((List.range' (Q + 1) (Q' - Q)).flatMap (batch cap (cs ++ [c])))) := by
  have hpos : 1 ≤ c.quantum.toNat :=
    UInt64.le_iff_toNat_le.mp (hlook.quantum_pos c (by simp))
  -- a report for a released quantum would come from a name too many
  have hlater : Q < c.quantum.toNat := by
    by_contra hle
    exact hlook.not_isComplete (h.complete _ hpos (by omega))
  have hbound := c.quantum.toNat_lt
  obtain ⟨Q', hstep⟩ := history_step hn h.history (by omega) c
  have hle := hstep.le
  have houtput : ((barrierAfter n cap cs).submitDone c).2 = .ok (if Q' = Q then none
      else some ((List.range' (Q + 1) (Q' - Q)).flatMap (batch cap (cs ++ [c])))) := by
    rw [submitDone, hstep.isOk hlook.notMem_reporters, hstep.completed_eq]
    exact congrArg Except.ok (answer_map_completedAt hlook hle)
  refine ⟨Q', ⟨?_, ?_, ?_⟩, houtput⟩
  · rw [barrierAfter, finalState_concat]
    exact hstep.history
  · intro q hq hq'
    rcases Nat.lt_or_ge Q q with hnew | hold
    · exact hstep.complete q hnew hq'
    · rw [IsComplete, reporters_concat_of_ne (by omega)]
      exact h.complete q hq hold
  · have hsame : ∀ q ∈ List.range' 1 Q, batch cap cs q = batch cap (cs ++ [c]) q := by
      intro q hq
      rw [mem_range'_1] at hq
      rw [batch, batch, reports_concat_of_ne (by omega)]
    have hsplit : List.range' 1 Q' = List.range' 1 Q ++ List.range' (Q + 1) (Q' - Q) := by
      have happ := @List.range'_append_1 1 Q (Q' - Q)
      rw [Nat.add_comm 1 Q, Nat.add_sub_cancel' hle] at happ
      exact happ.symm
    rw [returned_concat, h.returned_eq, houtput, hsplit, flatMap_append, flatMap_congr hsame]
    congr 1
    split
    · next heq => simp [batchOf, heq]
    · rfl

/-- Every sequence of calls that all count has released exactly its complete prefix. -/
theorem exists_released (hn : 0 < n) (cap : Nat) (h : Lookahead n cs) : ∃ Q, Released n cap cs Q := by
  induction cs using reverseRecOn with
  | nil => exact ⟨0, history_new hn cap, by omega, rfl⟩
  | append_singleton cs c ih =>
    obtain ⟨Q, hQ⟩ := ih h.of_append
    obtain ⟨Q', hQ', -⟩ := released_step hn hQ h
    exact ⟨Q', hQ'⟩

end Run

/-- **Release under arbitrary lookahead.** Whatever the order of the calls, they return together the
batches of the complete prefix in order of quanta. Another order of the same calls returns the same.
The call that completes a prefix returns it, all of it and nothing else. No entry of a quantum below
the current one remains. -/
theorem release_of_lookahead (n cap : Nat) (hn : 1 ≤ n) (cs : List DoneCall) (h : Lookahead n cs) :
    ∃ Q, LastComplete n cs Q ∧ returned n cap cs = (List.range' 1 Q).flatMap (batch cap cs) ∧
      (∀ ds, ds.Perm cs → returned n cap ds = returned n cap cs) ∧
      (∀ pre c post, cs = pre ++ c :: post → ∃ Q₀ Q₁,
        LastComplete n pre Q₀ ∧ LastComplete n (pre ++ [c]) Q₁ ∧
        ((barrierAfter n cap pre).submitDone c).2 = .ok (if Q₁ = Q₀ then none
          else some ((List.range' (Q₀ + 1) (Q₁ - Q₀)).flatMap (batch cap (pre ++ [c]))))) ∧
      (barrierAfter n cap cs).currentQuantum = UInt64.ofNat (Q + 1) ∧
      ∀ q < (barrierAfter n cap cs).currentQuantum, (barrierAfter n cap cs).quanta.get q = none := by
  obtain ⟨Q, hQ⟩ := exists_released hn cap h
  refine ⟨Q, hQ.lastComplete, hQ.returned_eq, ?_, ?_, hQ.history.current_eq, ?_⟩
  · intro ds hperm
    obtain ⟨Q', hQ'⟩ := exists_released hn cap (h.of_perm hperm.symm)
    have heq : Q' = Q := (hQ'.lastComplete.of_perm hperm).unique hQ.lastComplete
    rw [hQ'.returned_eq, hQ.returned_eq, heq]
    congr 1
    funext q
    exact batch_eq_of_perm hperm cap q
  · rintro pre c post rfl
    have hcall : Lookahead n (pre ++ [c]) := by
      rw [List.append_cons] at h
      exact h.of_append
    obtain ⟨Q₀, hQ₀⟩ := exists_released hn cap hcall.of_append
    obtain ⟨Q₁, hQ₁, houtput⟩ := released_step hn hQ₀ hcall
    exact ⟨Q₀, Q₁, hQ₀.lastComplete, hQ₁.lastComplete, houtput⟩
  · intro q hq
    apply hQ.history.holds.gone
    rw [hQ.history.current_eq, UInt64.lt_iff_toNat_lt] at hq
    have hmod : (UInt64.ofNat (Q + 1)).toNat ≤ Q + 1 := by
      rw [UInt64.toNat_ofNat']
      exact Nat.mod_le _ _
    omega

/-- A message from `src` with sequence number `seq`. -/
def uartMessage (src : String) (seq : UInt64) : CoordMessage :=
  ⟨src, "0", "virtmcu/uart", 10, seq, .uart, []⟩

/-- Two nodes report quantum 2 before quantum 1; the last call completes both. -/
def aheadCalls : List DoneCall :=
  [⟨"0", 2, 1, [uartMessage "0" 4]⟩, ⟨"1", 2, 1, [uartMessage "1" 3]⟩,
    ⟨"1", 1, 1, [uartMessage "1" 2, uartMessage "1" 1]⟩, ⟨"0", 1, 1, [uartMessage "0" 0]⟩]

theorem release_of_lookahead_ahead : Lookahead 2 aheadCalls ∧ ∃ Q, LastComplete 2 aheadCalls Q ∧
      returned 2 1 aheadCalls = (List.range' 1 Q).flatMap (batch 1 aheadCalls) ∧ returned 2 1 aheadCalls =
        [uartMessage "0" 0, uartMessage "1" 1, uartMessage "0" 4, uartMessage "1" 3] := by
  have hlook : Lookahead 2 aheadCalls := by decide +kernel
  obtain ⟨Q, hlast, hreturned, -⟩ := release_of_lookahead 2 1 (by decide) aheadCalls hlook
  exact ⟨hlook, Q, hlast, hreturned, by decide +kernel⟩

end Virtmcu.ZenohCoordinator
