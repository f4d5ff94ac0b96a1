import Virtmcu.DeterministicCoordinator.EventLoop

/-! # START messages

Whatever samples arrive, in whatever order and with whatever contents, the START messages to every node
count up from 2 without gaps, and each one comes after the reports and the deliveries of the quantum
before it. The loop keeps its own copy of the current quantum; it never differs from the
barrier's. -/

namespace Virtmcu.DeterministicCoordinator

open List

/-- The value of an effect that is a START to node `i`. -/
def startValue (i : Nat) : Effect → Option Nat
  | .put topic payload =>
      if topic = Templates.clockStart (toString i) then some (leNat payload) else none
  | _ => none

/-- The START values put to node `i`, in order. -/
def startValues (i : Nat) (effects : List Effect) : List Nat := effects.filterMap (startValue i)

/-! ## START values of parts of a turn -/

section

variable {i : Nat}

theorem startValues_append (es es' : List Effect) :
    startValues i (es ++ es') = startValues i es ++ startValues i es' :=
  filterMap_append

theorem startValues_singleton (e : Effect) : startValues i [e] = (startValue i e).toList := by
  cases h : startValue i e <;> simp [startValues, h]

/-- Data is not START. -/
theorem startValues_eq_nil {es : List Effect}
    (h : ∀ topic payload, Effect.put topic payload ∈ es → IsRxTopic topic) : startValues i es = [] := by
  rw [startValues, filterMap_eq_nil_iff]
  intro effect heffect
  cases effect with
  | put topic payload => exact if_neg ((h topic payload heffect).ne_clockStart i)
  | pcap record | flush => rfl

theorem startValues_deliverBatch (builder : Rf802154HeaderBuilder) (logging : Bool)
    (g : TopologyGraph) (seenNodes : List UInt32) (msgs : List CoordMessage) :
    startValues i (deliverBatch builder logging g seenNodes msgs) = [] := by
  apply startValues_eq_nil
  intro topic payload h
  rw [deliverBatch_eq, mem_flatMap] at h
  obtain ⟨d, -, hput⟩ := h
  exact isRxTopic_of_mem_deliverTo hput

/-- Every node is sent one START. -/
theorem startValues_startEffects {nodes : Nat} (hi : i < nodes) (q : UInt64) :
    startValues i (startEffects nodes q) = [q.toNat] := by
  have hval : leNat (leBytes 8 q.toNat) = q.toNat := leNat_leBytes_of_lt q.toNat_lt
  have htopic : ∀ j, (Templates.clockStart (toString j) = Templates.clockStart (toString i)) ↔ j = i :=
    fun j => ⟨clockStart_injective, fun h => h ▸ rfl⟩
  unfold startValues startEffects
  rw [filterMap_map]
  simp only [Function.comp_def, startValue, htopic, hval]
  -- the put to `i` is the only one on its topic: by induction on the number of nodes
  induction nodes with
  | zero => exact absurd hi (Nat.not_lt_zero i)
  | succ nodes ih =>
    rw [range_succ, filterMap_append]
    by_cases heq : i = nodes
    · subst heq
      have hnone : (List.range i).filterMap (fun j => if j = i then some q.toNat else none) = [] := by
        rw [filterMap_eq_nil_iff]
        intro j hj
        exact if_neg (Nat.ne_of_lt (mem_range.mp hj))
      simp [hnone]
    · rw [ih (by omega)]
      simp [Ne.symm heq]

end

/-! ## The two quantum counters -/

variable {batch : List CoordMessage}

section

variable {n : Nat} {b : QuantumBarrier n} {c : DoneCall}

/-- A release: the report named the current quantum, and the quantum advances without wrapping. -/
theorem submitDone_of_release (h : releasedBatch (b.submitDone c).2 = some batch) :
    c.quantum.toNat = b.currentQuantum.toNat ∧ (b.submitDone c).1.currentQuantum = b.currentQuantum + 1 ∧
      (b.currentQuantum + 1).toNat = b.currentQuantum.toNat + 1 := by
  have hcases := b.submitDone_cases c
  generalize b.submitDone c = r at hcases h
  cases hcases with
  | stale | rejected | ahead | counted => simp [releasedBatch] at h
  | released i hi hq hmax hfree hcount =>
    refine ⟨hq, rfl, ?_⟩
    rw [UInt64.toNat_add]
    exact Nat.mod_eq_of_lt hmax

theorem submitDone_of_no_release (h : releasedBatch (b.submitDone c).2 = none) :
    (b.submitDone c).1.currentQuantum = b.currentQuantum := by
  have hcases := b.submitDone_cases c
  generalize b.submitDone c = r at hcases h
  cases hcases with
  | stale | rejected | ahead | counted => rfl
  | released => simp [releasedBatch] at h

end

section

variable {args : Args} {env : Externals} {topo : TopologyGraph} {s : LoopState args.nodes} {x : Sample}

/-- The barrier after a turn that releases a batch. -/
theorem loopStep_barrier_of_release (h : releaseOf args env s x = some batch) :
    (loopStep args env s x).1.barrier.currentQuantum = s.barrier.currentQuantum + 1 ∧
      (s.barrier.currentQuantum + 1).toNat = s.barrier.currentQuantum.toNat + 1 := by
  obtain ⟨c, hc, hbatch⟩ := Option.bind_eq_some_iff.mp h
  have hsub := submitDone_of_release hbatch
  rw [loopStep_barrier, hc]
  exact hsub.2

theorem loopStep_barrier_of_no_release (h : releaseOf args env s x = none) :
    (loopStep args env s x).1.barrier.currentQuantum = s.barrier.currentQuantum := by
  rw [loopStep_barrier]
  unfold releaseOf at h
  cases hc : callOf args env s x with
  | none => rfl
  | some c =>
    rw [hc] at h
    exact submitDone_of_no_release h

/-- **The loop and the barrier agree on the current quantum** between samples. -/
theorem loopAfter_currentQuantum (samples : List Sample) :
    (loopAfter args env topo samples).currentQuantum =
      (loopAfter args env topo samples).barrier.currentQuantum := by
  refine finalState_invariant (P := fun s : LoopState args.nodes =>
    s.currentQuantum = s.barrier.currentQuantum) _
    (fun s x hs => ?_) rfl samples
  cases h : releaseOf args env s x with
  | none => rw [(loopStep_of_no_release h).1, loopStep_barrier_of_no_release h, hs]
  | some batch => rw [(loopStep_of_release h).1, (loopStep_barrier_of_release h).1, hs]

/-- The START values of a turn that releases a batch. -/
theorem startValues_of_release (h : releaseOf args env s x = some batch) {i : Nat} (hi : i < args.nodes) :
    startValues i (loopStep args env s x).2 = [(s.currentQuantum + 1).toNat] := by
  obtain ⟨-, heffects⟩ := loopStep_of_release h
  have hflush : startValues i (if args.pcapLog then [Effect.flush] else []) = [] := by
    apply startValues_eq_nil
    intro topic payload hput
    split at hput <;> simp at hput
  rw [heffects, startValues_append, startValues_append, startValues_deliverBatch, hflush,
    startValues_startEffects hi]
  rfl

/-- The START values put so far. -/
theorem startValues_loopEffects (samples : List Sample) {i : Nat} (hi : i < args.nodes) :
    startValues i (loopEffects args env topo samples) =
      List.range' 2 ((loopAfter args env topo samples).currentQuantum.toNat - 1) := by
  induction samples using reverseRecOn with
  | nil => rfl
  | append_singleton samples x ih =>
    rw [loopEffects_concat, startValues_append, ih, loopAfter_concat]
    have hagree := @loopAfter_currentQuantum args env topo samples
    have hpos : 1 ≤ (loopAfter args env topo samples).currentQuantum.toNat := by
      rw [hagree]
      exact (loop_history samples).start_le
    -- only a turn that releases a batch puts a START, and it puts the next number
    cases h : releaseOf args env (loopAfter args env topo samples) x with
    | none =>
      rw [(loopStep_of_no_release h).1, startValues_eq_nil (loopStep_of_no_release h).2, append_nil]
    | some batch =>
      have hsucc := (loopStep_barrier_of_release h).2
      rw [← hagree] at hsucc
      have hlen : (loopAfter args env topo samples).currentQuantum.toNat + 1 - 1 =
          (loopAfter args env topo samples).currentQuantum.toNat - 1 + 1 := by omega
      rw [startValues_of_release h hi, (loopStep_of_release h).1, hsucc, hlen, List.range'_concat]
      congr 2
      omega

/-- What a turn that releases a batch leaves in the record of the barrier. -/
theorem released_of_release {samples : List Sample}
    (h : releaseOf args env (loopAfter args env topo samples) x = some batch) :
    ((loopAfter args env topo samples).currentQuantum.toNat, batch) ∈
        released (loopBarrierRun args env topo (samples ++ [x])) ∧
      ∀ j < args.nodes, Reported (accepted (loopBarrierRun args env topo (samples ++ [x]))) j
        (loopAfter args env topo samples).currentQuantum.toNat := by
  rw [loopAfter_currentQuantum]
  obtain ⟨hnext, hsucc⟩ := loopStep_barrier_of_release h
  rw [← loopAfter_concat] at hnext
  have hhistory := @loop_history args env topo (samples ++ [x])
  constructor
  · obtain ⟨c, hc, hbatch⟩ := Option.bind_eq_some_iff.mp h
    rw [loopBarrierRun_concat, hc, Option.map_some, Option.toList_some, released_concat]
    refine mem_append_right _ ?_
    rw [entryAt_output, entryAt_input, hbatch, ← (submitDone_of_release hbatch).1]
    exact mem_singleton_self _
  · intro j hj
    refine hhistory.complete _ (loop_history samples).start_le ?_ ⟨j, hj⟩
    rw [hnext, hsucc]
    exact Nat.lt_succ_self _

/-- Every quantum before the current one was released in some turn. -/
theorem exists_release {samples : List Sample} {q : Nat} (hpos : 1 ≤ q)
    (hlt : q < (loopAfter args env topo samples).currentQuantum.toNat) :
    ∃ before x after batch, samples = before ++ x :: after ∧
      releaseOf args env (loopAfter args env topo before) x = some batch ∧
      (loopAfter args env topo before).currentQuantum.toNat = q := by
  induction samples using reverseRecOn with
  | nil =>
    have hone : q < 1 := hlt
    omega
  | append_singleton samples y ih =>
    rw [loopAfter_concat] at hlt
    cases hrelease : releaseOf args env (loopAfter args env topo samples) y with
    | none =>
      rw [(loopStep_of_no_release hrelease).1] at hlt
      obtain ⟨before, x, after, batch, rfl, hx, hq⟩ := ih hlt
      exact ⟨before, x, after ++ [y], batch, by simp, hx, hq⟩
    | some batch =>
      have hsucc := (loopStep_barrier_of_release hrelease).2
      rw [← loopAfter_currentQuantum] at hsucc
      rw [(loopStep_of_release hrelease).1, hsucc] at hlt
      rcases Nat.lt_succ_iff_lt_or_eq.mp hlt with hlt | heq
      · obtain ⟨before, x, after, batch, rfl, hx, hq⟩ := ih hlt
        exact ⟨before, x, after ++ [y], batch, by simp, hx, hq⟩
      · exact ⟨samples, y, [], batch, rfl, hrelease, heq.symm⟩

end

/-! ## The discipline -/

/-- **START discipline against arbitrary samples.** After any sequence of samples:
the START values put to each node are 2, 3, 4, … up to the current quantum;
the loop and the barrier agree on the current quantum;
and a turn that puts `START(v)` to some node ends the quantum `q = v - 1`: by then every node has had a
report for `q` accepted, and the turn first delivers the whole batch of `q`, that is puts both forms of each
message to each of its targets among the nodes seen by then, and no START, and then puts `START(v)` to all
nodes. -/
theorem start_discipline (args : Args) (env : Externals) (topo : TopologyGraph) (samples : List Sample) :
    (∀ i < args.nodes, startValues i (loopEffects args env topo samples) =
      List.range' 2 ((loopAfter args env topo samples).currentQuantum.toNat - 1)) ∧
    (loopAfter args env topo samples).currentQuantum =
      (loopAfter args env topo samples).barrier.currentQuantum ∧
    ∀ pre x post, samples = pre ++ x :: post → ∀ i < args.nodes,
      ∀ v ∈ startValues i (loopStep args env (loopAfter args env topo pre) x).2,
        ∃ q batch deliveries, v = q + 1 ∧
          (∀ j < args.nodes, Reported (accepted (loopBarrierRun args env topo (pre ++ [x]))) j q) ∧
          (q, batch) ∈ released (loopBarrierRun args env topo (pre ++ [x])) ∧
          deliveries = deliverBatch env.rf802154Builder args.pcapLog (loopAfter args env topo pre).topo
            (env.seenOrder.visit (loopAfter args env topo (pre ++ [x])).seenNodes.toList) (sort batch) ∧
          (deliveries.filter Effect.isPut).Perm (batchPuts env.rf802154Builder
            (loopAfter args env topo pre).topo
            (env.seenOrder.visit (loopAfter args env topo (pre ++ [x])).seenNodes.toList) batch) ∧
          startValues i deliveries = [] ∧ (loopStep args env (loopAfter args env topo pre) x).2 =
            deliveries ++ (if args.pcapLog then [.flush] else []) ++
              startEffects args.nodes v.toUInt64 := by
  refine ⟨fun i hi => startValues_loopEffects samples hi, loopAfter_currentQuantum samples, ?_⟩
  intro pre x post _ i hi v hv
  cases h : releaseOf args env (loopAfter args env topo pre) x with
  | none =>
    rw [startValues_eq_nil (loopStep_of_no_release h).2] at hv
    exact absurd hv List.not_mem_nil
  | some batch =>
    rw [startValues_of_release h hi, List.mem_singleton] at hv
    obtain ⟨-, heffects⟩ := loopStep_of_release h
    obtain ⟨hreleased, hreported⟩ := released_of_release h
    have hsucc := (loopStep_barrier_of_release h).2
    rw [← loopAfter_currentQuantum] at hsucc
    refine ⟨_, batch, _, hv.trans hsucc, hreported, hreleased, rfl, deliverBatch_sort_perm ..,
      startValues_deliverBatch .., ?_⟩
    have hstart : v.toUInt64 = (loopAfter args env topo pre).currentQuantum + 1 := by
      rw [hv]
      exact UInt64.ofNat_toNat
    rw [heffects, hstart, loopAfter_concat]

end Virtmcu.DeterministicCoordinator
