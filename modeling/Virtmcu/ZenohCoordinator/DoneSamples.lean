import Virtmcu.ZenohCoordinator.Barrier
import Virtmcu.Foundations.LittleEndian
import Virtmcu.Foundations.Text

/-! # DONE samples of the Zenoh coordinator

The `done_sub` arm of the coordinator's main loop in PDES mode, over the batches the other arms fill.
The name a report counts under is the third segment of its topic, whatever that is, and the barrier
compares the **number** of names with the number of nodes.

For `n` configured nodes one would expect a quantum to be released exactly when each of the nodes
`0 .. n-1` has reported it and all earlier quanta are released (`ReleaseFaithful`). That holds exactly
if counting names never differs from looking for the names `0 .. n-1` where it matters
(`releaseFaithful_iff`). -/

namespace Virtmcu.ZenohCoordinator

open List

/-! ## The loop -/

/-- What the loop consumes. -/
inductive Sample
  /-- A TX arm has handed over messages that wait under the name `nid`. -/
  | batched (nid : String) (msgs : List CoordMessage)
  /-- A sample of `done_sub`. -/
  | done (topic : String) (payload : List UInt8)
  deriving DecidableEq, Repr

/-- What a turn of the loop publishes. -/
inductive Effect
  /-- A call of `encode_protocol_msg`. -/
  | deliver (m : CoordMessage)
  | put (topic : String) (payload : List UInt8)
  deriving DecidableEq, Repr

/-- The variables of the loop that a DONE sample reads or writes. -/
structure LoopState where
  barrier : QuantumBarrier
  currentQuantum : UInt64
  batches : String → List CoordMessage

/-- The state before the first sample. -/
def LoopState.start (nodes cap : Nat) : LoopState where
  barrier := QuantumBarrier.new nodes cap
  currentQuantum := 1
  batches := fun _ => []

/-- The name of a DONE topic: the third of at least four segments. -/
def parseDoneTopic (topic : String) : Option String :=
  let ps := split '/' topic
  if 4 ≤ ps.length then ps[2]? else none

/-- The quantum of a DONE payload, `u64::MAX` if the payload is too short to hold one. -/
def doneQuantum (payload : List UInt8) : UInt64 :=
  if 8 ≤ payload.length then (leNat (payload.take 8)).toUInt64 else UInt64.ofNat (2 ^ 64 - 1)

/-- The START messages: one for each node, and the common one. -/
def startEffects (nodes : Nat) (quantum : UInt64) : List Effect :=
  ((List.range nodes).map fun i =>
    .put ("sim/clock/start/" ++ toString i) (leBytes 8 quantum.toNat)) ++
    [.put "sim/coord/all/start" [1]]

/-- The `submit_done` call of a DONE sample with name `nid`. -/
def doneCall (s : LoopState) (nid : String) (payload : List UInt8) : DoneCall :=
  ⟨nid, doneQuantum payload, s.currentQuantum, s.batches nid⟩

/-- The `done_sub` arm. The batch is gone whatever the barrier answers. -/
def handleDone (nodes : Nat) (s : LoopState) (topic : String) (payload : List UInt8) :
    LoopState × List Effect :=
  match parseDoneTopic topic with
  | none => (s, [])
  | some nid =>
      let batches := Function.update s.batches nid []
      match s.barrier.submitDone (doneCall s nid payload) with
      | (barrier, .ok (some sorted)) =>
          let currentQuantum := barrier.currentQuantum
          ({ barrier, currentQuantum, batches }, sorted.map .deliver ++ startEffects nodes currentQuantum)
      | (barrier, .ok none) => ({ s with barrier, batches }, [])
      | (barrier, .error _) => ({ s with barrier, batches }, [])

/-- One turn of the loop. -/
def loopStep (nodes : Nat) (s : LoopState) : Sample → LoopState × List Effect
  | .batched nid msgs =>
      ({ s with batches := Function.update s.batches nid (s.batches nid ++ msgs) }, [])
  | .done topic payload => handleDone nodes s topic payload

/-- The state after a sequence of samples. -/
abbrev loopAfter (nodes cap : Nat) (ss : List Sample) : LoopState :=
  finalState (loopStep nodes) (LoopState.start nodes cap) ss

/-- The `submit_done` call a sample leads to, if any. -/
def callOf (s : LoopState) : Sample → Option DoneCall
  | .batched _ _ => none
  | .done topic payload => (parseDoneTopic topic).map fun nid => doneCall s nid payload

/-- The quanta a sample releases. -/
def releasesOf (s : LoopState) (x : Sample) : List Completed :=
  ((callOf s x).map fun c => completedOf (s.barrier.submit c).2).getD []

/-- The barrier sees the calls and nothing else. -/
theorem loopStep_barrier (nodes : Nat) (s : LoopState) (x : Sample) : (loopStep nodes s x).1.barrier =
      ((callOf s x).map fun c => (s.barrier.submit c).1).getD s.barrier := by
  cases x with
  | batched nid msgs => rfl
  | done topic payload =>
    rw [loopStep, handleDone, callOf]
    cases parseDoneTopic topic with
    | none => rfl
    | some nid =>
      simp only [QuantumBarrier.submitDone, Option.map_some, Option.getD_some]
      split
      · next heq => exact (Prod.mk.inj heq).1.symm
      · next heq => exact (Prod.mk.inj heq).1.symm
      · next heq => exact (Prod.mk.inj heq).1.symm

/-! ## Reports and releases of a run -/

/-- The name and the quantum a sample reports. -/
def doneReport : Sample → Option (String × UInt64)
  | .batched _ _ => none
  | .done topic payload => (parseDoneTopic topic).map fun nid => (nid, doneQuantum payload)

/-- The names that have reported quantum `q`. -/
def namesOf (ss : List Sample) (q : Nat) : Finset String :=
  (((ss.filterMap doneReport).filter fun r => r.2.toNat = q).map Prod.fst).toFinset

/-- Each of the nodes `0 .. n-1` has reported quantum `q`. -/
def Covered (n : Nat) (ss : List Sample) (q : Nat) : Prop :=
  ∀ i < n, toString i ∈ namesOf ss q

instance (n : Nat) (ss : List Sample) (q : Nat) : Decidable (Covered n ss q) :=
  inferInstanceAs (Decidable (∀ _, _ → _))

/-- The quanta released by a run, in order of release. -/
def releasedQuanta (n cap : Nat) (ss : List Sample) : List Nat :=
  (entries (loopStep n) (LoopState.start n cap) ss).flatMap fun e =>
    (releasesOf e.before e.input).map fun done => done.quantum.toNat

/-- The calls a run makes. -/
def doneCalls (n cap : Nat) (ss : List Sample) : List DoneCall :=
  (entries (loopStep n) (LoopState.start n cap) ss).filterMap fun e => callOf e.before e.input

/-- **The expected release rule**: at any moment, quantum `q` is released if and only if each of the
nodes `0 .. n-1` has reported it and all earlier quanta are released. Quanta are counted from 1. -/
def ReleaseFaithful (n cap : Nat) (ss : List Sample) : Prop :=
  ∀ pre, pre <+: ss → ∀ q, 1 ≤ q → q < 2 ^ 64 →
    (q ∈ releasedQuanta n cap pre ↔
      Covered n pre q ∧ ∀ p, 1 ≤ p → p < q → p ∈ releasedQuanta n cap pre)

/-- **Counting names finds the nodes**: whenever a sample leaves all quanta before `q` covered, and `q`
was still open before it, the number of names that have reported `q` is `n` if and only if they include
`0 .. n-1`. -/
def CountsAgree (n : Nat) (ss : List Sample) : Prop :=
  0 < n ∧ ∀ pre x, pre ++ [x] <+: ss → ∀ q, 1 ≤ q → q < 2 ^ 64 →
    ¬ (∀ p, 1 ≤ p → p ≤ q → Covered n pre p) → (∀ p, 1 ≤ p → p < q → Covered n (pre ++ [x]) p) →
    ((namesOf (pre ++ [x]) q).card = n ↔ Covered n (pre ++ [x]) q)

variable {q : Nat}

section

variable {n cap : Nat} {ss : List Sample}

theorem mem_namesOf {name : String} :
    name ∈ namesOf ss q ↔ ∃ x ∈ ss, ∃ quantum, doneReport x = some (name, quantum) ∧ quantum.toNat = q := by
  simp only [namesOf, mem_toFinset, mem_map, mem_filter, mem_filterMap, decide_eq_true_eq]
  constructor
  · rintro ⟨⟨name', quantum⟩, ⟨⟨x, hx, hreport⟩, hq⟩, rfl⟩
    exact ⟨x, hx, quantum, hreport, hq⟩
  · rintro ⟨x, hx, quantum, hreport, hq⟩
    exact ⟨(name, quantum), ⟨⟨x, hx, hreport⟩, hq⟩, rfl⟩

/-- Reports are not forgotten. -/
theorem Covered.append (h : Covered n ss q) (ts : List Sample) : Covered n (ss ++ ts) q := by
  intro i hi
  obtain ⟨x, hx, hreport⟩ := mem_namesOf.mp (h i hi)
  exact mem_namesOf.mpr ⟨x, mem_append_left _ hx, hreport⟩

/-- A call carries the name and the quantum of its sample. -/
theorem callOf_map_report (s : LoopState) (x : Sample) :
    (callOf s x).map (fun c => (c.nodeId, c.quantum)) = doneReport x := by
  cases x with
  | batched nid msgs => rfl
  | done topic payload =>
    rw [callOf, doneReport, Option.map_map]
    rfl

/-- The barrier's reporters are the names of the samples. -/
theorem reporters_doneCalls (n cap : Nat) (ss : List Sample) (q : Nat) :
    reporters (doneCalls n cap ss) q = namesOf ss q := by
  have hpairs : (doneCalls n cap ss).map (fun c => (c.nodeId, c.quantum)) =
      ss.filterMap doneReport := by
    rw [doneCalls, map_filterMap]
    simp only [callOf_map_report]
    conv_rhs => rw [← entries_map_input (loopStep n) (LoopState.start n cap) ss, filterMap_map]
    rfl
  ext name
  rw [mem_reporters, namesOf, ← hpairs]
  simp [and_assoc]

theorem doneCalls_concat (x : Sample) : doneCalls n cap (ss ++ [x]) =
    doneCalls n cap ss ++ (callOf (loopAfter n cap ss) x).toList := by
  rw [doneCalls, entries_concat, filterMap_append, doneCalls]
  cases h : callOf (loopAfter n cap ss) x <;> simp [h]

theorem mem_releasedQuanta_concat {x : Sample} :
    q ∈ releasedQuanta n cap (ss ++ [x]) ↔ q ∈ releasedQuanta n cap ss ∨
      ∃ done ∈ releasesOf (loopAfter n cap ss) x, done.quantum.toNat = q := by
  rw [releasedQuanta, entries_concat, flatMap_append, mem_append, releasedQuanta]
  simp

/-! ## Following a run -/

/-- The barrier is as its calls make it, and the quanta up to `R` are released. -/
structure Tracked (n cap : Nat) (ss : List Sample) (R : Nat) : Prop where
  history : History n cap (doneCalls n cap ss) (loopAfter n cap ss).barrier R
  mem_iff : ∀ q, q ∈ releasedQuanta n cap ss ↔ 1 ≤ q ∧ q ≤ R

/-- Quantum `q` has as many names as there are nodes. -/
theorem isComplete_doneCalls : IsComplete n (doneCalls n cap ss) q ↔ (namesOf ss q).card = n := by
  rw [IsComplete, reporters_doneCalls]

/-- The next quantum has not. -/
theorem Tracked.card_ne {R : Nat} (h : Tracked n cap ss R) (hR : R + 1 < 2 ^ 64) :
    (namesOf ss (R + 1)).card ≠ n := by
  intro hcard
  exact h.history.settled.2 hR (isComplete_doneCalls.mpr hcard)

/-- The quanta the loop completes lie between the counts before and after. -/
theorem mem_completed_iff {R R' : Nat} {cs : List DoneCall} (hle : R ≤ R') (hR' : R' < 2 ^ 64)
    : (∃ done ∈ (List.range' (R + 1) (R' - R)).map (completedAt cap cs),
      done.quantum.toNat = q) ↔ R < q ∧ q ≤ R' := by
  have hnat : ∀ p, p ≤ R' → (completedAt cap cs p).quantum.toNat = p := by
    intro p hp
    exact UInt64.toNat_ofNat_of_lt' (by change p < 2 ^ 64; omega)
  constructor
  · rintro ⟨done, hdone, rfl⟩
    obtain ⟨p, hp, rfl⟩ := mem_map.mp hdone
    rw [mem_range'_1] at hp
    rw [hnat p (by omega)]
    omega
  · rintro ⟨hlow, hhigh⟩
    refine ⟨completedAt cap cs q, mem_map.mpr ⟨q, ?_, rfl⟩, hnat q hhigh⟩
    rw [mem_range'_1]
    omega

/-- **One sample**: the count of released quanta moves over the quanta that have `n` names by then, and
over no others. -/
theorem tracked_step (hn : 0 < n) {R : Nat} (h : Tracked n cap ss R) (hR : R + 1 < 2 ^ 64)
    (x : Sample) : ∃ R', R ≤ R' ∧ Tracked n cap (ss ++ [x]) R' ∧
      ∀ q, R < q → q ≤ R' → (namesOf (ss ++ [x]) q).card = n := by
  have hbarrier := loopStep_barrier n (loopAfter n cap ss) x
  have hcalls := @doneCalls_concat n cap ss x
  cases hcall : callOf (loopAfter n cap ss) x with
  | none =>
    have hhistory : History n cap (doneCalls n cap (ss ++ [x]))
        (loopAfter n cap (ss ++ [x])).barrier R := by
      rw [hcall] at hbarrier hcalls
      rw [hcalls, loopAfter, finalState_concat, hbarrier]
      simpa using h.history
    refine ⟨R, le_rfl, ⟨hhistory, fun q => ?_⟩, by omega⟩
    rw [mem_releasedQuanta_concat, h.mem_iff]
    simp [releasesOf, hcall]
  | some c =>
    obtain ⟨R', hstep⟩ := history_step hn h.history hR c
    have hcalls' : doneCalls n cap (ss ++ [x]) = doneCalls n cap ss ++ [c] := by
      rw [hcalls, hcall]
      rfl
    have hhistory : History n cap (doneCalls n cap (ss ++ [x]))
        (loopAfter n cap (ss ++ [x])).barrier R' := by
      rw [hcall] at hbarrier
      rw [hcalls', loopAfter, finalState_concat, hbarrier]
      exact hstep.history
    have hle := hstep.le
    refine ⟨R', hle, ⟨hhistory, fun q => ?_⟩, fun q hq hq' => ?_⟩
    · rw [mem_releasedQuanta_concat, h.mem_iff, releasesOf, hcall, Option.map_some,
        Option.getD_some, hstep.completed_eq, mem_completed_iff hle hhistory.settled.1]
      omega
    · rw [← isComplete_doneCalls, hcalls']
      exact hstep.complete q hq hq'

theorem tracked_nil (hn : 0 < n) (cap : Nat) : Tracked n cap [] 0 where
  history := history_new hn cap
  mem_iff q := by
    have hnil : releasedQuanta n cap [] = [] := rfl
    rw [hnil]
    constructor
    · exact fun h => absurd h not_mem_nil
    · omega

/-- A run is followed until every quantum there is has been released. -/
theorem tracked_or_all (hn : 0 < n) (cap : Nat) (ss : List Sample) :
    (∃ R, R + 1 < 2 ^ 64 ∧ Tracked n cap ss R) ∨ ∀ q, 1 ≤ q → q < 2 ^ 64 → q ∈ releasedQuanta n cap ss := by
  induction ss using reverseRecOn with
  | nil => exact .inl ⟨0, by omega, tracked_nil hn cap⟩
  | append_singleton ss x ih =>
    rcases ih with ⟨R, hR, h⟩ | hall
    · obtain ⟨R', -, h', -⟩ := tracked_step hn h hR x
      by_cases hR' : R' + 1 < 2 ^ 64
      · exact .inl ⟨R', hR', h'⟩
      · refine .inr fun q hq hq' => (h'.mem_iff q).mpr ⟨hq, ?_⟩
        omega
    · exact .inr fun q hq hq' => mem_releasedQuanta_concat.mpr (.inl (hall q hq hq'))

end

/-! ## The release rule -/

section

variable {n cap : Nat} {ss : List Sample}

/-- The release rule at one moment, unrolled: released are the quanta of the covered run from 1. -/
theorem released_iff_covered (h : ∀ q, 1 ≤ q → q < 2 ^ 64 → (q ∈ releasedQuanta n cap ss ↔
      Covered n ss q ∧ ∀ p, 1 ≤ p → p < q → p ∈ releasedQuanta n cap ss)) (hq : 1 ≤ q) (hq' : q < 2 ^ 64) :
    q ∈ releasedQuanta n cap ss ↔ ∀ p, 1 ≤ p → p ≤ q → Covered n ss p := by
  induction q using Nat.strong_induction_on with
  | _ q ih =>
    rw [h q hq hq']
    constructor
    · rintro ⟨hcov, hearlier⟩ p hp hpq
      rcases Nat.lt_or_ge p q with hlt | hge
      · exact (ih p hlt hp (by omega)).mp (hearlier p hp hlt) p hp le_rfl
      · obtain rfl : p = q := by omega
        exact hcov
    · intro hcov
      refine ⟨hcov q hq le_rfl, fun p hp hlt => ?_⟩
      exact (ih p hlt hp (by omega)).mpr fun r hr hrp => hcov r hr (by omega)

/-- Released and covered quanta agree after `ss`, the quanta up to `R` being released. -/
structure Agreed (n cap : Nat) (ss : List Sample) (R : Nat) : Prop where
  lt : R < 2 ^ 64
  tracked : R + 1 < 2 ^ 64 → Tracked n cap ss R
  mem_iff : ∀ q, 1 ≤ q → q < 2 ^ 64 → (q ∈ releasedQuanta n cap ss ↔ q ≤ R)
  covered_iff : ∀ q, 1 ≤ q → q < 2 ^ 64 → (q ≤ R ↔ ∀ p, 1 ≤ p → p ≤ q → Covered n ss p)

/-- Where counting finds the nodes, a sample keeps the agreement. -/
theorem agreed_step (hn : 0 < n) {R : Nat} (h : Agreed n cap ss R) (x : Sample)
    (hcount : ∀ q, 1 ≤ q → q < 2 ^ 64 → ¬ (∀ p, 1 ≤ p → p ≤ q → Covered n ss p) →
      (∀ p, 1 ≤ p → p < q → Covered n (ss ++ [x]) p) →
      ((namesOf (ss ++ [x]) q).card = n ↔ Covered n (ss ++ [x]) q)) :
    ∃ R', Agreed n cap (ss ++ [x]) R' := by
  have hkept : ∀ p, 1 ≤ p → p ≤ R → Covered n (ss ++ [x]) p := by
    intro p hp hpR
    have hlt := h.lt
    exact ((h.covered_iff p hp (by omega)).mp hpR p hp le_rfl).append [x]
  by_cases hR : R + 1 < 2 ^ 64
  · obtain ⟨R', hle, htracked, hcomplete⟩ := tracked_step hn (h.tracked hR) hR x
    have hR' := htracked.history.settled.1
    have hopen : ∀ q, 1 ≤ q → q < 2 ^ 64 → R < q → ¬ ∀ p, 1 ≤ p → p ≤ q → Covered n ss p := by
      intro q hq hq' hRq hcov
      have hqR := (h.covered_iff q hq hq').mpr hcov
      omega
    -- up to `R'` the counts are full, so the nodes have reported
    have hcovered : ∀ q, 1 ≤ q → q ≤ R' → Covered n (ss ++ [x]) q := by
      intro q
      induction q using Nat.strong_induction_on with
      | _ q ih =>
        intro hq hqR'
        rcases Nat.lt_or_ge R q with hnew | hold
        · have hdue : ∀ p, 1 ≤ p → p < q → Covered n (ss ++ [x]) p :=
            fun p hp hpq => ih p hpq hp (by omega)
          exact (hcount q hq (by omega) (hopen q hq (by omega) hnew) hdue).mp
            (hcomplete q hnew hqR')
        · exact hkept q hq hold
    refine ⟨R', hR', fun _ => htracked, fun q hq _ => ?_, fun q hq hq' => ?_⟩
    · rw [htracked.mem_iff]
      exact and_iff_right hq
    · constructor
      · exact fun hqR' p hp hpq => hcovered p hp (by omega)
      · intro hcov
        by_contra hlater
        -- the first quantum behind is covered, so its count would be full too
        have hnext := hcov (R' + 1) (by omega) (by omega)
        refine htracked.card_ne (by omega) ((hcount (R' + 1) (by omega) (by omega)
          (hopen (R' + 1) (by omega) (by omega) (by omega)) ?_).mpr hnext)
        exact fun p hp hpq => hcovered p hp (by omega)
  · refine ⟨R, h.lt, fun hlt => absurd hlt hR, fun q hq hq' => ?_, fun q hq hq' => ?_⟩
    · have hmem := (h.mem_iff q hq hq').mpr (by omega)
      exact ⟨fun _ => by omega, fun _ => mem_releasedQuanta_concat.mpr (.inl hmem)⟩
    · exact ⟨fun _ p hp hpq => hkept p hp (by omega), fun _ => by omega⟩

/-- Counting that finds the nodes throughout keeps the agreement throughout. -/
theorem exists_agreed (h : CountsAgree n ss) (cap : Nat) {pre : List Sample} (hpre : pre <+: ss) :
    ∃ R, Agreed n cap pre R := by
  induction pre using reverseRecOn with
  | nil =>
    refine ⟨0, by omega, fun _ => tracked_nil h.1 cap, fun q hq _ => ?_, fun q hq _ => ?_⟩
    · rw [(tracked_nil h.1 cap).mem_iff]
      exact and_iff_right hq
    · refine ⟨by omega, fun hcov => ?_⟩
      have hmem := hcov q hq le_rfl 0 h.1
      exact absurd (mem_namesOf.mp hmem) (by simp)
  | append_singleton pre x ih =>
    obtain ⟨R, hR⟩ := ih ((prefix_append pre [x]).trans hpre)
    exact agreed_step h.1 hR x (h.2 pre x hpre)

/-- Under the release rule a count that matters finds the nodes. -/
theorem card_eq_iff_covered (hn : 0 < n) (h : ReleaseFaithful n cap ss) {pre : List Sample}
    {x : Sample} (hpre : pre ++ [x] <+: ss) (hq : 1 ≤ q) (hq' : q < 2 ^ 64)
    (hopen : ¬ ∀ p, 1 ≤ p → p ≤ q → Covered n pre p)
    (hdue : ∀ p, 1 ≤ p → p < q → Covered n (pre ++ [x]) p) :
    (namesOf (pre ++ [x]) q).card = n ↔ Covered n (pre ++ [x]) q := by
  have hbefore := h pre ((prefix_append pre [x]).trans hpre)
  have hafter := h (pre ++ [x]) hpre
  rw [← released_iff_covered hbefore hq hq'] at hopen
  rcases tracked_or_all hn cap pre with ⟨R, hR, htracked⟩ | hall
  · obtain ⟨R', -, htracked', hcomplete⟩ := tracked_step hn htracked hR x
    have hRq : R < q := by
      by_contra hle
      exact hopen ((htracked.mem_iff q).mpr ⟨hq, by omega⟩)
    have hearlier : ∀ p, 1 ≤ p → p < q → p ∈ releasedQuanta n cap (pre ++ [x]) := by
      intro p hp hpq
      rw [released_iff_covered hafter hp (by omega)]
      exact fun r hr hrp => hdue r hr (by omega)
    constructor
    · intro hcard
      have hqR' : q ≤ R' := by
        by_contra hlater
        -- then `q` is the quantum the loop has stopped at
        have hprev : q = R' + 1 := by
          rcases Nat.lt_or_ge (R' + 1) q with hlt | hge
          · have hmem := (htracked'.mem_iff (R' + 1)).mp (hearlier (R' + 1) (by omega) hlt)
            omega
          · omega
        exact htracked'.card_ne (by omega) (hprev ▸ hcard)
      exact ((hafter q hq hq').mp ((htracked'.mem_iff q).mpr ⟨hq, hqR'⟩)).1
    · intro hcov
      have hmem := (hafter q hq hq').mpr ⟨hcov, hearlier⟩
      exact hcomplete q hRq ((htracked'.mem_iff q).mp hmem).2
  · exact absurd (hall q hq hq') hopen

end

/-- **When the release rule holds.** A quantum is released exactly when the nodes `0 .. n-1` have
reported it and all earlier quanta are released, throughout a run, if and only if counting names finds
these nodes throughout. -/
theorem releaseFaithful_iff (n cap : Nat) (ss : List Sample) :
    ReleaseFaithful n cap ss ↔ CountsAgree n ss := by
  constructor
  · intro h
    have hn : 0 < n := by
      by_contra hzero
      -- without nodes quantum 1 would have to be released before any report
      have hcov : Covered n [] 1 := fun i hi => absurd hi (by omega)
      have hmem := (h [] List.nil_prefix 1 le_rfl (by omega)).mpr ⟨hcov, by omega⟩
      exact List.not_mem_nil hmem
    exact ⟨hn, fun pre x hpre q hq hq' => card_eq_iff_covered hn h hpre hq hq'⟩
  · intro h pre hpre q hq hq'
    obtain ⟨R, hR⟩ := exists_agreed h cap hpre
    rw [hR.mem_iff q hq hq', hR.covered_iff q hq hq']
    constructor
    · intro hcov
      refine ⟨hcov q hq le_rfl, fun p hp hpq => ?_⟩
      rw [hR.mem_iff p hp (by omega), hR.covered_iff p hp (by omega)]
      exact fun r hr hrp => hcov r hr (by omega)
    · rintro ⟨hcov, hearlier⟩ p hp hpq
      rcases Nat.lt_or_ge p q with hlt | hge
      · have hmem := hearlier p hp hlt
        rw [hR.mem_iff p hp (by omega), hR.covered_iff p hp (by omega)] at hmem
        exact hmem p hp le_rfl
      · obtain rfl : p = q := by omega
        exact hcov

/-- A DONE sample of `name` for quantum `q`. -/
def doneSample (name : String) (q : Nat) : Sample :=
  .done ("sim/coord/" ++ name ++ "/done") (leBytes 8 q)

/-- The release rule fails both ways. With two nodes, the reports of node 0 and of a stranger release
quantum 1 before node 1 has reported it; and a stranger that reports quantum 2 ahead together with both
nodes blocks it for good, because three names are not two. -/
theorem not_releaseFaithful_stranger : ¬ ReleaseFaithful 2 1024 [doneSample "0" 1, doneSample "x" 1] ∧
    ¬ ReleaseFaithful 2 1024 [doneSample "0" 2, doneSample "1" 2, doneSample "x" 2, doneSample "0" 1,
      doneSample "1" 1] := by
  constructor
  · intro h
    have hrule := (h _ (List.prefix_refl _) 1 (by decide) (by decide)).mp (by decide +kernel)
    exact absurd hrule.1 (by decide +kernel)
  · intro h
    have hrule := (h _ (List.prefix_refl _) 2 (by decide) (by decide)).mpr
    have hmem := hrule ⟨by decide +kernel, fun p hp hpq => ?_⟩
    · exact absurd hmem (by decide +kernel)
    · obtain rfl : p = 1 := by omega
      decide +kernel

end Virtmcu.ZenohCoordinator
