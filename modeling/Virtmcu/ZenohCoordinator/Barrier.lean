import Virtmcu.ZenohCoordinator.Message
import Virtmcu.Foundations.HashOrder
import Virtmcu.Foundations.Run
import Mathlib.Algebra.Group.Nat.Defs
import Mathlib.Data.Finset.Card
import Mathlib.Data.List.Range

/-! # The quantum barrier of the Zenoh coordinator

`QuantumBarrier` of the Zenoh coordinator's `barrier.rs`. Unlike its sibling in the deterministic
coordinator it knows its nodes only by the names they report under, and it lets a node run ahead by
any number of quanta: every quantum that is not yet released has an entry of its own in a map, and one
report can complete a whole series of them.

`submit_done` holds the state mutex for its whole body, so a call is one atomic step. Quanta are `u64`
and `current_q += 1` wraps, as in the release build. The second half of the module describes what a
barrier holds after any sequence of calls: `History` is the statement and `history_step` the one proof
that a call keeps it. -/

namespace Virtmcu.ZenohCoordinator

open List UInt64

/-- `BarrierError`. -/
inductive BarrierError
  | timeout
  | duplicateDone
  | quantumMismatch (expected got : UInt64)
  deriving DecidableEq, Repr

/-- The arguments of one `submit_done` call. -/
structure DoneCall where
  nodeId : String
  quantum : UInt64
  /-- Passed by the caller and never read. -/
  expectedQuantum : UInt64
  messages : List CoordMessage
  deriving DecidableEq, Repr

/-- `QuantumData`: who has reported a quantum, and the kept messages of those reports. -/
structure QuantumData where
  doneNodes : HashSet String
  messages : List CoordMessage

namespace QuantumData

/-- `QuantumData::default`. -/
def default : QuantumData := ⟨⟨[], List.nodup_nil⟩, []⟩

/-- Count a report in: its name, and the first `cap` of its sorted messages. -/
def note (cap : Nat) (data : QuantumData) (c : DoneCall) : QuantumData where
  doneNodes := data.doneNodes.insert c.nodeId
  messages := data.messages ++ sortTruncate cap c.messages

end QuantumData

/-- A quantum the loop of `submit_done` has found complete, with its sorted messages. -/
structure Completed where
  quantum : UInt64
  messages : List CoordMessage
  deriving DecidableEq, Repr

/-- `QuantumBarrier` together with the `BarrierState` it guards. -/
structure QuantumBarrier where
  nNodes : Nat
  maxMessagesPerNode : Nat
  currentQuantum : UInt64
  quanta : HashMap UInt64 QuantumData

namespace QuantumBarrier

/-- `QuantumBarrier::new`. -/
def new (nNodes maxMessagesPerNode : Nat) : QuantumBarrier where
  nNodes := nNodes
  maxMessagesPerNode := maxMessagesPerNode
  currentQuantum := 1
  quanta := HashMap.empty

/-- `reset`: the entries go, the quantum stays. -/
def reset (b : QuantumBarrier) : QuantumBarrier := { b with quanta := HashMap.empty }

/-- What the loop of `submit_done` computes: the quanta it completed, the quantum it stopped at and the
entries that are left. -/
structure Advance where
  completed : List Completed
  currentQ : UInt64
  quanta : HashMap UInt64 QuantumData

/-- The `while let` loop of `submit_done`. Every round removes an entry, so as many rounds as there are
entries are enough (`advance_spec`). -/
def advance (nNodes : Nat) : (rounds : Nat) → UInt64 → HashMap UInt64 QuantumData → Advance
  | 0, currentQ, quanta => ⟨[], currentQ, quanta⟩
  | rounds + 1, currentQ, quanta =>
      match quanta.get currentQ with
      | none => ⟨[], currentQ, quanta⟩
      | some data =>
          if data.doneNodes.toList.length = nNodes then
            let rest := advance nNodes rounds (currentQ + 1) (quanta.remove currentQ)
            { rest with completed := ⟨currentQ, sort data.messages⟩ :: rest.completed }
          else ⟨[], currentQ, quanta⟩

/-- `submit_done` with the list of completed quanta in place of the messages it joins together. -/
def submit (b : QuantumBarrier) (c : DoneCall) :
    QuantumBarrier × Except BarrierError (List Completed) :=
  if c.quantum < b.currentQuantum then (b, .ok [])
  else
    let data := (b.quanta.get c.quantum).getD QuantumData.default
    if c.nodeId ∈ data.doneNodes.toList then
      -- `entry(..).or_default()` has been called by now
      ({ b with quanta := b.quanta.insert c.quantum data }, .error .duplicateDone)
    else
      let quanta := b.quanta.insert c.quantum (data.note b.maxMessagesPerNode c)
      let r := advance b.nNodes quanta.toList.length b.currentQuantum quanta
      ({ b with currentQuantum := r.currentQ, quanta := r.quanta }, .ok r.completed)

/-- The answer of `submit_done`: `all_sorted_msgs` if the loop advanced. A quantum without messages is
answered too. -/
def answer (completed : List Completed) : Option (List CoordMessage) :=
  if completed = [] then none else some (completed.flatMap Completed.messages)

/-- `submit_done`. -/
def submitDone (b : QuantumBarrier) (c : DoneCall) :
    QuantumBarrier × Except BarrierError (Option (List CoordMessage)) :=
  ((b.submit c).1, (b.submit c).2.map answer)

end QuantumBarrier

/-- The barrier a sequence of calls on a fresh barrier leads to. -/
abbrev barrierAfter (n cap : Nat) (cs : List DoneCall) : QuantumBarrier :=
  finalState QuantumBarrier.submitDone (QuantumBarrier.new n cap) cs

/-! ## Reports -/

/-- The reports for quantum `q`, oldest first. -/
def reports (cs : List DoneCall) (q : Nat) : List DoneCall := cs.filter fun c => c.quantum.toNat = q

/-- The names that have reported quantum `q`. -/
def reporters (cs : List DoneCall) (q : Nat) : Finset String :=
  ((reports cs q).map DoneCall.nodeId).toFinset

/-- As many names have reported quantum `q` as the barrier waits for. -/
def IsComplete (n : Nat) (cs : List DoneCall) (q : Nat) : Prop := (reporters cs q).card = n

instance (n : Nat) (cs : List DoneCall) (q : Nat) : Decidable (IsComplete n cs q) :=
  inferInstanceAs (Decidable (_ = _))

variable {cs : List DoneCall}

theorem mem_reporters {q : Nat} {name : String} :
    name ∈ reporters cs q ↔ ∃ c ∈ cs, c.quantum.toNat = q ∧ c.nodeId = name := by
  simp [reporters, reports, and_assoc]

/-- A call adds to the reports of its own quantum. -/
theorem reports_concat_self (cs : List DoneCall) (c : DoneCall) :
    reports (cs ++ [c]) c.quantum.toNat = reports cs c.quantum.toNat ++ [c] := by
  simp [reports]

variable {c : DoneCall}

/-- A call does not touch the reports of another quantum. -/
theorem reports_concat_of_ne {q : Nat} (h : c.quantum.toNat ≠ q) :
    reports (cs ++ [c]) q = reports cs q := by
  simp [reports, h]

theorem reporters_concat_of_ne {q : Nat}
    (h : c.quantum.toNat ≠ q) : reporters (cs ++ [c]) q = reporters cs q := by
  rw [reporters, reports_concat_of_ne h, reporters]

/-- Reporting a second time changes nothing. -/
theorem reporters_concat_of_mem {q : Nat}
    (h : c.nodeId ∈ reporters cs c.quantum.toNat) : reporters (cs ++ [c]) q = reporters cs q := by
  by_cases hq : c.quantum.toNat = q
  · subst hq
    ext name
    rw [mem_reporters] at h
    obtain ⟨d, hd, hdq, hdn⟩ := h
    simp only [mem_reporters, mem_append, mem_singleton]
    constructor
    · rintro ⟨e, he | rfl, heq, rfl⟩
      · exact ⟨e, he, heq, rfl⟩
      · exact ⟨d, hd, hdq, hdn⟩
    · rintro ⟨e, he, heq, rfl⟩
      exact ⟨e, .inl he, heq, rfl⟩
  · exact reporters_concat_of_ne hq

/-! ## What an entry holds -/

/-- The entry of a quantum after the given reports; a name that is already there is turned down. -/
def collect (cap : Nat) (l : List DoneCall) : QuantumData :=
  l.foldl (fun data c => if c.nodeId ∈ data.doneNodes.toList then data else data.note cap c)
    QuantumData.default

theorem collect_concat (cap : Nat) (l : List DoneCall) (c : DoneCall) :
    collect cap (l ++ [c]) = if c.nodeId ∈ (collect cap l).doneNodes.toList then collect cap l
      else (collect cap l).note cap c := by
  rw [collect, foldl_append]
  rfl

/-- The entry has the names that reported. -/
theorem mem_doneNodes_collect {cap : Nat} {l : List DoneCall} {name : String} :
    name ∈ (collect cap l).doneNodes.toList ↔ name ∈ l.map DoneCall.nodeId := by
  induction l using reverseRecOn with
  | nil => simp [collect, QuantumData.default]
  | append_singleton l c ih =>
    rw [collect_concat, map_append, mem_append, ← ih]
    by_cases hmem : c.nodeId ∈ (collect cap l).doneNodes.toList
    · rw [if_pos hmem]
      constructor
      · exact .inl
      · rintro (h | h)
        · exact h
        · rw [map_singleton, mem_singleton] at h
          exact h ▸ hmem
    · rw [if_neg hmem, QuantumData.note, HashSet.toList_insert_of_notMem hmem]
      simp

/-- The number of names of an entry is the number of reporters of its quantum. -/
theorem length_doneNodes_collect (cap : Nat) (cs : List DoneCall) (q : Nat) :
    (collect cap (reports cs q)).doneNodes.toList.length = (reporters cs q).card := by
  rw [← toFinset_card_of_nodup (collect cap (reports cs q)).doneNodes.nodup]
  congr 1
  ext name
  rw [mem_toFinset, mem_doneNodes_collect, reporters, mem_toFinset]

/-- Reports under different names are all kept. -/
theorem messages_collect {cap : Nat} {l : List DoneCall} (h : (l.map DoneCall.nodeId).Nodup) :
    (collect cap l).messages = l.flatMap fun c => sortTruncate cap c.messages := by
  induction l using reverseRecOn with
  | nil => rfl
  | append_singleton l c ih =>
    rw [map_append, nodup_append'] at h
    have hnew : c.nodeId ∉ (collect cap l).doneNodes.toList := by
      rw [mem_doneNodes_collect]
      intro hmem
      exact h.2.2 hmem (mem_singleton.mpr rfl)
    rw [collect_concat, if_neg hnew, QuantumData.note, ih h.1]
    simp

/-- What the map holds while the quanta up to `R` are released. -/
structure Holds (cap : Nat) (cs : List DoneCall) (quanta : HashMap UInt64 QuantumData) (R : Nat) :
    Prop where
  /-- Nothing is left of a released quantum. -/
  gone : ∀ q : UInt64, q.toNat ≤ R → quanta.get q = none
  /-- A quantum to come has an entry once it has a report. -/
  held : ∀ q : UInt64, R < q.toNat → quanta.get q =
    if reports cs q.toNat = [] then none else some (collect cap (reports cs q.toNat))

variable {data : QuantumData}

namespace Holds

variable {n cap R : Nat} {cs : List DoneCall} {quanta : HashMap UInt64 QuantumData}

variable {q : UInt64}

/-- The entry that `or_default` finds or makes. -/
theorem getD_eq (h : Holds cap cs quanta R) (hq : R < q.toNat) :
    (quanta.get q).getD QuantumData.default = collect cap (reports cs q.toNat) := by
  rw [h.held q hq]
  split
  · next hnil =>
    rw [hnil]
    rfl
  · rfl

/-- Storing what an entry becomes with one more report. -/
theorem insert (h : Holds cap cs quanta R) (hc : R < c.quantum.toNat)
    (hdata : data = collect cap (reports (cs ++ [c]) c.quantum.toNat)) :
    Holds cap (cs ++ [c]) (quanta.insert c.quantum data) R where
  gone q hq := by
    have hne : q ≠ c.quantum := by
      rintro rfl
      omega
    rw [HashMap.get_insert, if_neg hne]
    exact h.gone q hq
  held q hq := by
    rw [HashMap.get_insert]
    by_cases heq : q = c.quantum
    · rw [if_pos heq, heq, hdata, reports_concat_self, if_neg (by simp)]
    · have hne : c.quantum.toNat ≠ q.toNat := fun hnat => heq (UInt64.toNat_inj.mp hnat).symm
      rw [if_neg heq, reports_concat_of_ne hne]
      exact h.held q hq

/-- A report for a released quantum is not stored. -/
theorem concat_stale (h : Holds cap cs quanta R) (hc : c.quantum.toNat ≤ R) :
    Holds cap (cs ++ [c]) quanta R where
  gone := h.gone
  held q hq := by
    rw [reports_concat_of_ne (by omega)]
    exact h.held q hq

/-- Releasing the next quantum. -/
theorem remove (h : Holds cap cs quanta R) (hq : q.toNat = R + 1) :
    Holds cap cs (quanta.remove q) (R + 1) where
  gone p hp := by
    rw [HashMap.get_remove]
    split
    · rfl
    · next hne =>
      have hnat : p.toNat ≠ q.toNat := fun hnat => hne (UInt64.toNat_inj.mp hnat)
      exact h.gone p (by omega)
  held p hp := by
    have hne : p ≠ q := by
      rintro rfl
      omega
    rw [HashMap.get_remove, if_neg hne]
    exact h.held p (by omega)

/-- An entry is what the reports of its quantum make of it. -/
theorem eq_collect (h : Holds cap cs quanta R) (hq : R < q.toNat)
    (hget : quanta.get q = some data) : data = collect cap (reports cs q.toNat) := by
  have hdata := h.getD_eq hq
  rw [hget] at hdata
  exact hdata

/-- The counter does not run past an entry when it wraps: quantum 0 never has one. -/
theorem succ_lt_of_get (h : Holds cap cs quanta R) (hR : R < 2 ^ 64)
    (hget : quanta.get (UInt64.ofNat (R + 1)) = some data) : R + 1 < 2 ^ 64 := by
  by_contra hge
  have hwrap : R + 1 = 2 ^ 64 := by omega
  have hzero : quanta.get (UInt64.ofNat (R + 1)) = none := by
    rw [hwrap]
    exact h.gone _ (Nat.zero_le R)
  exact absurd (hzero.symm.trans hget) nofun

/-- The test of the loop is a count of names. A quantum without an entry has no reporter. -/
theorem isComplete_iff (h : Holds cap cs quanta R) (hn : 0 < n) (hq : R < q.toNat) :
    IsComplete n cs q.toNat ↔ ∃ data, quanta.get q = some data ∧ data.doneNodes.toList.length = n := by
  rw [h.held q hq, IsComplete]
  split
  · next hnil =>
    have hcard : (reporters cs q.toNat).card = 0 := by simp [reporters, hnil]
    rw [hcard]
    constructor
    · intro hzero
      omega
    · rintro ⟨data, hdata, -⟩
      exact absurd hdata nofun
  · rw [← length_doneNodes_collect cap]
    constructor
    · intro hlen
      exact ⟨_, rfl, hlen⟩
    · rintro ⟨data, hdata, hlen⟩
      rw [Option.some.inj hdata]
      exact hlen

end Holds

/-! ## The loop -/

/-- A quantum as the loop completes it. -/
def completedAt (cap : Nat) (cs : List DoneCall) (q : Nat) : Completed :=
  ⟨UInt64.ofNat q, sort (collect cap (reports cs q)).messages⟩

/-- The quanta up to `R` are released, and `R + 1` cannot be. -/
def Settled (n : Nat) (cs : List DoneCall) (R : Nat) : Prop :=
  R < 2 ^ 64 ∧ (R + 1 < 2 ^ 64 → ¬ IsComplete n cs (R + 1))

/-- What the loop achieves between two settled counts of released quanta. -/
structure Advanced (n cap : Nat) (cs : List DoneCall) (R R' : Nat) (r : QuantumBarrier.Advance) :
    Prop where
  le : R ≤ R'
  settled : Settled n cs R'
  complete : ∀ q, R < q → q ≤ R' → IsComplete n cs q
  completed_eq : r.completed = (List.range' (R + 1) (R' - R)).map (completedAt cap cs)
  current_eq : r.currentQ = UInt64.ofNat (R' + 1)
  holds : Holds cap cs r.quanta R'

theorem toNat_ofNat_succ {R : Nat} (h : R + 1 < 2 ^ 64) : (UInt64.ofNat (R + 1)).toNat = R + 1 :=
  toNat_ofNat_of_lt' h

variable {quanta : HashMap UInt64 QuantumData}

/-- Where the loop stops at once. -/
theorem advanced_of_stop {n cap R : Nat} (hn : 0 < n) (hR : R < 2 ^ 64) (h : Holds cap cs quanta R)
    (hstop : ∀ data, quanta.get (UInt64.ofNat (R + 1)) = some data → data.doneNodes.toList.length ≠ n) :
    Advanced n cap cs R R ⟨[], UInt64.ofNat (R + 1), quanta⟩ where
  le := le_rfl
  settled := by
    refine ⟨hR, fun hlt hcomplete => ?_⟩
    have hnat := toNat_ofNat_succ hlt
    rw [← hnat, h.isComplete_iff hn (by omega)] at hcomplete
    obtain ⟨data, hget, hlen⟩ := hcomplete
    exact hstop data hget hlen
  complete q hq hq' := by omega
  completed_eq := by simp
  current_eq := rfl
  holds := h

/-- One round more in front. -/
theorem Advanced.cons {n cap R R' : Nat} {r : QuantumBarrier.Advance} (hn : 0 < n) (hlt : R + 1 < 2 ^ 64)
    (h : Holds cap cs quanta R) (hget : quanta.get (UInt64.ofNat (R + 1)) = some data)
    (hlen : data.doneNodes.toList.length = n) (hrest : Advanced n cap cs (R + 1) R' r) :
    Advanced n cap cs R R'
      { r with completed := ⟨UInt64.ofNat (R + 1), sort data.messages⟩ :: r.completed } where
  le := Nat.le_of_succ_le hrest.le
  settled := hrest.settled
  complete q hq hq' := by
    rcases Nat.lt_or_ge (R + 1) q with hlater | hfirst
    · exact hrest.complete q hlater hq'
    · obtain rfl : q = R + 1 := by omega
      have hnat := toNat_ofNat_succ hlt
      rw [← hnat, h.isComplete_iff hn (by omega)]
      exact ⟨data, hget, hlen⟩
  completed_eq := by
    have hnat := toNat_ofNat_succ hlt
    have hdata := h.eq_collect (by omega) hget
    have hle := hrest.le
    have hlength : R' - R = R' - (R + 1) + 1 := by omega
    rw [hlength, List.range'_succ, map_cons, ← hrest.completed_eq, completedAt, hdata, hnat]
  current_eq := hrest.current_eq
  holds := hrest.holds

/-- **The loop releases every complete quantum and stops at the first that is not.** By induction on
the rounds: each removes an entry, so there is one left for every entry. -/
theorem advance_spec {n cap : Nat} (hn : 0 < n) (rounds : Nat) :
    ∀ {R : Nat} {quanta : HashMap UInt64 QuantumData}, R < 2 ^ 64 → Holds cap cs quanta R →
      quanta.toList.length ≤ rounds → ∃ R', Advanced n cap cs R R'
        (QuantumBarrier.advance n rounds (UInt64.ofNat (R + 1)) quanta) := by
  induction rounds with
  | zero =>
    intro R quanta hR h hrounds
    have hnil : quanta.toList = [] := length_eq_zero_iff.mp (Nat.le_zero.mp hrounds)
    refine ⟨R, advanced_of_stop hn hR h fun data hget => ?_⟩
    rw [HashMap.get_eq_some_iff, hnil] at hget
    exact absurd hget not_mem_nil
  | succ rounds ih =>
    intro R quanta hR h hrounds
    rw [QuantumBarrier.advance]
    cases hget : quanta.get (UInt64.ofNat (R + 1)) with
    | none =>
      refine ⟨R, advanced_of_stop hn hR h fun data hdata => ?_⟩
      exact absurd (hget.symm.trans hdata) nofun
    | some data =>
      simp only
      by_cases hlen : data.doneNodes.toList.length = n
      · have hlt := h.succ_lt_of_get hR hget
        have hfewer := quanta.length_remove_lt hget
        obtain ⟨R', hrest⟩ := ih hlt (h.remove (toNat_ofNat_succ hlt)) (by omega)
        have hnext : UInt64.ofNat (R + 1) + 1 = UInt64.ofNat (R + 1 + 1) :=
          (ofNat_add (R + 1) 1).symm
        rw [if_pos hlen, hnext]
        exact ⟨R', hrest.cons hn hlt h hget hlen⟩
      · rw [if_neg hlen]
        refine ⟨R, advanced_of_stop hn hR h fun data' hdata => ?_⟩
        rw [hget] at hdata
        rw [← Option.some.inj hdata]
        exact hlen

/-! ## The barrier after any calls -/

/-- What a barrier is after the calls `cs`, the quanta up to `R` being released. -/
structure History (n cap : Nat) (cs : List DoneCall) (b : QuantumBarrier) (R : Nat) : Prop where
  nNodes_eq : b.nNodes = n
  cap_eq : b.maxMessagesPerNode = cap
  current_eq : b.currentQuantum = UInt64.ofNat (R + 1)
  settled : Settled n cs R
  holds : Holds cap cs b.quanta R

/-- The quanta a call releases. -/
def completedOf : Except BarrierError (List Completed) → List Completed
  | .ok completed => completed
  | .error _ => []

/-- A fresh barrier. -/
theorem history_new {n : Nat} (hn : 0 < n) (cap : Nat) : History n cap [] (QuantumBarrier.new n cap) 0 where
  nNodes_eq := rfl
  cap_eq := rfl
  current_eq := rfl
  settled := by
    refine ⟨by omega, fun _ hcomplete => ?_⟩
    have hzero : 0 = n := hcomplete
    omega
  holds := ⟨fun _ _ => rfl, fun _ _ => rfl⟩

/-- What one call does to the released quanta. -/
structure CallSpec (n cap : Nat) (cs : List DoneCall) (c : DoneCall) (R R' : Nat)
    (r : QuantumBarrier × Except BarrierError (List Completed)) : Prop where
  le : R ≤ R'
  history : History n cap (cs ++ [c]) r.1 R'
  complete : ∀ q, R < q → q ≤ R' → IsComplete n (cs ++ [c]) q
  completed_eq : completedOf r.2 = (List.range' (R + 1) (R' - R)).map (completedAt cap (cs ++ [c]))
  /-- Only a repeated report is turned down. -/
  isOk : c.nodeId ∉ reporters cs c.quantum.toNat → r.2 = .ok (completedOf r.2)

/-- A call that leaves the next quantum with the reporters it had moves nothing. -/
theorem callSpec_of_unmoved {n cap R : Nat} {b : QuantumBarrier}
    (h : History n cap cs b R) (hR : R + 1 < 2 ^ 64) (hholds : Holds cap (cs ++ [c]) quanta R)
    (hsame : reporters (cs ++ [c]) (R + 1) = reporters cs (R + 1))
    {result : Except BarrierError (List Completed)} (hnone : completedOf result = [])
    (hok : c.nodeId ∉ reporters cs c.quantum.toNat → result = .ok (completedOf result)) :
    CallSpec n cap cs c R R ({ b with quanta := quanta }, result) where
  le := le_rfl
  history := by
    refine ⟨h.nNodes_eq, h.cap_eq, h.current_eq, ⟨h.settled.1, fun _ => ?_⟩, hholds⟩
    rw [IsComplete, hsame]
    exact h.settled.2 hR
  complete q hq hq' := by omega
  completed_eq := by
    rw [hnone, Nat.sub_self]
    rfl
  isOk := hok

/-- **What a call does**: the loop runs on from the released quanta, over the reports including the new
one. A stale report and a repeated one move nothing. -/
theorem history_step {n cap R : Nat} {b : QuantumBarrier} (hn : 0 < n)
    (h : History n cap cs b R) (hR : R + 1 < 2 ^ 64) (c : DoneCall) :
    ∃ R', CallSpec n cap cs c R R' (b.submit c) := by
  have hstale : c.quantum < b.currentQuantum ↔ c.quantum.toNat ≤ R := by
    rw [lt_iff_toNat_lt, h.current_eq, toNat_ofNat_succ hR]
    omega
  have hmem : c.nodeId ∈ (collect cap (reports cs c.quantum.toNat)).doneNodes.toList ↔
      c.nodeId ∈ reporters cs c.quantum.toNat := by
    rw [mem_doneNodes_collect, reporters, mem_toFinset]
  rw [QuantumBarrier.submit]
  by_cases hold : c.quantum.toNat ≤ R
  · rw [if_pos (hstale.mpr hold)]
    exact ⟨R, callSpec_of_unmoved h hR (h.holds.concat_stale hold)
      (reporters_concat_of_ne (by omega)) rfl fun _ => rfl⟩
  · have hnew : R < c.quantum.toNat := by omega
    simp only [if_neg (mt hstale.mp hold), h.holds.getD_eq hnew]
    have hdata := collect_concat cap (reports cs c.quantum.toNat) c
    rw [← reports_concat_self] at hdata
    by_cases hdup : c.nodeId ∈ (collect cap (reports cs c.quantum.toNat)).doneNodes.toList
    · rw [if_pos hdup] at hdata ⊢
      exact ⟨R, callSpec_of_unmoved h hR (h.holds.insert hnew hdata.symm)
        (reporters_concat_of_mem (hmem.mp hdup)) rfl fun hfresh => absurd (hmem.mp hdup) hfresh⟩
    · rw [if_neg hdup] at hdata ⊢
      rw [h.nNodes_eq, h.cap_eq, h.current_eq]
      obtain ⟨R', hadv⟩ := advance_spec hn _ h.settled.1 (h.holds.insert hnew hdata.symm) le_rfl
      exact ⟨R', ⟨hadv.le, ⟨rfl, rfl, hadv.current_eq, hadv.settled, hadv.holds⟩, hadv.complete,
        hadv.completed_eq, fun _ => rfl⟩⟩

end Virtmcu.ZenohCoordinator
