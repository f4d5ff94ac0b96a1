import Virtmcu.Clock.Handshake
import Mathlib.Algebra.Order.BigOperators.Group.List
import Mathlib.Algebra.Order.Ring.Nat

/-! # The golden rule of the clock

Virtual time advances by what the time authority grants. As a statement about the device: whenever the
worker replies, the deltas the vCPU has taken are those of the requests that were answered without an
error, each once, and perhaps some of those that were answered with a stall.

The device keeps the rule as long as two races are lost by nobody: no delta is stored over one that is
granted and not yet taken, and the vCPU does not enter its wait afresh on such a grant while the worker
waits for it (`undisturbed`). Neither is excluded by the code. -/

namespace Virtmcu.Clock

open List

/-! ## Accounts -/

/-- The deltas are those of some of the answered requests, in order, and of all that were answered
without an error. -/
def Settled (answers : List (UInt64 × ErrorCode)) (deltas : List UInt64) : Prop :=
  ∃ chosen : List (UInt64 × ErrorCode), chosen.Sublist answers ∧
    chosen.filter (·.2 = .ok) = answers.filter (·.2 = .ok) ∧ chosen.map Prod.fst = deltas

/-- The delta, if it is not zero. -/
def nonzero (d : UInt64) : List UInt64 := [d].filter (· ≠ 0)

/-- The answer to a request for some time. -/
def nonzeroAnswer (d : UInt64) (code : ErrorCode) : List (UInt64 × ErrorCode) :=
  [(d, code)].filter (·.1 ≠ 0)

@[simp] theorem nonzero_zero : nonzero 0 = [] := by decide

@[simp] theorem nonzeroAnswer_zero (code : ErrorCode) : nonzeroAnswer 0 code = [] := by
  simp [nonzeroAnswer]

section

variable {answers : List (UInt64 × ErrorCode)} {deltas : List UInt64}

theorem settled_nil : Settled [] [] := ⟨[], .slnil, rfl, rfl⟩

/-- A request is answered whose delta was taken. -/
theorem Settled.taken (h : Settled answers deltas) (d : UInt64) (code : ErrorCode) :
    Settled (answers ++ nonzeroAnswer d code) (deltas ++ nonzero d) := by
  obtain ⟨chosen, hsub, hok, hmap⟩ := h
  refine ⟨chosen ++ nonzeroAnswer d code, hsub.append (List.Sublist.refl _), ?_, ?_⟩
  · rw [filter_append, filter_append, hok]
  · rw [map_append, hmap]
    by_cases hd : d = 0
    · simp [hd]
    · simp [nonzeroAnswer, nonzero, hd]

/-- A request is answered with a stall, and its delta was not taken. -/
theorem Settled.skipped (h : Settled answers deltas) (d : UInt64) :
    Settled (answers ++ nonzeroAnswer d .stall) deltas := by
  obtain ⟨chosen, hsub, hok, hmap⟩ := h
  refine ⟨chosen, hsub.trans (sublist_append_left _ _), ?_, hmap⟩
  rw [filter_append, hok]
  by_cases hd : d = 0
  · simp [hd]
  · simp [nonzeroAnswer, hd]

end

/-! ## Sums -/

/-- The sum of deltas. -/
def deltaSum (deltas : List UInt64) : Nat := (deltas.map UInt64.toNat).sum

/-- The sum of the deltas of the requests with the given answer. -/
def answeredSum (code : ErrorCode) (answers : List (UInt64 × ErrorCode)) : Nat :=
  deltaSum ((answers.filter (·.2 = code)).map Prod.fst)

theorem deltaSum_filter_ne_zero (deltas : List UInt64) :
    deltaSum (deltas.filter (· ≠ 0)) = deltaSum deltas := by
  induction deltas with
  | nil => rfl
  | cons d deltas ih =>
    by_cases hd : d = 0
    · subst hd
      simpa [deltaSum] using ih
    · simpa [deltaSum, hd] using ih

theorem answeredSum_filter_ne_zero (code : ErrorCode) (answers : List (UInt64 × ErrorCode)) :
    answeredSum code (answers.filter (·.1 ≠ 0)) = answeredSum code answers := by
  induction answers with
  | nil => rfl
  | cons a answers ih =>
    obtain ⟨d, c⟩ := a
    by_cases hd : d = 0
    · subst hd
      by_cases hc : c = code
      · simpa [answeredSum, deltaSum, hc] using ih
      · simpa [answeredSum, hc] using ih
    · by_cases hc : c = code
      · simpa [answeredSum, deltaSum, hd, hc] using ih
      · simpa [answeredSum, hd, hc] using ih

theorem deltaSum_map_fst (answers : List (UInt64 × ErrorCode)) :
    deltaSum (answers.map Prod.fst) = answeredSum .ok answers + answeredSum .stall answers := by
  induction answers with
  | nil => rfl
  | cons a answers ih =>
    obtain ⟨d, c⟩ := a
    simp only [answeredSum, deltaSum] at ih ⊢
    cases c with
    | ok | stall =>
      simp only [map_cons, sum_cons, filter_cons, decide_true, if_true, reduceCtorEq,
        decide_false, Bool.false_eq_true, if_false]
      omega

/-- Taking no more than what is granted never sums to more. -/
theorem answeredSum_le_of_sublist {code : ErrorCode} {l l' : List (UInt64 × ErrorCode)}
    (h : l.Sublist l') : answeredSum code l ≤ answeredSum code l' :=
  List.Sublist.sum_le_sum (((h.filter _).map _).map _) fun _ _ => Nat.zero_le _

/-- Settled accounts sum up to the granted time, give or take the stalled requests. -/
theorem Settled.deltaSum_eq {answers : List (UInt64 × ErrorCode)} {deltas : List UInt64}
    (h : Settled answers deltas) : answeredSum .ok answers ≤ deltaSum deltas ∧
      deltaSum deltas ≤ answeredSum .ok answers + answeredSum .stall answers := by
  obtain ⟨chosen, hsub, hok, rfl⟩ := h
  have hsum := deltaSum_map_fst chosen
  have hstall : answeredSum .stall chosen ≤ answeredSum .stall answers :=
    answeredSum_le_of_sublist hsub
  have heq : answeredSum .ok chosen = answeredSum .ok answers := by rw [answeredSum, hok, answeredSum]
  omega

/-- **The golden rule**, of what has been seen of a run. -/
structure GoldenRule (log : List Event) : Prop where
  /-- No delta is lost, taken twice or replaced. -/
  matched : Settled ((answered log).filter (·.1 ≠ 0)) ((taken log).filter (· ≠ 0))
  /-- The vCPU has taken what was answered without an error, -/
  sum_ge : answeredSum .ok (answered log) ≤ deltaSum (taken log)
  /-- and at most what was answered with a stall besides. -/
  sum_le : deltaSum (taken log) ≤
    answeredSum .ok (answered log) + answeredSum .stall (answered log)

theorem goldenRule_of_settled {log : List Event}
    (h : Settled ((answered log).filter (·.1 ≠ 0)) ((taken log).filter (· ≠ 0))) : GoldenRule log := by
  have hsums := h.deltaSum_eq
  rw [deltaSum_filter_ne_zero, answeredSum_filter_ne_zero, answeredSum_filter_ne_zero] at hsums
  exact ⟨h, hsums.1, hsums.2⟩

/-! ## The condition -/

/-- The worker waits for the vCPU to execute what it has granted. -/
def WorkerPc.isAwaiting : WorkerPc → Bool
  | .notify _ | .execTop _ | .execLoad _ | .execCheck _ | .execAsleep _ => true
  | _ => false

/-- The step does not disturb a grant: there is no shutdown, the worker stores a delta only when no
other one is granted and untaken, and a vCPU that enters its wait afresh leaves an untaken grant behind
only if it is for no time, a stall is pending or the worker has stopped waiting for it. A delta stored over an
untaken grant of no time would be taken for that grant, and then once more for its own. -/
def undisturbed (s : System) : Move → Bool
  | .shutdown => false
  | .worker _ =>
      match s.worker with
      | .storeDelta _ => (untaken s.log).isNone
      | _ => true
  | .vcpu _ =>
      match s.vcpu.pc with
      | .enter =>
          match untaken s.log with
          | some d => d = 0 || s.backend.pendingStall || !s.worker.isAwaiting
          | none => true
      | _ => true

/-! ## The invariant -/

namespace WorkerPhase

/-- Nothing is granted on behalf of the present request, or nothing will come of it. -/
def isUngranted : WorkerPhase → Prop
  | idle | arrived _ | ready _ | granting _ | deciding _ .stall | decided _ .stall => True
  | executing _ | deciding _ .ok | decided _ .ok => False

/-- The request is granted. -/
def HasGranted (d : UInt64) : WorkerPhase → Prop
  | executing d' | deciding d' _ | decided d' _ => d' = d
  | _ => False

/-- The worker is about to answer that everything went well. -/
def isOk : WorkerPhase → Prop
  | deciding _ .ok | decided _ .ok => True
  | _ => False

end WorkerPhase

/-- How the answers so far and the deltas taken so far fit together, given the phase of the worker, the
untaken grant and whether a stall is pending. -/
inductive Balanced : WorkerPhase → Option UInt64 → Bool →
    List (UInt64 × ErrorCode) → List UInt64 → Prop
  /-- Nothing is granted. -/
  | settled {w p answers deltas} (hw : w.isUngranted) (h : Settled answers deltas) :
      Balanced w none p answers deltas
  /-- The last request was answered, and its grant is still there. -/
  | late {w p answers deltas} (d : UInt64) (hw : w = .idle ∨ ∃ d', w = .arrived d')
      (h : Settled answers deltas) :
      Balanced w (some d) p (answers ++ nonzeroAnswer d .stall) deltas
  /-- The present request is granted, and nobody has taken it. -/
  | granted {w p answers deltas} (d : UInt64) (hw : w.HasGranted d) (hok : w.isOk → d = 0)
      (h : Settled answers deltas) : Balanced w (some d) p answers deltas
  /-- The present request is granted, and the vCPU has taken it. -/
  | taken {w p answers deltas} (d : UInt64) (hw : w.HasGranted d) (h : Settled answers deltas) :
      Balanced w none p answers (deltas ++ nonzero d)
  /-- The grant was withdrawn, with no consequence other than a stall. -/
  | withdrawn {w p answers deltas} (d : UInt64)
      (hw : w = .executing d ∨ w = .deciding d .ok) (hd : d = 0 ∨ p = true)
      (h : Settled answers deltas) : Balanced w none p answers deltas

namespace Balanced

variable {w : WorkerPhase} {u : Option UInt64} {p : Bool} {answers : List (UInt64 × ErrorCode)}
  {deltas : List UInt64} {d : UInt64} {code : ErrorCode}

theorem stall (h : Balanced w u p answers deltas) : Balanced w u true answers deltas := by
  cases h with
  | settled hw h => exact .settled hw h
  | late d hw h => exact .late d hw h
  | granted d hw hok h => exact .granted d hw hok h
  | taken d hw h => exact .taken d hw h
  | withdrawn d hw _ h => exact .withdrawn d hw (.inr rfl) h

/-- The vCPU enters its wait afresh. -/
theorem announce (h : Balanced w u p answers deltas)
    (hlost : ∀ d, u = some d → w = .executing d → d = 0 ∨ p = true) : Balanced w none p answers deltas := by
  cases h with
  | settled hw h => exact .settled hw h
  | late d hw h =>
    -- the request was answered with a stall, or was for no time
    refine .settled ?_ (h.skipped d)
    rcases hw with rfl | ⟨d', rfl⟩
    · trivial
    · trivial
  | granted d hw hok h =>
    cases w with
    | executing d' =>
      obtain rfl : d' = d := hw
      exact .withdrawn d' (.inl rfl) (hlost d' rfl rfl) h
    | deciding d' code =>
      obtain rfl : d' = d := hw
      cases code with
      | ok => exact .withdrawn d' (.inr rfl) (.inl (hok trivial)) h
      | stall => exact .settled trivial h
    | decided d' code =>
      obtain rfl : d' = d := hw
      cases code with
      | ok =>
        -- a delta of zero is as good as taken
        have hzero : d' = 0 := hok trivial
        have htaken := Balanced.taken (w := .decided d' .ok) (p := p) d' rfl h
        rw [hzero, nonzero_zero, append_nil] at htaken
        rwa [hzero]
      | stall => exact .settled trivial h
    | _ => exact hw.elim
  | taken d hw h => exact .taken d hw h
  | withdrawn d hw hd h => exact .withdrawn d hw hd h

/-- The vCPU takes the grant. -/
theorem take (h : Balanced w (some d) p answers deltas) :
    Balanced w none p answers (deltas ++ nonzero d) := by
  cases h with
  | late _ hw h =>
    refine .settled ?_ (h.taken d .stall)
    rcases hw with rfl | ⟨d', rfl⟩
    · trivial
    · trivial
  | granted _ hw _ h => exact .taken d hw h

theorem receive (h : Balanced .idle u p answers deltas) : Balanced (.arrived d) u p answers deltas := by
  cases h with
  | settled _ h => exact .settled trivial h
  | late d' _ h => exact .late d' (.inr ⟨d, rfl⟩) h
  | granted _ hw _ _ | taken _ hw _ => exact hw.elim
  | withdrawn _ hw _ _ => rcases hw with hw | hw <;> cases hw

theorem store (h : Balanced (.arrived d) none p answers deltas) :
    Balanced (.ready d) none p answers deltas := by
  cases h with
  | settled _ h => exact .settled trivial h
  | taken _ hw _ => exact hw.elim
  | withdrawn _ hw _ _ => rcases hw with hw | hw <;> cases hw

theorem ready (h : Balanced (.ready d) u p answers deltas) : Balanced (.granting d) u p answers deltas := by
  cases h with
  | settled _ h => exact .settled trivial h
  | late _ hw _ => rcases hw with hw | ⟨_, hw⟩ <;> cases hw
  | granted _ hw _ _ | taken _ hw _ => exact hw.elim
  | withdrawn _ hw _ _ => rcases hw with hw | hw <;> cases hw

theorem grant (h : Balanced (.granting d) u p answers deltas) :
    Balanced (.executing d) (some d) p answers deltas := by
  cases h with
  | settled _ h => exact .granted d rfl (fun hok => hok.elim) h
  | late _ hw _ => rcases hw with hw | ⟨_, hw⟩ <;> cases hw
  | granted _ hw _ _ | taken _ hw _ => exact hw.elim
  | withdrawn _ hw _ _ => rcases hw with hw | hw <;> cases hw

/-- The worker finds the vCPU waiting, or does not look. -/
theorem finish (h : Balanced (.executing d) u p answers deltas) (hdone : d = 0 ∨ u = none) :
    Balanced (.deciding d .ok) u p answers deltas := by
  cases h with
  | settled hw _ => exact hw.elim
  | late _ hw _ => rcases hw with hw | ⟨_, hw⟩ <;> cases hw
  | granted d' hw _ h =>
    obtain rfl : d = d' := hw
    rcases hdone with hzero | hnone
    · exact .granted d rfl (fun _ => hzero) h
    · cases hnone
  | taken d' hw h =>
    obtain rfl : d = d' := hw
    exact .taken d rfl h
  | withdrawn d' hw hd h =>
    rcases hw with hw | hw
    · cases hw
      exact .withdrawn d (.inr rfl) hd h
    · cases hw

theorem timeOut (hw : w = .ready d ∨ w = .executing d) (h : Balanced w u p answers deltas) :
    Balanced (.deciding d .stall) u p answers deltas := by
  cases h with
  | settled _ h => exact .settled trivial h
  | late _ hidle _ => rcases hw with rfl | rfl <;> rcases hidle with hidle | ⟨_, hidle⟩ <;> cases hidle
  | granted d' hgranted _ h =>
    rcases hw with rfl | rfl
    · exact hgranted.elim
    · obtain rfl : d = d' := hgranted
      exact .granted d rfl (fun hok => hok.elim) h
  | taken d' hgranted h =>
    rcases hw with rfl | rfl
    · exact hgranted.elim
    · obtain rfl : d = d' := hgranted
      exact .taken d rfl h
  | withdrawn _ _ _ h => exact .settled trivial h

/-- A pending stall overrides the answer. -/
theorem swap (h : Balanced (.deciding d code) u p answers deltas) :
    Balanced (.decided d (if p then .stall else code)) u false answers deltas := by
  cases h with
  | settled hw h =>
    cases code with
    | ok => exact hw.elim
    | stall =>
      rw [ite_self]
      exact .settled trivial h
  | late _ hw _ => rcases hw with hw | ⟨_, hw⟩ <;> cases hw
  | granted d' hw hok h =>
    obtain rfl : d = d' := hw
    refine .granted d rfl ?_ h
    cases p with
    | true => exact fun hstall => hstall.elim
    | false =>
      cases code with
      | ok => exact hok
      | stall => exact fun hstall => hstall.elim
  | taken d' hw h =>
    obtain rfl : d = d' := hw
    exact .taken d rfl h
  | withdrawn d' hw hd h =>
    rcases hw with hw | hw
    · cases hw
    · cases hw
      cases p with
      | true => exact .settled trivial h
      | false =>
        -- nothing was granted, so nothing is missing
        have hzero : d = 0 := hd.resolve_right Bool.false_ne_true
        have htaken := Balanced.taken (w := .decided d .ok) (p := false) d rfl h
        rw [hzero, nonzero_zero, append_nil] at htaken
        rwa [hzero]

theorem reply (h : Balanced (.decided d code) u p answers deltas) :
    Balanced .idle u p (answers ++ nonzeroAnswer d code) deltas := by
  cases h with
  | settled hw h =>
    cases code with
    | ok => exact hw.elim
    | stall => exact .settled trivial (h.skipped d)
  | late _ hw _ => rcases hw with hw | ⟨_, hw⟩ <;> cases hw
  | granted d' hw hok h =>
    obtain rfl : d = d' := hw
    cases code with
    | ok =>
      have hlate := Balanced.late (w := .idle) (p := p) d (.inl rfl) h
      rw [hok trivial] at hlate ⊢
      rwa [nonzeroAnswer_zero] at hlate ⊢
    | stall => exact .late d (.inl rfl) h
  | taken d' hw h =>
    obtain rfl : d = d' := hw
    exact .settled trivial (h.taken d code)
  | withdrawn _ hw _ _ => rcases hw with hw | hw <;> cases hw

/-- Between two requests the accounts are settled. -/
theorem settled_of_idle (h : Balanced .idle u p answers deltas) : Settled answers deltas := by
  cases h with
  | settled _ h => exact h
  | late d _ h => exact h.skipped d
  | granted _ hw _ _ | taken _ hw _ => exact hw.elim
  | withdrawn _ hw _ _ => rcases hw with hw | hw <;> cases hw

end Balanced

/-- The answered requests that asked for time. -/
def answeredNonzero (log : List Event) : List (UInt64 × ErrorCode) :=
  (answered log).filter (·.1 ≠ 0)

/-- The deltas taken, but for those that are zero. -/
def takenNonzero (log : List Event) : List UInt64 := (taken log).filter (· ≠ 0)

/-- **The invariant of the handshake.** -/
structure Accounted (h : Handshake) : Prop where
  /-- An untaken grant is visible, -/
  executing_of_untaken : ∀ d, untaken h.log = some d → h.state = .executing
  /-- a vCPU that waits and sees one can take it, -/
  untaken_of_executing : h.vcpu = .attentive ∨ h.vcpu = .taking → h.state = .executing →
    untaken h.log ≠ none
  taking : h.vcpu = .taking → h.state = .executing
  granting : ∀ d, h.worker = .granting d → h.state = .waiting
  stored : ∀ d, h.worker = .ready d ∨ h.worker = .granting d → h.deltaNs = d
  /-- and it finds the delta of the request. -/
  delta : ∀ d, untaken h.log = some d → h.deltaNs = d
  requests_eq : ∃ old, requests h.log = old ++ h.worker.current ∧
    old.length = (replies h.log).length
  balanced : Balanced h.worker (untaken h.log) h.pendingStall (answeredNonzero h.log)
    (takenNonzero h.log)

/-! ## What the events do to the accounts -/

section

variable (log : List Event)

/-- Requests without an answer do not count as answered. -/
theorem zip_append_left {old : List UInt64} {codes : List ErrorCode}
    (hlength : old.length = codes.length) (new : List UInt64) : (old ++ new).zip codes = old.zip codes := by
  have hzip : (old ++ new).zip (codes ++ []) = old.zip codes ++ new.zip [] :=
    zip_append hlength
  simpa using hzip

theorem answered_append_received {log : List Event}
    (hlength : (requests log).length = (replies log).length) (d : UInt64) :
    answered (log ++ [.received d]) = answered log := by
  have hnone : replies [.received d] = [] := rfl
  unfold answered
  rw [requests_append, replies_append, hnone, append_nil, zip_append_left hlength]

/-- The last request received is answered. -/
theorem answeredNonzero_append_replied {log : List Event} {old : List UInt64} {d : UInt64}
    (hrequests : requests log = old ++ [d]) (hlength : old.length = (replies log).length)
    (resp : ClockReadyResp) : answeredNonzero (log ++ [.replied resp]) =
      answeredNonzero log ++ nonzeroAnswer d resp.errorCode := by
  have hreplies : replies [.replied resp] = [resp.errorCode] := rfl
  have hnone : requests [.replied resp] = [] := rfl
  have hanswered : answered (log ++ [.replied resp]) = answered log ++ [(d, resp.errorCode)] := by
    unfold answered
    rw [requests_append, replies_append, hrequests, hreplies, hnone, append_nil,
      zip_append hlength, zip_append_left hlength]
    rfl
  rw [answeredNonzero, hanswered, filter_append]
  rfl

theorem takenNonzero_append_took (d : UInt64) :
    takenNonzero (log ++ [.took d]) = takenNonzero log ++ nonzero d := by
  rw [takenNonzero, taken_append, filter_append]
  rfl

end

/-! ## Every step keeps the accounts -/

theorem accounted_initial : Accounted System.initial.handshake where
  executing_of_untaken _ h := by cases h
  untaken_of_executing _ h := by cases h
  taking h := by cases h
  granting _ h := by cases h
  stored _ h := by rcases h with h | h <;> cases h
  delta _ h := by cases h
  requests_eq := ⟨[], rfl, rfl⟩
  balanced := .settled trivial settled_nil

section

variable {h : Handshake}

/-- The vCPU leaves its wait without a delta. -/
theorem Accounted.leave (hinv : Accounted h) {v : VcpuPhase} (hv : v = .outside ∨ v = .stalling) :
    Accounted { h with vcpu := v } := by
  refine { hinv with untaken_of_executing := ?_, taking := ?_ }
  · intro hwaits
    rcases hv with rfl | rfl <;> rcases hwaits with hwaits | hwaits <;> cases hwaits
  · intro htaking
    rcases hv with rfl | rfl <;> cases htaking

theorem Accounted.stall (hinv : Accounted h) : Accounted { h with pendingStall := true } :=
  { hinv with balanced := hinv.balanced.stall }

/-- A vCPU that sees a grant sees an untaken one, and finds its delta. -/
theorem Accounted.untaken_of_taking (hinv : Accounted h) (hv : h.vcpu = .taking) :
    untaken h.log = some h.deltaNs := by
  have hsome := hinv.untaken_of_executing (.inr hv) (hinv.taking hv)
  obtain ⟨d, hd⟩ := Option.ne_none_iff_exists'.mp hsome
  rw [hd, hinv.delta d hd]

theorem Accounted.announce (hinv : Accounted h)
    (hlost : ∀ d, untaken h.log = some d → h.worker = .executing d → d = 0 ∨ h.pendingStall = true) :
    Accounted { h with vcpu := .attentive, state := .waiting, log := h.log ++ [.waiting] } := by
  have hinternal : Event.waiting.isInternal = true := rfl
  refine ⟨?_, ?_, ?_, fun _ _ => rfl, hinv.stored, ?_, ?_, ?_⟩
  · intro d hd
    simp at hd
  · intro _ hs
    cases hs
  · intro hv
    cases hv
  · intro d hd
    simp at hd
  · rw [requests_append_of_isInternal _ hinternal, replies_append_of_isInternal _ hinternal]
    exact hinv.requests_eq
  · rw [untaken_append_waiting, answeredNonzero, answered, takenNonzero,
      requests_append_of_isInternal _ hinternal, replies_append_of_isInternal _ hinternal,
      taken_append_of_isInternal _ hinternal]
    exact hinv.balanced.announce hlost

theorem Accounted.take (hinv : Accounted h) (hv : h.vcpu = .taking) :
    Accounted { h with vcpu := .outside, log := h.log ++ [.took h.deltaNs] } := by
  have hrequests : requests (h.log ++ [.took h.deltaNs]) = requests h.log := by simp [requests]
  have hreplies : replies (h.log ++ [.took h.deltaNs]) = replies h.log := by simp [replies]
  have hbalanced := hinv.balanced
  rw [hinv.untaken_of_taking hv] at hbalanced
  refine ⟨?_, ?_, ?_, hinv.granting, hinv.stored, ?_, ?_, ?_⟩
  · intro d hd
    simp at hd
  · rintro (hv | hv) <;> cases hv
  · intro hv
    cases hv
  · intro d hd
    simp at hd
  · rw [hrequests, hreplies]
    exact hinv.requests_eq
  · rw [untaken_append_took, takenNonzero_append_took, answeredNonzero, answered, hrequests, hreplies]
    exact hbalanced.take

theorem Accounted.receive (hinv : Accounted h) (hw : h.worker = .idle) (d : UInt64) :
    Accounted { h with worker := .arrived d, log := h.log ++ [.received d] } := by
  obtain ⟨old, hold, hlength⟩ := hinv.requests_eq
  have hbalanced := hinv.balanced
  rw [hw] at hold hbalanced
  have hold' : requests h.log = old := by simpa [WorkerPhase.current] using hold
  have htaken : taken (h.log ++ [.received d]) = taken h.log := by simp [taken]
  have hreplies : replies (h.log ++ [.received d]) = replies h.log := by simp [replies]
  refine ⟨?_, ?_, hinv.taking, ?_, ?_, ?_, ⟨old, ?_, ?_⟩, ?_⟩
  · intro d' hd'
    rw [untaken_append_received] at hd'
    exact hinv.executing_of_untaken d' hd'
  · rw [untaken_append_received]
    exact hinv.untaken_of_executing
  · intro d' hw'
    cases hw'
  · rintro d' (hw' | hw') <;> cases hw'
  · intro d' hd'
    rw [untaken_append_received] at hd'
    exact hinv.delta d' hd'
  · rw [requests_append, hold']
    rfl
  · rw [hreplies]
    exact hlength
  · rw [untaken_append_received, answeredNonzero, answered_append_received (hold' ▸ hlength),
      takenNonzero, htaken]
    exact hbalanced.receive

theorem Accounted.store {d : UInt64} (hinv : Accounted h) (hw : h.worker = .arrived d)
    (hnone : untaken h.log = none) : Accounted { h with worker := .ready d, deltaNs := d } := by
  have hbalanced := hinv.balanced
  have hrequests := hinv.requests_eq
  rw [hw] at hbalanced hrequests
  rw [hnone] at hbalanced
  refine { hinv with
    granting := ?_, stored := ?_, delta := ?_, requests_eq := hrequests, balanced := ?_ }
  · intro d' hw'
    cases hw'
  · rintro d' (hw' | hw')
    · cases hw'
      rfl
    · cases hw'
  · intro d' hd'
    rw [hnone] at hd'
    cases hd'
  · show Balanced _ (untaken h.log) _ _ _
    rw [hnone]
    exact hbalanced.store

theorem Accounted.grant {d : UInt64} (hinv : Accounted h) (hw : h.worker = .granting d) : Accounted
      { h with worker := .executing d, state := .executing, log := h.log ++ [.granted d] } := by
  have hinternal : (Event.granted d).isInternal = true := rfl
  have hbalanced := hinv.balanced
  have hrequests := hinv.requests_eq
  rw [hw] at hbalanced hrequests
  refine ⟨fun _ _ => rfl, ?_, fun _ => rfl, ?_, ?_, ?_, ?_, ?_⟩
  · intro _ _
    simp
  · intro d' hw'
    cases hw'
  · rintro d' (hw' | hw') <;> cases hw'
  · intro d' hd'
    rw [untaken_append_granted] at hd'
    cases hd'
    exact hinv.stored d (.inr hw)
  · rw [requests_append_of_isInternal _ hinternal, replies_append_of_isInternal _ hinternal]
    exact hrequests
  · rw [untaken_append_granted, answeredNonzero, answered, takenNonzero,
      requests_append_of_isInternal _ hinternal, replies_append_of_isInternal _ hinternal,
      taken_append_of_isInternal _ hinternal]
    exact hbalanced.grant

/-- The worker goes on to another phase of the same request. -/
theorem Accounted.proceed (hinv : Accounted h) {w : WorkerPhase} {p : Bool}
    (hcurrent : w.current = h.worker.current) (hgranting : ∀ d, w = .granting d → h.state = .waiting)
    (hstored : ∀ d, w = .ready d ∨ w = .granting d → h.deltaNs = d)
    (hbalanced : Balanced w (untaken h.log) p (answeredNonzero h.log) (takenNonzero h.log)) :
    Accounted { h with worker := w, pendingStall := p } := by
  refine { hinv with
    granting := hgranting, stored := hstored, requests_eq := ?_, balanced := hbalanced }
  rw [hcurrent]
  exact hinv.requests_eq

theorem Accounted.reply {d : UInt64} {resp : ClockReadyResp} (hinv : Accounted h)
    (hw : h.worker = .decided d resp.errorCode) :
    Accounted { h with worker := .idle, log := h.log ++ [.replied resp] } := by
  obtain ⟨old, hold, hlength⟩ := hinv.requests_eq
  have hbalanced := hinv.balanced
  rw [hw] at hbalanced hold
  have hrequests : requests (h.log ++ [.replied resp]) = requests h.log := by simp [requests]
  have htaken : taken (h.log ++ [.replied resp]) = taken h.log := by simp [taken]
  refine ⟨?_, ?_, hinv.taking, ?_, ?_, ?_, ⟨old ++ [d], ?_, ?_⟩, ?_⟩
  · intro d' hd'
    rw [untaken_append_replied] at hd'
    exact hinv.executing_of_untaken d' hd'
  · rw [untaken_append_replied]
    exact hinv.untaken_of_executing
  · intro d' hw'
    cases hw'
  · rintro d' (hw' | hw') <;> cases hw'
  · intro d' hd'
    rw [untaken_append_replied] at hd'
    exact hinv.delta d' hd'
  · rw [hrequests, hold]
    exact (append_nil _).symm
  · rw [replies_append, length_append, length_append, hlength]
    rfl
  · rw [untaken_append_replied, answeredNonzero_append_replied hold hlength, takenNonzero, htaken]
    exact hbalanced.reply

end

/-- **Step lemma**: a step keeps the accounts unless it stores over an untaken grant, or withdraws one
the worker waits for. -/
theorem Accounted.step {a : Action} {h h' : Handshake} (hinv : Accounted h)
    (hstep : Handshake.Step a h h') (hstore : a = .store → untaken h.log = none)
    (hannounce : a = .announce → ∀ d, untaken h.log = some d → h.worker = .executing d →
      d = 0 ∨ h.pendingStall = true) : Accounted h' := by
  have hbalanced := hinv.balanced
  cases hstep with
  | silent => exact hinv
  | refuse _ hv => exact hinv.leave (.inl rfl)
  | giveUp _ hv => exact hinv.leave (.inr rfl)
  | stall _ hv => exact (hinv.leave (.inl rfl)).stall
  | announce _ hv => exact hinv.announce (hannounce rfl)
  | see _ hv hs =>
    exact { hinv with
      untaken_of_executing := fun _ => hinv.untaken_of_executing (.inl hv)
      taking := fun _ => hs }
  | take _ hv hd => exact hinv.take hv
  | misread _ hv hd v hphase =>
    exact { hinv with
      untaken_of_executing := fun _ => hinv.untaken_of_executing (.inr hv)
      taking := fun _ => hinv.taking hv }
  | receive _ d hw => exact hinv.receive hw d
  | store _ d hw => exact hinv.store hw (hstore rfl)
  | ready _ d hw hs =>
    have hdelta := hinv.stored d (.inl hw)
    rw [hw] at hbalanced
    refine hinv.proceed (by rw [hw]; rfl) (fun _ _ => hs) ?_ hbalanced.ready
    rintro d' (hw' | hw') <;> cases hw'
    exact hdelta
  | grant _ d hw hs => exact hinv.grant hw
  | grantFailed _ d hw hs =>
    -- the worker has seen the state `Waiting`, and nobody else leaves it
    have hwaiting := hinv.granting d hw
    rw [hs] at hwaiting
    cases hwaiting
  | finish _ d hw hdone =>
    rw [hw] at hbalanced
    refine hinv.proceed (by rw [hw]; rfl) (fun _ hw' => by cases hw') ?_ (hbalanced.finish ?_)
    · rintro d' (hw' | hw') <;> cases hw'
    · rcases hdone with hzero | hs
      · exact .inl hzero
      · right
        by_contra hsome
        obtain ⟨d', hd'⟩ := Option.ne_none_iff_exists'.mp hsome
        have hexecuting := hinv.executing_of_untaken d' hd'
        rw [hs] at hexecuting
        cases hexecuting
  | timeOut _ d hw =>
    refine hinv.proceed ?_ (fun _ hw' => by cases hw') ?_ (hbalanced.timeOut hw)
    · rcases hw with hw | hw <;> rw [hw] <;> rfl
    · rintro d' (hw' | hw') <;> cases hw'
  | swap _ d code hw =>
    rw [hw] at hbalanced
    refine hinv.proceed (by rw [hw]; rfl) (fun _ hw' => by cases hw') ?_ hbalanced.swap
    rintro d' (hw' | hw') <;> cases hw'
  | reply _ d resp hw => exact hinv.reply hw

/-! ## Main result -/

/-- A worker that waits for its grant to be executed is in that phase. -/
theorem WorkerPc.isAwaiting_of_phase {w : WorkerPc} {d : UInt64} (h : w.phase = .executing d) :
    w.isAwaiting = true := by
  cases w <;> first | rfl | cases h

/-- **Run lemma**: undisturbed runs keep the accounts. -/
theorem accounted_of_undisturbed {s : System}
    (hrun : Relation.ReflTransGen (GuardedStep step undisturbed) .initial s) :
    s.backend.shutdown = false ∧ Accounted s.handshake ∧ s.handshake.RestsAfterReply := by
  refine steps_invariant (P := fun s : System => s.backend.shutdown = false ∧
    Accounted s.handshake ∧ s.handshake.RestsAfterReply) ?_ hrun ⟨rfl, accounted_initial, ?_⟩
  · rintro s s' ⟨m, hm, rfl⟩ ⟨hshutdown, hinv, hrests⟩
    have hne : m ≠ .shutdown := by
      rintro rfl
      cases hm
    obtain ⟨a, hcause, hstep⟩ := step_refines hshutdown hne
    refine ⟨(shutdown_step hne).trans hshutdown, hinv.step hstep ?_ ?_, hrests.step hstep⟩
    · rintro rfl
      obtain ⟨c, req, rfl, hw⟩ := hcause
      simp only [undisturbed, hw, Option.isNone_iff_eq_none] at hm
      exact hm
    · rintro rfl d hd hw
      rcases hcause with hwaiting | ⟨c, rfl, hpc⟩
      · -- in this state nothing is granted
        have hexecuting := hinv.executing_of_untaken d hd
        exact absurd (hwaiting.symm.trans hexecuting) (by decide)
      · have hd' : untaken s.log = some d := hd
        simp only [undisturbed, hpc, hd', WorkerPc.isAwaiting_of_phase hw, Bool.not_true,
          Bool.or_false, Bool.or_eq_true, decide_eq_true_eq] at hm
        exact hm
  · intro log resp hlog
    exact absurd (congrArg List.length hlog) (by simp [System.handshake, System.initial])

/-- **The golden rule, whenever no grant is disturbed.** Take any run of the device from its start: any
interleaving, any requests, also before the vCPU first waits, any delta, any yields, refusals and
timeouts. If no step stores a delta over an untaken grant, or enters the wait afresh on an untaken grant
of some time that the worker still waits for, then at every reply the vCPU has taken exactly the deltas
answered without an error and at most those answered with a stall, each once and in order. -/
theorem goldenRule_of_undisturbed {s : System}
    (hrun : Relation.ReflTransGen (GuardedStep step undisturbed) .initial s) {log : List Event}
    {resp : ClockReadyResp} (hreply : s.log = log ++ [.replied resp]) : GoldenRule s.log := by
  obtain ⟨-, hinv, hrests⟩ := accounted_of_undisturbed hrun
  have hidle : s.handshake.worker = .idle := hrests log resp hreply
  have hbalanced := hinv.balanced
  rw [hidle] at hbalanced
  exact goldenRule_of_settled hbalanced.settled_of_idle

/-- The vCPU waits, takes a grant of 10 ns, executes it and waits again, and the worker replies. -/
def regularMoves : List Move :=
  List.replicate 4 plainVcpu ++ grantMoves 10 ++ List.replicate 7 plainVcpu ++
    List.replicate 5 plainWorker

/-- A regular quantum. -/
theorem goldenRule_regular : (regularMoves.foldl step .initial).log =
      [.waiting, .received 10, .granted 10, .took 10, .waiting] ++ [.replied ⟨0, 0, .ok, 1⟩] ∧
    GoldenRule (regularMoves.foldl step .initial).log :=
  ⟨by decide +kernel, goldenRule_of_undisturbed (steps_of_passes _ _ (by decide +kernel))
    (show (regularMoves.foldl step .initial).log =
      [.waiting, .received 10, .granted 10, .took 10, .waiting] ++ [.replied ⟨0, 0, .ok, 1⟩] by
        decide +kernel)⟩

/-- The worker grants 10 ns before the vCPU first waits; the vCPU enters, and the worker replies. -/
def earlyMoves : List Move :=
  grantMoves 10 ++ List.replicate 4 plainVcpu ++ List.replicate 5 plainWorker

/-- A request before the first wait: it is answered without an error, and the vCPU has taken
nothing. -/
theorem not_goldenRule_early : (earlyMoves.foldl step .initial).log =
      [.received 10, .granted 10, .waiting] ++ [.replied ⟨0, 0, .ok, 1⟩] ∧
    taken (earlyMoves.foldl step .initial).log = [] ∧
    ¬ GoldenRule (earlyMoves.foldl step .initial).log := by
  refine ⟨by decide +kernel, by decide +kernel, fun h => ?_⟩
  exact absurd h.sum_ge (by decide +kernel)

end Virtmcu.Clock
