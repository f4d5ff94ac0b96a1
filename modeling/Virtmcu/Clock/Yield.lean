import Virtmcu.Clock.Handshake

/-! # Yields do not disturb a grant

A vCPU that yields leaves its wait with the state untouched, and comes back without the transition to
`Waiting`. In runs without timeouts and refusals in which the vCPU waits before the first request, this
loses nothing: `grants_in_order` says that the vCPU takes the deltas of the requests one by one, and
that the worker replies only when it waits again.

Two deltas are exceptions: those the quantum wait uses to report a stall and a yield. -/

namespace Virtmcu.Clock

open List

/-! ## The runs -/

/-- A delta that a request may ask for. -/
def isGrantable (d : UInt64) : Bool := 0 < d && !decide (IsSentinel d)

/-- There is no shutdown, refusal or timeout in the step, and a request asks for a grantable delta. The
vCPU may be asked to yield. -/
def calm : System → Move → Bool
  | _, .shutdown => false
  | _, .vcpu c => !c.bqlHeld && !c.timedOut
  | _, .worker c => !c.timedOut && c.request.all fun req => isGrantable req.deltaNs

/-- The vCPU is in its quantum wait: it has announced that it waits, and looks for a grant. -/
def VcpuPc.isInWait : VcpuPc → Bool
  | .notify | .spinLoad | .spinCheck | .recheck | .lock | .lockedLoad | .lockedCheck | .asleep => true
  | .running | .storeVtime _ | .loadState | .enter | .stall | .take => false

/-- The actions of calm steps. -/
def Action.IsCalm : Action → Prop
  | .refuse | .giveUp | .timeOut => False
  | .receive d => isGrantable d = true
  | _ => True

variable {a : Action}

theorem Action.isCalm_of_cause {s : System} {m : Move} (hm : calm s m = true)
    (hcause : Cause s m a) : a.IsCalm := by
  cases a with
  | refuse =>
    obtain ⟨c, rfl, hbql⟩ := hcause
    simp [calm, hbql] at hm
  | giveUp | timeOut =>
    obtain ⟨c, rfl, htime⟩ := hcause
    simp [calm, htime] at hm
  | receive d =>
    obtain ⟨c, req, rfl, hreq, rfl⟩ := hcause
    simp only [calm, hreq, Option.all_some, Bool.and_eq_true] at hm
    exact hm.2
  | _ => trivial

/-- A calm step is a calm step of the handshake. -/
theorem calm_refines {s s' : System} (hshutdown : s.backend.shutdown = false)
    (hstep : GuardedStep step calm s s') : s'.backend.shutdown = false ∧
      ∃ a : Action, a.IsCalm ∧ Handshake.Step a s.handshake s'.handshake := by
  obtain ⟨m, hm, rfl⟩ := hstep
  have hne : m ≠ .shutdown := by
    rintro rfl
    cases hm
  obtain ⟨a, hcause, hrefines⟩ := step_refines hshutdown hne
  exact ⟨(shutdown_step hne).trans hshutdown, a, Action.isCalm_of_cause hm hcause, hrefines⟩

/-! ## The invariant -/

/-- Whose turn it is. -/
inductive Turn (h : Handshake) : Prop
  /-- All requests but the present one are executed and answered. -/
  | resting (hv : h.vcpu = .attentive) (hs : h.state = .waiting)
      (hw : h.worker = .idle ∨ ∃ d, h.worker = .arrived d ∨
        (h.worker = .ready d ∨ h.worker = .granting d) ∧ h.deltaNs = d)
      (hrequests : requests h.log = taken h.log ++ h.worker.current)
      (hreplies : (replies h.log).length = (taken h.log).length)
  /-- The present request is granted. -/
  | granted (d : UInt64) (hv : h.vcpu = .attentive ∨ h.vcpu = .taking) (hs : h.state = .executing)
      (hw : h.worker = .executing d) (hdelta : h.deltaNs = d)
      (hrequests : requests h.log = taken h.log ++ [d])
      (hreplies : (replies h.log).length = (taken h.log).length)
  /-- The vCPU executes it. -/
  | executing (d : UInt64) (hv : h.vcpu = .outside) (hs : h.state = .executing)
      (hw : h.worker = .executing d) (hrequests : requests h.log = taken h.log)
      (htaken : (taken h.log).length = (replies h.log).length + 1)
  /-- The vCPU has executed it and waits again. -/
  | finished (d : UInt64) (hv : h.vcpu = .attentive) (hs : h.state = .waiting)
      (hw : h.worker = .executing d ∨ h.worker = .deciding d .ok ∨ h.worker = .decided d .ok)
      (hrequests : requests h.log = taken h.log)
      (htaken : (taken h.log).length = (replies h.log).length + 1)

/-- **The invariant of calm runs.** -/
structure Orderly (h : Handshake) : Prop where
  no_stall : h.pendingStall = false
  executing_iff : isExecuting h.log = true ↔ h.vcpu = .outside
  grantable : ∀ d ∈ h.worker.current, isGrantable d = true
  replies_ok : ∀ code ∈ replies h.log, code = .ok
  turn : Turn h

/-- What was taken is what was asked for, in the same order. -/
theorem Turn.taken_prefix_requests {h : Handshake} (hturn : Turn h) : taken h.log <+: requests h.log := by
  cases hturn with
  | resting _ _ _ hrequests _ | granted d _ _ _ _ hrequests _ =>
    rw [hrequests]
    exact prefix_append _ _
  | executing d _ _ _ hrequests _ | finished d _ _ _ hrequests _ => exact hrequests ▸ prefix_refl _

section

variable {h : Handshake}

theorem Orderly.announce (hinv : Orderly h) (hv : h.vcpu = .outside) :
    Orderly { h with vcpu := .attentive, state := .waiting, log := h.log ++ [.waiting] } := by
  have hinternal : Event.waiting.isInternal = true := rfl
  refine ⟨hinv.no_stall, ?_, hinv.grantable, ?_, ?_⟩
  · rw [isExecuting_append]
    exact iff_of_false Bool.false_ne_true nofun
  · rw [replies_append_of_isInternal _ hinternal]
    exact hinv.replies_ok
  · -- the vCPU can only come from executing a grant
    cases hinv.turn with
    | resting hv' => exact absurd (hv.symm.trans hv') nofun
    | granted _ hv' =>
      rcases hv' with hv' | hv' <;> exact absurd (hv.symm.trans hv') nofun
    | executing d _ _ hw hrequests htaken =>
      refine .finished d rfl rfl (.inl hw) ?_ ?_
      · rw [requests_append_of_isInternal _ hinternal, taken_append_of_isInternal _ hinternal]
        exact hrequests
      · rw [replies_append_of_isInternal _ hinternal, taken_append_of_isInternal _ hinternal]
        exact htaken
    | finished _ hv' => exact absurd (hv.symm.trans hv') nofun

theorem Orderly.see (hinv : Orderly h) (hv : h.vcpu = .attentive) (hs : h.state = .executing) :
    Orderly { h with vcpu := .taking } := by
  refine ⟨hinv.no_stall, ?_, hinv.grantable, hinv.replies_ok, ?_⟩
  · have hiff := hinv.executing_iff
    rw [hv] at hiff
    exact iff_of_false (fun hexecuting => absurd (hiff.mp hexecuting) nofun) nofun
  · cases hinv.turn with
    | resting _ hs' => exact absurd (hs.symm.trans hs') nofun
    | granted d _ hs' hw hdelta hrequests hreplies =>
      exact .granted d (.inr rfl) hs' hw hdelta hrequests hreplies
    | executing _ hv' => exact absurd (hv.symm.trans hv') nofun
    | finished _ _ hs' => exact absurd (hs.symm.trans hs') nofun

/-- A vCPU that takes finds the delta of the present request. -/
theorem Orderly.turn_of_taking (hinv : Orderly h) (hv : h.vcpu = .taking) :
    h.state = .executing ∧ h.worker = .executing h.deltaNs ∧ isGrantable h.deltaNs = true ∧
      requests h.log = taken h.log ++ [h.deltaNs] ∧ (replies h.log).length = (taken h.log).length := by
  cases hinv.turn with
  | resting hv' => exact absurd (hv.symm.trans hv') nofun
  | granted d _ hs hw hdelta hrequests hreplies =>
    subst hdelta
    have hgrantable := hinv.grantable h.deltaNs (by rw [hw]; exact mem_singleton_self _)
    exact ⟨hs, hw, hgrantable, hrequests, hreplies⟩
  | executing _ hv' | finished _ hv' => exact absurd (hv.symm.trans hv') nofun

theorem Orderly.take (hinv : Orderly h) (hv : h.vcpu = .taking) :
    Orderly { h with vcpu := .outside, log := h.log ++ [.took h.deltaNs] } := by
  obtain ⟨hs, hw, -, hrequests, hreplies⟩ := hinv.turn_of_taking hv
  have htaken : taken (h.log ++ [.took h.deltaNs]) = taken h.log ++ [h.deltaNs] := by
    rw [taken_append]
    rfl
  have hrequests' : requests (h.log ++ [.took h.deltaNs]) = requests h.log := by simp [requests]
  have hreplies' : replies (h.log ++ [.took h.deltaNs]) = replies h.log := by simp [replies]
  refine ⟨hinv.no_stall, ?_, hinv.grantable, ?_, .executing h.deltaNs rfl hs hw ?_ ?_⟩
  · rw [isExecuting_append]
    exact iff_of_true rfl rfl
  · rw [hreplies']
    exact hinv.replies_ok
  · rw [hrequests', htaken]
    exact hrequests
  · rw [htaken, hreplies', length_append, hreplies]
    rfl

variable {d : UInt64}

theorem Orderly.receive (hinv : Orderly h) (hw : h.worker = .idle) (hd : isGrantable d = true) :
    Orderly { h with worker := .arrived d, log := h.log ++ [.received d] } := by
  have htaken : taken (h.log ++ [.received d]) = taken h.log := by simp [taken]
  have hreplies' : replies (h.log ++ [.received d]) = replies h.log := by simp [replies]
  refine ⟨hinv.no_stall, ?_, ?_, ?_, ?_⟩
  · rw [isExecuting_append]
    exact hinv.executing_iff
  · intro d' hd'
    rw [mem_singleton.mp hd']
    exact hd
  · rw [hreplies']
    exact hinv.replies_ok
  · cases hinv.turn with
    | resting hv hs _ hrequests hreplies =>
      rw [hw] at hrequests
      refine .resting hv hs (.inr ⟨d, .inl rfl⟩) ?_ ?_
      · rw [requests_append, hrequests, htaken, append_assoc]
        rfl
      · rw [hreplies', htaken]
        exact hreplies
    | granted _ _ _ hw' | executing _ _ _ hw' => cases hw.symm.trans hw'
    | finished _ _ _ hw' =>
      rcases hw' with hw' | hw' | hw' <;> cases hw.symm.trans hw'

/-- A worker whose request is not granted finds everybody at rest. -/
theorem Orderly.resting_of_current (hinv : Orderly h)
    (hw : h.worker = .arrived d ∨ h.worker = .ready d ∨ h.worker = .granting d) :
    h.vcpu = .attentive ∧ h.state = .waiting ∧ (h.worker = .arrived d ∨ h.deltaNs = d) ∧
      requests h.log = taken h.log ++ [d] ∧
      (replies h.log).length = (taken h.log).length ∧ isGrantable d = true := by
  have hcurrent : h.worker.current = [d] := by
    rcases hw with hw | hw | hw <;> rw [hw] <;> rfl
  cases hinv.turn with
  | resting hv hs hw' hrequests hreplies =>
    refine ⟨hv, hs, ?_, hcurrent ▸ hrequests, hreplies, hinv.grantable d (hcurrent ▸ mem_singleton_self d)⟩
    rcases hw' with hidle | ⟨d', harrived | ⟨hready, hdelta⟩⟩
    · rcases hw with hw | hw | hw <;> exact absurd (hidle.symm.trans hw) nofun
    · left
      rcases hw with hw | hw | hw
      · exact hw
      · exact absurd (harrived.symm.trans hw) nofun
      · exact absurd (harrived.symm.trans hw) nofun
    · right
      rcases hready with hready | hready
      · rw [hready] at hcurrent
        exact hdelta.trans (singleton_inj.mp hcurrent)
      · rw [hready] at hcurrent
        exact hdelta.trans (singleton_inj.mp hcurrent)
  | granted _ _ _ hw' | executing _ _ _ hw' =>
    rcases hw with hw | hw | hw <;> exact absurd (hw.symm.trans hw') nofun
  | finished _ _ _ hw' =>
    rcases hw with hw | hw | hw <;> rcases hw' with hw' | hw' | hw' <;>
      exact absurd (hw.symm.trans hw') nofun

/-- The worker goes on to another phase before the grant. -/
theorem Orderly.prepare (hinv : Orderly h) {d delta : UInt64} {w : WorkerPhase}
    (hw : h.worker = .arrived d ∨ h.worker = .ready d ∨ h.worker = .granting d)
    (hw' : (w = .ready d ∨ w = .granting d) ∧ delta = d) :
    Orderly { h with worker := w, deltaNs := delta } := by
  obtain ⟨hv, hs, -, hrequests, hreplies, hgrantable⟩ := hinv.resting_of_current hw
  have hcurrent : w.current = [d] := by
    rcases hw' with ⟨rfl | rfl, -⟩ <;> rfl
  refine ⟨hinv.no_stall, hinv.executing_iff, ?_, hinv.replies_ok, .resting hv hs ?_ ?_ hreplies⟩
  · intro d' hd'
    rw [hcurrent, mem_singleton] at hd'
    exact hd' ▸ hgrantable
  · exact .inr ⟨d, .inr hw'⟩
  · rw [hcurrent]
    exact hrequests

theorem Orderly.grant (hinv : Orderly h) (hw : h.worker = .granting d) :
    Orderly { h with worker := .executing d, state := .executing, log := h.log ++ [.granted d] } := by
  have hinternal : (Event.granted d).isInternal = true := rfl
  obtain ⟨hv, -, hdelta, hrequests, hreplies, hgrantable⟩ :=
    hinv.resting_of_current (.inr (.inr hw))
  have hdelta' : h.deltaNs = d := hdelta.resolve_left fun harrived =>
    absurd (hw.symm.trans harrived) nofun
  refine ⟨hinv.no_stall, ?_, ?_, ?_, .granted d (.inl hv) rfl rfl hdelta' ?_ ?_⟩
  · rw [isExecuting_append]
    exact hinv.executing_iff
  · intro d' hd'
    rw [mem_singleton.mp hd']
    exact hgrantable
  · rw [replies_append_of_isInternal _ hinternal]
    exact hinv.replies_ok
  · rw [requests_append_of_isInternal _ hinternal, taken_append_of_isInternal _ hinternal]
    exact hrequests
  · rw [replies_append_of_isInternal _ hinternal, taken_append_of_isInternal _ hinternal]
    exact hreplies

/-- A worker that is about to answer finds the vCPU waiting again. -/
theorem Orderly.finished_of_decided (hinv : Orderly h) {code : ErrorCode}
    (hw : h.worker = .deciding d code ∨ h.worker = .decided d code) :
    code = .ok ∧ h.vcpu = .attentive ∧ h.state = .waiting ∧ requests h.log = taken h.log ∧
      (taken h.log).length = (replies h.log).length + 1 := by
  cases hinv.turn with
  | resting _ _ hw' =>
    rcases hw' with hw' | ⟨d', hw' | ⟨hw' | hw', -⟩⟩ <;>
      rcases hw with hw | hw <;> exact absurd (hw.symm.trans hw') nofun
  | granted _ _ _ hw' | executing _ _ _ hw' =>
    rcases hw with hw | hw <;> exact absurd (hw.symm.trans hw') nofun
  | finished d' hv hs hw' hrequests htaken =>
    refine ⟨?_, hv, hs, hrequests, htaken⟩
    rcases hw' with hw' | hw' | hw' <;> rcases hw with hw | hw <;> cases hw.symm.trans hw'
    · rfl
    · rfl

/-- The worker sees that the vCPU waits again, since the request asked for some time. -/
theorem Orderly.finish (hinv : Orderly h) (hw : h.worker = .executing d)
    (hdone : d = 0 ∨ h.state = .waiting) : Orderly { h with worker := .deciding d .ok } := by
  have hgrantable := hinv.grantable d (by rw [hw]; exact mem_singleton_self d)
  have hs : h.state = .waiting := by
    refine hdone.resolve_left ?_
    rintro rfl
    simp [isGrantable] at hgrantable
  refine ⟨hinv.no_stall, hinv.executing_iff, ?_, hinv.replies_ok, ?_⟩
  · intro d' hd'
    rw [mem_singleton.mp hd']
    exact hgrantable
  · cases hinv.turn with
    | resting _ _ hw' =>
      rcases hw' with hw' | ⟨d', hw' | ⟨hw' | hw', -⟩⟩ <;> exact absurd (hw.symm.trans hw') nofun
    | granted _ _ hs' | executing _ _ hs' => exact absurd (hs.symm.trans hs') nofun
    | finished _ hv _ _ hrequests htaken =>
      exact .finished d hv hs (.inr (.inl rfl)) hrequests htaken

theorem Orderly.swap (hinv : Orderly h) {code : ErrorCode} (hw : h.worker = .deciding d code) :
    Orderly { h with
      worker := .decided d (if h.pendingStall then .stall else code)
      pendingStall := false } := by
  obtain ⟨rfl, hv, hs, hrequests, htaken⟩ := hinv.finished_of_decided (.inl hw)
  have hgrantable := hinv.grantable d (by rw [hw]; exact mem_singleton_self d)
  simp only [hinv.no_stall, Bool.false_eq_true, if_false]
  refine ⟨rfl, hinv.executing_iff, ?_, hinv.replies_ok,
    .finished d hv hs (.inr (.inr rfl)) hrequests htaken⟩
  intro d' hd'
  rw [mem_singleton.mp hd']
  exact hgrantable

theorem Orderly.reply (hinv : Orderly h) {resp : ClockReadyResp}
    (hw : h.worker = .decided d resp.errorCode) :
    Orderly { h with worker := .idle, log := h.log ++ [.replied resp] } := by
  obtain ⟨hcode, hv, hs, hrequests, htaken⟩ := hinv.finished_of_decided (.inr hw)
  have hrequests' : requests (h.log ++ [.replied resp]) = requests h.log := by simp [requests]
  have htaken' : taken (h.log ++ [.replied resp]) = taken h.log := by simp [taken]
  have hreplies : replies (h.log ++ [.replied resp]) = replies h.log ++ [resp.errorCode] := by
    rw [replies_append]
    rfl
  refine ⟨hinv.no_stall, ?_, fun _ hmem => absurd hmem not_mem_nil, ?_, .resting hv hs (.inl rfl) ?_ ?_⟩
  · rw [isExecuting_append]
    exact hinv.executing_iff
  · rw [hreplies]
    intro code hmem
    rcases mem_append.mp hmem with hmem | hmem
    · exact hinv.replies_ok code hmem
    · rw [mem_singleton.mp hmem]
      exact hcode
  · rw [hrequests', htaken', hrequests]
    exact (append_nil _).symm
  · rw [hreplies, htaken', htaken, length_append]
    rfl

end

variable {h h' : Handshake}

/-- **Step lemma.** -/
theorem Orderly.step (hinv : Orderly h) (ha : a.IsCalm) (hstep : Handshake.Step a h h') : Orderly h' := by
  cases hstep with
  | silent => exact hinv
  | refuse _ hv | giveUp _ hv | timeOut _ d hw => exact ha.elim
  | stall _ hv =>
    -- nobody has given up
    cases hinv.turn with
    | resting hv' => exact absurd (hv.symm.trans hv') nofun
    | granted _ hv' => rcases hv' with hv' | hv' <;> exact absurd (hv.symm.trans hv') nofun
    | executing _ hv' | finished _ hv' => exact absurd (hv.symm.trans hv') nofun
  | announce _ hv => exact hinv.announce hv
  | see _ hv hs => exact hinv.see hv hs
  | take _ hv hd => exact hinv.take hv
  | misread _ hv hd v hphase =>
    obtain ⟨-, -, hgrantable, -⟩ := hinv.turn_of_taking hv
    simp [isGrantable, hd] at hgrantable
  | receive _ d hw => exact hinv.receive hw ha
  | store _ d hw => exact hinv.prepare (.inl hw) ⟨.inl rfl, rfl⟩
  | ready _ d hw hs =>
    obtain ⟨-, -, hdelta, -⟩ := hinv.resting_of_current (.inr (.inl hw))
    have hdelta' := hdelta.resolve_left fun harrived => absurd (hw.symm.trans harrived) nofun
    exact hinv.prepare (.inr (.inl hw)) ⟨.inr rfl, hdelta'⟩
  | grant _ d hw hs => exact hinv.grant hw
  | grantFailed _ d hw hs =>
    obtain ⟨-, hs', -⟩ := hinv.resting_of_current (.inr (.inr hw))
    exact absurd (hs.symm.trans hs') nofun
  | finish _ d hw hdone => exact hinv.finish hw hdone
  | swap _ d code hw => exact hinv.swap hw
  | reply _ d resp hw => exact hinv.reply hw

/-! ## Before the first request -/

/-- Nothing has happened but that the vCPU may have come to its wait. -/
structure Quiet (h : Handshake) : Prop where
  worker : h.worker = .idle
  state : h.state = .waiting
  no_stall : h.pendingStall = false
  vcpu : h.vcpu = .outside ∨ h.vcpu = .attentive
  requests_nil : requests h.log = []
  taken_nil : taken h.log = []
  replies_nil : replies h.log = []
  not_executing : isExecuting h.log = false

/-- Quiet lasts until the first request. -/
theorem Quiet.step (hinv : Quiet h) (ha : a.IsCalm)
    (hstep : Handshake.Step a h h') : Quiet h' ∨ requests h'.log ≠ [] := by
  have hbusy {w : WorkerPhase} (hw : h.worker = w) (hne : w ≠ .idle) : False :=
    hne (hw.symm.trans hinv.worker)
  have hvcpu {v : VcpuPhase} (hv : h.vcpu = v) (hne : v ≠ .outside ∧ v ≠ .attentive) : False := by
    rcases hinv.vcpu with hv' | hv'
    · exact hne.1 (hv.symm.trans hv')
    · exact hne.2 (hv.symm.trans hv')
  cases hstep with
  | silent => exact .inl hinv
  | refuse _ hv | giveUp _ hv | timeOut _ d hw => exact ha.elim
  | stall _ hv => exact (hvcpu hv ⟨nofun, nofun⟩).elim
  | announce _ hv =>
    have hinternal : Event.waiting.isInternal = true := rfl
    left
    refine ⟨hinv.worker, rfl, hinv.no_stall, .inr rfl, ?_, ?_, ?_, ?_⟩
    · exact (requests_append_of_isInternal _ hinternal).trans hinv.requests_nil
    · exact (taken_append_of_isInternal _ hinternal).trans hinv.taken_nil
    · exact (replies_append_of_isInternal _ hinternal).trans hinv.replies_nil
    · exact isExecuting_append _ _
  | see _ hv hs => exact absurd (hs.symm.trans hinv.state) nofun
  | take _ hv hd | misread _ hv hd v hphase => exact (hvcpu hv ⟨nofun, nofun⟩).elim
  | receive _ d hw =>
    right
    rw [requests_append]
    exact append_ne_nil_of_right_ne_nil _ nofun
  | store _ d hw | ready _ d hw hs | grant _ d hw hs | grantFailed _ d hw hs | finish _ d hw hdone
  | swap _ d code hw | reply _ d resp hw => exact (hbusy hw nofun).elim

/-- What has been seen stays seen. -/
theorem Handshake.Step.requests_ne_nil (hstep : Step a h h')
    (hne : requests h.log ≠ []) : requests h'.log ≠ [] := by
  cases hstep <;> first
    | exact hne
    | (rw [requests_append]
       exact append_ne_nil_of_left_ne_nil hne _)

/-- A vCPU that waits before the first request starts orderly runs. -/
theorem Quiet.orderly {h : Handshake} (hinv : Quiet h) (hv : h.vcpu = .attentive) : Orderly h := by
  refine ⟨hinv.no_stall, ?_, ?_, ?_, .resting hv hinv.state (.inl hinv.worker) ?_ ?_⟩
  · rw [hinv.not_executing, hv]
    exact iff_of_false Bool.false_ne_true nofun
  · rw [hinv.worker]
    nofun
  · rw [hinv.replies_nil]
    nofun
  · rw [hinv.requests_nil, hinv.taken_nil, hinv.worker]
    rfl
  · rw [hinv.replies_nil, hinv.taken_nil]
    rfl

/-! ## Main result -/

/-- **Run lemma**, up to the first request. -/
theorem quiet_of_calm {s : System} (hrun : Relation.ReflTransGen (GuardedStep step calm) .initial s)
    (hfirst : requests s.log = []) : s.backend.shutdown = false ∧ Quiet s.handshake := by
  have hinv := steps_invariant (P := fun s : System => s.backend.shutdown = false ∧
    (Quiet s.handshake ∨ requests s.log ≠ [])) ?_ hrun ⟨rfl, .inl ?_⟩
  · exact ⟨hinv.1, hinv.2.resolve_right fun hne => hne hfirst⟩
  · rintro s s' hstep ⟨hshutdown, hquiet⟩
    obtain ⟨hshutdown', a, ha, hrefines⟩ := calm_refines hshutdown hstep
    refine ⟨hshutdown', ?_⟩
    rcases hquiet with hquiet | hne
    · exact hquiet.step ha hrefines
    · exact .inr (hrefines.requests_ne_nil hne)
  · exact ⟨rfl, rfl, rfl, .inl rfl, rfl, rfl, rfl, rfl⟩

/-- **Run lemma**, from then on. -/
theorem orderly_of_calm {s₀ s : System} (hshutdown : s₀.backend.shutdown = false)
    (hinv : Orderly s₀.handshake) (hrests : s₀.handshake.RestsAfterReply)
    (hrun : Relation.ReflTransGen (GuardedStep step calm) s₀ s) :
    Orderly s.handshake ∧ s.handshake.RestsAfterReply := by
  refine (steps_invariant (P := fun s : System => s.backend.shutdown = false ∧
    Orderly s.handshake ∧ s.handshake.RestsAfterReply) ?_ hrun ⟨hshutdown, hinv, hrests⟩).2
  rintro s s' hstep ⟨hshutdown, hinv, hrests⟩
  obtain ⟨hshutdown', a, ha, hrefines⟩ := calm_refines hshutdown hstep
  exact ⟨hshutdown', hinv.step ha hrefines, hrests.step hrefines⟩

/-- An idle worker has answered everything, and the vCPU waits. -/
theorem Orderly.turn_of_idle {h : Handshake} (hinv : Orderly h) (hw : h.worker = .idle) :
    h.vcpu = .attentive ∧ (replies h.log).length = (taken h.log).length := by
  cases hinv.turn with
  | resting hv _ _ _ hreplies => exact ⟨hv, hreplies⟩
  | granted _ _ _ hw' | executing _ _ _ hw' => exact absurd (hw.symm.trans hw') nofun
  | finished _ _ _ hw' =>
    rcases hw' with hw' | hw' | hw' <;> exact absurd (hw.symm.trans hw') nofun

/-- **Yields do not disturb a grant.** Take any run of the device without shutdown, timeouts and
refusals, with requests for grantable deltas, in which the vCPU is in its wait before the first request.
However the threads interleave, and however often the vCPU yields: the deltas it has taken are those of
the first requests, in order, and whenever the worker has replied, the reply is the next one without an
error, the vCPU has taken the delta of that request, and it has finished executing it and waits
again. -/
theorem grants_in_order {s₀ s : System}
    (hbefore : Relation.ReflTransGen (GuardedStep step calm) .initial s₀)
    (hfirst : requests s₀.log = []) (hwait : s₀.vcpu.pc.isInWait = true)
    (hrun : Relation.ReflTransGen (GuardedStep step calm) s₀ s) : taken s.log <+: requests s.log ∧
    ∀ log resp, s.log = log ++ [.replied resp] →
      resp.errorCode = .ok ∧ (taken log).length = (replies log).length + 1 ∧ isExecuting log = false := by
  obtain ⟨hshutdown, hquiet⟩ := quiet_of_calm hbefore hfirst
  have hattentive : s₀.handshake.vcpu = .attentive := by
    show s₀.vcpu.phase = .attentive
    unfold Vcpu.phase
    generalize s₀.vcpu.pc = pc at hwait
    cases pc <;> first | rfl | cases hwait
  obtain ⟨hinv, hrests⟩ := orderly_of_calm hshutdown (hquiet.orderly hattentive)
    (fun _ _ _ => hquiet.worker) hrun
  refine ⟨hinv.turn.taken_prefix_requests, fun log resp hlog => ?_⟩
  obtain ⟨hv, hlength⟩ := hinv.turn_of_idle (hrests log resp hlog)
  -- the reply itself took nothing and left the vCPU where it was
  have hreplies : replies s.log = replies log ++ [resp.errorCode] := by
    rw [hlog, replies_append]
    rfl
  have htaken : taken s.log = taken log := by simp [hlog, taken]
  refine ⟨?_, ?_, ?_⟩
  · refine hinv.replies_ok resp.errorCode ?_
    show resp.errorCode ∈ replies s.log
    rw [hreplies]
    exact List.mem_append_right _ (List.mem_singleton_self _)
  · have hlength' : (replies s.log).length = (taken s.log).length := hlength
    rw [hreplies, htaken, List.length_append] at hlength'
    exact hlength'.symm
  · have hexecuting := hinv.executing_iff
    rw [hv] at hexecuting
    have hlog' : isExecuting s.log = isExecuting log := by rw [hlog, isExecuting_append]
    rw [← hlog']
    refine Bool.eq_false_iff.mpr fun htrue => ?_
    cases hexecuting.mp htrue

/-- The device when the vCPU has come to its first wait. -/
def waitingStart : System := (List.replicate 4 plainVcpu).foldl step .initial

/-- The vCPU yields and is granted 10 ns while it is away; it comes back, takes them, executes and waits
again, and the worker replies. -/
def yieldMoves : List Move :=
  plainVcpu :: .vcpu ⟨0, false, true, false, false⟩ :: grantMoves 10 ++ List.replicate 9 plainVcpu ++
    List.replicate 5 plainWorker

/-- A quantum that is granted to a vCPU on leave. -/
theorem grants_in_order_yield : (yieldMoves.foldl step waitingStart).log =
      [.waiting, .received 10, .granted 10, .took 10, .waiting, .replied ⟨0, 0, .ok, 1⟩] ∧
    taken (yieldMoves.foldl step waitingStart).log <+:
      requests (yieldMoves.foldl step waitingStart).log :=
  ⟨by decide +kernel, (@grants_in_order waitingStart (yieldMoves.foldl step waitingStart)
    (steps_of_passes _ _ (by decide +kernel)) (by decide +kernel) (by decide +kernel)
    (steps_of_passes _ _ (by decide +kernel))).1⟩

/-- The vCPU is granted the stall sentinel; it enters its wait again, and the worker replies. -/
def sentinelMoves : List Move :=
  grantMoves quantumWaitStallSentinel ++ List.replicate 7 plainVcpu ++ List.replicate 5 plainWorker

/-- A waiting vCPU and a request for `u64::MAX` ns, with no yield, refusal or timeout: the request is
answered without an error, and the vCPU has taken nothing, because it mistakes the delta for a
stall. -/
theorem not_grants_in_order_sentinel :
    waitingStart.vcpu.pc.isInWait = true ∧ requests waitingStart.log = [] ∧ (∀ m ∈ sentinelMoves,
      m = plainVcpu ∨ m = plainWorker ∨ m = requestMove quantumWaitStallSentinel) ∧
    0 < quantumWaitStallSentinel ∧ (sentinelMoves.foldl step waitingStart).log =
      [.waiting, .received quantumWaitStallSentinel, .granted quantumWaitStallSentinel, .waiting] ++
        [.replied ⟨0, 0, .ok, 1⟩] ∧ taken (sentinelMoves.foldl step waitingStart).log = [] := by
  refine ⟨?_, ?_, ?_, ?_, ?_, ?_⟩ <;> decide +kernel

end Virtmcu.Clock
