import Virtmcu.Foundations.Text

/-! # Subscriptions of the Unix transport

`UnixDataTransport` keeps its subscriptions in one vector, and the receive thread calls those whose topic
equals the topic of a frame or is a string that it starts with. This is more than the topic tree asks for
(`isolated_iff`): the string `sim/ui/0/button/1` begins `sim/ui/0/button/10`, so the handlers that
`ui_ensure_button` subscribes hear the events of other buttons. -/

namespace Virtmcu.TransportUnix

open List

/-! ## The receive thread -/

/-- An entry of `subscriptions`. -/
structure Subscription (κ : Type*) where
  topic : String
  callback : κ

variable {κ : Type*}

/-- `UnixDataTransport::subscribe`. -/
def subscribe (subs : List (Subscription κ)) (topic : String) (callback : κ) :
    List (Subscription κ) :=
  subs ++ [⟨topic, callback⟩]

/-- The test for a subscription: `sub_topic == &topic || topic.starts_with(sub_topic)`. -/
def accepts (subTopic topic : String) : Bool := subTopic == topic || startsWithStr topic subTopic

/-- The calls that the receive thread makes for a frame. -/
def dispatch (subs : List (Subscription κ)) (topic : String) (payload : List UInt8) :
    List (κ × List UInt8) :=
  (subs.filter fun sub => accepts sub.topic topic).map fun sub => (sub.callback, payload)

variable {subTopic topic : String}

/-- The first test is a case of the second. -/
theorem accepts_iff : accepts subTopic topic = true ↔ ∃ rest, topic = subTopic ++ rest := by
  rw [accepts, Bool.or_eq_true, startsWithStr_iff, beq_iff_eq]
  constructor
  · rintro (rfl | h)
    · exact ⟨"", String.append_empty.symm⟩
    · exact h
  · exact .inr

/-! ## The topic tree -/

/-- `topic` is `subTopic` or lies below it. -/
def AtOrBelow (subTopic topic : String) : Prop :=
  topic = subTopic ∨ ∃ more, topic = subTopic ++ ("/" ++ more)

theorem atOrBelow_iff :
    AtOrBelow subTopic topic ↔ topic = subTopic ∨ startsWithStr topic (subTopic ++ "/") = true := by
  unfold AtOrBelow
  rw [startsWithStr_iff]
  simp only [String.append_assoc]

instance (subTopic topic : String) : Decidable (AtOrBelow subTopic topic) :=
  decidable_of_iff' _ atOrBelow_iff

/-- **Isolation by topic**: the calls for a frame are those of the subscriptions to its topic or above. -/
def Isolated (subs : List (Subscription κ)) (topic : String) : Prop :=
  ∀ payload, dispatch subs topic payload =
    (subs.filter fun sub => AtOrBelow sub.topic topic).map fun sub => (sub.callback, payload)

/-- What lies below a topic starts with it. -/
theorem AtOrBelow.accepts (h : AtOrBelow subTopic topic) : accepts subTopic topic = true := by
  rw [accepts_iff]
  rcases h with rfl | ⟨more, rfl⟩
  · exact ⟨"", String.append_empty.symm⟩
  · exact ⟨_, rfl⟩

/-- A subscription is served right when the topic does not just happen to start with its text. -/
theorem accepts_eq_iff : (accepts subTopic topic = decide (AtOrBelow subTopic topic)) ↔
      ∀ rest, topic = subTopic ++ rest → rest = "" ∨ ∃ more, rest = "/" ++ more := by
  have hone : (accepts subTopic topic = true ↔ AtOrBelow subTopic topic) ↔
      (accepts subTopic topic = true → AtOrBelow subTopic topic) :=
    ⟨Iff.mp, fun h => ⟨h, AtOrBelow.accepts⟩⟩
  rw [Bool.eq_iff_iff, decide_eq_true_iff, hone, accepts_iff, forall_exists_index]
  refine forall_congr' fun rest => ?_
  constructor
  · rintro h rfl
    rcases h rfl with hnil | ⟨more, hmore⟩
    · exact .inl (String.append_right_inj subTopic |>.mp (hnil.trans String.append_empty.symm))
    · exact .inr ⟨more, String.append_right_inj subTopic |>.mp hmore⟩
  · rintro h rfl
    rcases h rfl with rfl | ⟨more, rfl⟩
    · exact .inl String.append_empty
    · exact .inr ⟨more, rfl⟩

/-- Two selections of which one contains the other give the same list exactly if they agree. -/
theorem map_filter_eq_iff {α β : Type*} {p q : α → Bool} (hqp : ∀ a, q a = true → p a = true)
    (f : α → β) (l : List α) : (l.filter p).map f = (l.filter q).map f ↔ ∀ a ∈ l, p a = q a := by
  constructor
  · intro h a ha
    have hlen := congrArg List.length h
    rw [length_map, length_map] at hlen
    have hsame : l.filter q = l.filter p :=
      (monotone_filter_right l hqp).eq_of_length hlen.symm
    rw [Bool.eq_iff_iff]
    refine ⟨fun hp => ?_, hqp a⟩
    have hmem : a ∈ l.filter q := hsame ▸ mem_filter.mpr ⟨ha, hp⟩
    exact (mem_filter.mp hmem).2
  · intro h
    rw [filter_congr h]

/-- **When the subscriptions are isolated**: each one whose text begins the topic is the topic itself, or
has a slash behind it there. -/
theorem isolated_iff (subs : List (Subscription κ)) (topic : String) : Isolated subs topic ↔
      ∀ sub ∈ subs, ∀ rest, topic = sub.topic ++ rest → rest = "" ∨ ∃ more, rest = "/" ++ more := by
  have hsub (payload : List UInt8) := map_filter_eq_iff
    (p := fun sub : Subscription κ => accepts sub.topic topic)
    (q := fun sub => decide (AtOrBelow sub.topic topic))
    (fun sub h => (of_decide_eq_true h).accepts) (fun sub => (sub.callback, payload)) subs
  have hforall : Isolated subs topic ↔
      ∀ sub ∈ subs, accepts sub.topic topic = decide (AtOrBelow sub.topic topic) :=
    (forall_congr' hsub).trans (forall_const _)
  rw [hforall]
  exact forall₂_congr fun sub _ => accepts_eq_iff

/-! ## Buttons of the UI device -/

variable {ι : Type*}

/-- `format!("sim/ui/{}/button/{}", node_id, btn_id)`. -/
def buttonTopic (node btn : UInt32) : String :=
  "sim/ui/" ++ toString node.toNat ++ "/button/" ++ toString btn.toNat

/-- `ZenohUiState` and the subscriptions of its transport, each with the line it drives. -/
structure UiState (ι : Type*) where
  nodeId : UInt32
  /-- `buttons`, in the order of insertion. -/
  buttons : List (UInt32 × ι)
  subs : List (Subscription ι)

/-- `ui_init_internal`. -/
def uiInit (nodeId : UInt32) : UiState ι := ⟨nodeId, [], []⟩

/-- `ui_ensure_button`. -/
def UiState.ensureButton (state : UiState ι) (btn : UInt32) (irq : ι) : UiState ι :=
  if btn ∈ state.buttons.map Prod.fst then state
  else
    { state with
      subs := subscribe state.subs (buttonTopic state.nodeId btn) irq
      buttons := state.buttons ++ [(btn, irq)] }

/-- The callback of a button: what it makes of its line. -/
def buttonCallback (irq : ι) (payload : List UInt8) : Option (ι × Bool) :=
  match payload with
  | [] => none
  | byte :: _ => some (irq, byte != 0)

/-- What becomes of the lines when a frame arrives. -/
def UiState.setIrqs (state : UiState ι) (topic : String) (payload : List UInt8) : List (ι × Bool) :=
  (dispatch state.subs topic payload).filterMap fun call => buttonCallback call.1 call.2

/-- The device after the guest has used some buttons. -/
def ensureButtons (nodeId : UInt32) (calls : List (UInt32 × ι)) : UiState ι :=
  calls.foldl (fun state call => state.ensureButton call.1 call.2) (uiInit nodeId)

/-- **An event for button 10 drives the line of button 1.** -/
theorem not_isolated_button_ten : ¬ Isolated (ensureButtons 0 [(1, ())]).subs (buttonTopic 0 10) ∧
      (ensureButtons 0 [(1, ())]).setIrqs (buttonTopic 0 10) [1] = [((), true)] := by
  refine ⟨fun h => ?_, by decide +kernel⟩
  exact absurd (h []) (by decide +kernel)

end Virtmcu.TransportUnix
