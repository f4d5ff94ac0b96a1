import Virtmcu.ZenohCoordinator.Enforcement

/-! # Injected faults

The Ethernet and UART arms draw the drops and jitters of all links from one generator, in the order in
which frames arrive and in which a loop over a hash set visits the destinations. Two interleavings of
the same frames therefore agree on a decision only where the draws they skip or swap do not matter.

They do not matter if no link has faults, and in an explicit topology if a single link has them: then
the generator has moved once for every earlier frame over that link (`rng_after`), and the frames of
its sender come in the same order (`reproducible_of_confined`). With two such links the decisions of
two frames can change places (`not_reproducible_bothWays`). -/

namespace Virtmcu.ZenohCoordinator

open List

/-! ## One destination that draws -/

section

variable {σ : Type} {rng : Rng σ} {isAllowed : String → Bool} {link : String → LinkState}

/-- A loop in which at most one destination has faults decides for each destination as if it came
first, and the generator moves for that one destination. -/
theorem fates_of_lone {d₀ : String} {dsts : List String} (hnodup : dsts.Nodup)
    (hquiet : ∀ dst ∈ dsts, dst ≠ d₀ → (link dst).IsQuiet) (s : σ) :
    (∀ dst fate, (dst, fate) ∈ (fates rng isAllowed link dsts s).1 →
      fate = if isAllowed dst then (rng.fate (link dst) s).1 else .denied) ∧
    (fates rng isAllowed link dsts s).2 =
      if d₀ ∈ dsts ∧ isAllowed d₀ = true then (rng.fate (link d₀) s).2 else s := by
  induction dsts generalizing s with
  | nil => simp [fates]
  | cons d dsts ih =>
    obtain ⟨hnew, hnodup⟩ := nodup_cons.mp hnodup
    have hrest : ∀ dst ∈ dsts, dst ≠ d₀ → (link dst).IsQuiet := fun dst hdst =>
      hquiet dst (mem_cons_of_mem _ hdst)
    obtain ⟨ihfates, ihrng⟩ := ih hnodup hrest (destFate rng isAllowed link d s).2
    -- the generator stays where it is, unless `d` is the one
    have hstay : d ≠ d₀ → (destFate rng isAllowed link d s).2 = s := by
      intro hd
      cases hallowed : isAllowed d with
      | true =>
        rw [destFate_of_isAllowed hallowed, Rng.fate_of_isQuiet (hquiet d mem_cons_self hd)]
      | false => rw [destFate_of_not_isAllowed hallowed]
    -- behind `d` everything is decided as before it: a draw for `d` is followed by quiet links only
    have hsame : ∀ dst ∈ dsts, (rng.fate (link dst) (destFate rng isAllowed link d s).2).1 =
        (rng.fate (link dst) s).1 := by
      intro dst hdst
      by_cases hd : d = d₀
      · have hne : dst ≠ d₀ := by
          rintro rfl
          exact hnew (hd ▸ hdst)
        rw [Rng.fate_of_isQuiet (hrest dst hdst hne), Rng.fate_of_isQuiet (hrest dst hdst hne)]
      · rw [hstay hd]
    constructor
    · intro dst fate hmem
      rw [fates_cons, mem_cons] at hmem
      rcases hmem with heq | hmem
      · obtain ⟨rfl, rfl⟩ := Prod.mk.inj heq
        unfold destFate
        split
        · rfl
        · rfl
      · rw [ihfates dst fate hmem, hsame dst (mem_of_mem_fates hmem)]
    · rw [fates_cons, ihrng]
      by_cases hd : d = d₀
      · subst hd
        have hnot : ¬ (d ∈ dsts ∧ isAllowed d = true) := fun h => hnew h.1
        rw [if_neg hnot]
        cases hallowed : isAllowed d with
        | true => rw [destFate_of_isAllowed hallowed, if_pos ⟨mem_cons_self, rfl⟩]
        | false => rw [destFate_of_not_isAllowed hallowed, if_neg (by simp)]
      · have hmem : d₀ ∈ d :: dsts ↔ d₀ ∈ dsts := by
          rw [mem_cons]
          exact or_iff_right (Ne.symm hd)
        simp only [hstay hd, hmem]

end

/-! ## Frames and their decisions -/

/-- What a frame is, apart from the iteration order its handler meets. -/
abbrev Content := TxSub × String × List UInt8

/-- The content of a frame. -/
def Frame.content (f : Frame) : Content := (f.sub, f.topic, f.payload)

/-- The node that sends a frame, with the part of the topic in front. -/
def senderOf (c : Content) : Option (String × String) :=
  (parseTopicWithPrefix c.2.1).map fun (px, _, src) => (px, src)

/-- The frames of one node, in their order. -/
def sentBy (node : Option (String × String)) (cs : List Content) : List Content :=
  cs.filter fun c => senderOf c = node

/-- Two sequences of frames are interleavings of the same sequences of every node. -/
def SameFrames (as bs : List Frame) : Prop :=
  ∀ node, sentBy node (as.map Frame.content) = sentBy node (bs.map Frame.content)

/-- The protocol of the arms that inject faults. -/
def TxSub.faultyProtocol : TxSub → Option Protocol
  | .eth => some .ethernet
  | .uart => some .uart
  | _ => none

/-- Sender and protocol of a frame for which an arm decides about faults: one it can read. -/
def faultyFrame (c : Content) : Option ((String × String) × Protocol) :=
  match c.1.faultyProtocol, senderOf c, readFrame c.2.2 with
  | some protocol, some sender, some (some _) => some (sender, protocol)
  | _, _, _ => none

section

variable {σ : Type} (env : Externals) (args : Args) (rng : Rng σ)

/-- The coordinator after the given frames. -/
abbrev afterFrames (s₀ : MainState σ) (fs : List Frame) : Option (MainState σ) :=
  finalState (mainStep env args rng) (some s₀) (fs.map .frame)

/-- The decisions for the destinations of `f`, when it arrives after the frames `before`. -/
def decisions (s₀ : MainState σ) (before : List Frame) (f : Frame) : List (String × Fate) :=
  match afterFrames env args rng s₀ before with
  | some s => ((ingest env args rng s f).map Ingested.fates).getD []
  | none => []

/-- **Faults are reproducible** in two sequences of frames: for a frame of a node, the `k`-th one in
both, and for a destination both decide about, the decisions are the same. -/
def Reproducible (s₀ : MainState σ) (as bs : List Frame) : Prop :=
  ∀ before f later before' f' later', as = before ++ f :: later → bs = before' ++ f' :: later' →
    senderOf f.content = senderOf f'.content →
    (sentBy (senderOf f.content) (before.map Frame.content)).length =
      (sentBy (senderOf f.content) (before'.map Frame.content)).length →
    ∀ dst fate fate', (dst, fate) ∈ decisions env args rng s₀ before f →
      (dst, fate') ∈ decisions env args rng s₀ before' f' → fate = fate'

/-- **Faults are confined**: no link has any, or the topology is explicit and a single link has. -/
def FaultsConfined (links : Links) (tg : TopologyGraph) : Prop :=
  (∀ key st, links.get key = some st → st.IsQuiet) ∨
    tg.isExplicit = true ∧
      ∃ key₀, ∀ key st, links.get key = some st → ¬ st.IsQuiet → key = key₀

variable {env args rng}

/-! ## One frame -/

variable {f : Frame}

/-- What a frame draws on the two subscriptions whose handlers share a body. -/
theorem handleFrameMsg_fates {tg : TopologyGraph} {links : Links} {delay : UInt64} {known : Known}
    {x : σ} {protocol : Protocol} {r : Handled σ} (hprotocol : f.sub.faultyProtocol = some protocol)
    (h : handleFrameMsg rng tg links delay f.order known protocol x f.topic f.payload = some r) :
    (r.fates = [] ∧ r.rng = x ∧ faultyFrame f.content = none) ∨
    ∃ px src protocol, faultyFrame f.content = some ((px, src), protocol) ∧ ∃ known base,
      (r.fates, r.rng) = fates rng (fun dst => tg.isLinkAllowed src dst protocol) (links.state delay px src)
        ((destNodes tg known base src protocol).reorder f.order).toList x := by
  rcases handleFrameMsg_cases h with
    ⟨hnil, -, hstay, hearly⟩ | ⟨px, base, src, header, data, htopic, hread, hloop, -⟩
  · refine .inl ⟨hnil, hstay, ?_⟩
    rcases hearly with htopic | hread
    · simp [faultyFrame, Frame.content, senderOf, htopic]
    · simp only [faultyFrame, Frame.content, hread]
      split
      · next heq => cases heq
      · rfl
  · refine .inr ⟨px, src, protocol, ?_, known.note base src, base, hloop⟩
    simp [faultyFrame, Frame.content, senderOf, htopic, hread, hprotocol]

variable {r : Ingested σ}

/-- **What a frame draws.** Either nothing is decided for it, or the loop runs over its destinations
from where the generator is. -/
theorem ingest_fates {s : MainState σ} (h : ingest env args rng s f = some r) :
    (r.fates = [] ∧ r.state.rng = s.rng ∧ faultyFrame f.content = none) ∨
    ∃ px src protocol, faultyFrame f.content = some ((px, src), protocol) ∧ ∃ known base,
      (r.fates, r.state.rng) = fates rng (fun dst => s.tg.isLinkAllowed src dst protocol)
        (s.links.state args.radio.delayNs px src)
        ((destNodes s.tg known base src protocol).reorder f.order).toList s.rng := by
  obtain ⟨sub, topic, payload, order⟩ := f
  cases sub with
  | eth | uart =>
    obtain ⟨r', hr', rfl⟩ := Option.map_eq_some_iff.mp h
    exact handleFrameMsg_fates (f := ⟨_, topic, payload, order⟩) rfl hr'
  | sysc | rf802154 | rfHci | lin =>
    obtain rfl := Option.some.inj h
    exact .inl ⟨rfl, rfl, rfl⟩
  | coord =>
    simp only [ingest] at h
    split at h
    · obtain rfl := Option.some.inj h
      exact .inl ⟨rfl, rfl, rfl⟩
    · obtain rfl := Option.some.inj h
      exact .inl ⟨rfl, rfl, rfl⟩

/-- A link that was never configured has no faults. -/
theorem isQuiet_state {links : Links} {delay : UInt64} {px src dst : String}
    (h : ∀ st, links.get (px, src, dst) = some st → st.IsQuiet) :
    (links.state delay px src dst).IsQuiet := by
  unfold Links.state
  cases hget : links.get (px, src, dst) with
  | none => exact ⟨Rat.le_refl, rfl⟩
  | some st => exact h st hget

/-- The decision for a destination with the generator at `x`. -/
def fateOf (rng : Rng σ) (s₀ : MainState σ) (delay : UInt64) (sender : String × String)
    (protocol : Protocol) (x : σ) (dst : String) : Fate :=
  if s₀.tg.isLinkAllowed sender.2 dst protocol then
    (rng.fate (s₀.links.state delay sender.1 sender.2 dst) x).1
  else .denied

/-- The frame draws for the link `key₀`. -/
def drawsFor (tg : TopologyGraph) (key₀ : String × String × String) (c : Content) : Bool :=
  match faultyFrame c with
  | some ((px, src), protocol) =>
      (px, src) = (key₀.1, key₀.2.1) ∧ key₀.2.2 ≠ src ∧
        tg.isLinkAllowed src key₀.2.2 protocol = true
  | none => false

theorem senderOf_of_faultyFrame {c : Content} {sender : String × String} {protocol : Protocol}
    (h : faultyFrame c = some (sender, protocol)) : senderOf c = some sender := by
  unfold faultyFrame at h
  split at h
  · next hsender _ =>
      rw [hsender, (Prod.mk.inj (Option.some.inj h)).1]
  · cases h

variable {key₀ : String × String × String}

/-- Only frames of the sender of the link draw for it. -/
theorem senderOf_of_drawsFor {tg : TopologyGraph} {c : Content}
    (h : drawsFor tg key₀ c = true) : senderOf c = some (key₀.1, key₀.2.1) := by
  unfold drawsFor at h
  split at h
  · next px src protocol hframe =>
      rw [senderOf_of_faultyFrame hframe, (of_decide_eq_true h).1]
  · cases h

/-- For every sender at most one destination is behind a link with faults. -/
def LonePerSender (s₀ : MainState σ) (delay : UInt64) : Prop :=
  ∀ px src, ∃ d₀, ∀ dst, dst ≠ d₀ → (s₀.links.state delay px src dst).IsQuiet

variable {s₀ s : MainState σ}

/-- A decision about a frame depends on its content, the destination and the generator. -/
theorem eq_fateOf_of_mem (htg : s.tg = s₀.tg)
    (hlinks : s.links = s₀.links) (hlone : LonePerSender s₀ args.radio.delayNs)
    (h : ingest env args rng s f = some r) {dst : String} {fate : Fate} (hmem : (dst, fate) ∈ r.fates) :
    ∃ sender protocol, faultyFrame f.content = some (sender, protocol) ∧
      fate = fateOf rng s₀ args.radio.delayNs sender protocol s.rng dst := by
  rcases ingest_fates h with ⟨hnil, -, -⟩ | ⟨px, src, protocol, hframe, known, base, hloop⟩
  · rw [hnil] at hmem
    exact absurd hmem not_mem_nil
  · rw [htg, hlinks] at hloop
    obtain ⟨d₀, hd₀⟩ := hlone px src
    rw [(Prod.mk.inj hloop).1] at hmem
    exact ⟨(px, src), protocol, hframe,
      (fates_of_lone (HashSet.nodup _) (fun dst _ => hd₀ dst) s.rng).1 dst fate hmem⟩

variable {s₀ : MainState σ}

/-- A decision over a quiet link does not depend on the generator. -/
theorem fateOf_of_isQuiet {delay : UInt64} {sender : String × String}
    {dst : String} (h : (s₀.links.state delay sender.1 sender.2 dst).IsQuiet) (protocol : Protocol)
    (x x' : σ) :
    fateOf rng s₀ delay sender protocol x dst = fateOf rng s₀ delay sender protocol x' dst := by
  rw [fateOf, fateOf, Rng.fate_of_isQuiet h, Rng.fate_of_isQuiet h]

/-- In an explicit topology with one faulty link the generator moves with the frames over it. -/
theorem rng_ingest (htg : s.tg = s₀.tg) (hlinks : s.links = s₀.links) (hexp : s₀.tg.isExplicit = true)
    (hlone : ∀ key st, s₀.links.get key = some st → ¬ st.IsQuiet → key = key₀)
    (h : ingest env args rng s f = some r) : r.state.rng = if drawsFor s₀.tg key₀ f.content then
      (rng.fate (s₀.links.state args.radio.delayNs key₀.1 key₀.2.1 key₀.2.2) s.rng).2 else s.rng := by
  have hquiet : ∀ px src dst, (px, src, dst) ≠ key₀ →
      (s₀.links.state args.radio.delayNs px src dst).IsQuiet := by
    intro px src dst hne
    refine isQuiet_state fun st hget => ?_
    by_contra hnoisy
    exact hne (hlone _ st hget hnoisy)
  rcases ingest_fates h with ⟨-, hstay, hnone⟩ | ⟨px, src, protocol, hframe, known, base, hloop⟩
  · simp [drawsFor, hnone, hstay]
  · rw [htg, hlinks] at hloop
    obtain ⟨px₀, src₀, d₀⟩ := key₀
    have hquiet' : ∀ dst, dst ≠ d₀ → (s₀.links.state args.radio.delayNs px src dst).IsQuiet := by
      intro dst hne
      refine hquiet px src dst fun heq => hne ?_
      exact (Prod.mk.inj (Prod.mk.inj heq).2).2
    have hdests : d₀ ∈ ((destNodes s₀.tg known base src protocol).reorder f.order).toList ↔
        d₀ ≠ src ∧ s₀.tg.isLinkAllowed src d₀ protocol = true := by
      rw [HashSet.mem_reorder, destNodes, if_pos hexp, TopologyGraph.mem_getWirePeers hexp]
    have hrng : r.state.rng = if d₀ ≠ src ∧ s₀.tg.isLinkAllowed src d₀ protocol = true then
        (rng.fate (s₀.links.state args.radio.delayNs px src d₀) s.rng).2 else s.rng := by
      rw [(Prod.mk.inj hloop).2, (fates_of_lone (HashSet.nodup _) (fun dst _ => hquiet' dst) s.rng).2]
      simp only [hdests, and_assoc, and_self]
    rw [hrng]
    by_cases hsender : (px, src) = (px₀, src₀)
    · obtain ⟨rfl, rfl⟩ := Prod.mk.inj hsender
      simp [drawsFor, hframe]
    · -- another sender: its link to `d₀` is quiet, and it does not draw
      have hother : (s₀.links.state args.radio.delayNs px src d₀).IsQuiet := by
        refine hquiet px src d₀ fun heq => hsender ?_
        rw [(Prod.mk.inj heq).1, (Prod.mk.inj (Prod.mk.inj heq).2).1]
      have hnot : drawsFor s₀.tg (px₀, src₀, d₀) f.content = false := by
        simp [drawsFor, hframe, show ¬ (px = px₀ ∧ src = src₀) by simpa using hsender]
      rw [Rng.fate_of_isQuiet hother, hnot]
      simp

/-! ## Many frames -/

variable {fs : List Frame}

/-- The last of some frames that the coordinator has survived. -/
theorem afterFrames_concat {s₀ s' : MainState σ} (h : afterFrames env args rng s₀ (fs ++ [f]) = some s') :
    ∃ s r, afterFrames env args rng s₀ fs = some s ∧ ingest env args rng s f = some r ∧
      s'.tg = s.tg ∧ s'.links = s.links ∧ s'.rng = r.state.rng := by
  have hlast : afterFrames env args rng s₀ (fs ++ [f]) =
      (mainStep env args rng (afterFrames env args rng s₀ fs) (.frame f)).1 := by
    rw [afterFrames, map_append, map_singleton, finalState_concat]
  rw [hlast] at h
  cases hs : afterFrames env args rng s₀ fs with
  | none =>
    rw [hs] at h
    cases h
  | some s =>
    rw [hs] at h
    simp only [mainStep, runningStep] at h
    cases hr : ingest env args rng s f with
    | none =>
      rw [hr] at h
      cases h
    | some r =>
      rw [hr] at h
      obtain rfl := Option.some.inj h
      obtain ⟨htg, hlinks, -, -⟩ := ingest_frame hr
      rw [handOver_frame]
      exact ⟨s, r, rfl, hr, htg, hlinks, rfl⟩

/-- Frames change neither the graph nor the links. -/
theorem afterFrames_tg_links
    (h : afterFrames env args rng s₀ fs = some s) : s.tg = s₀.tg ∧ s.links = s₀.links := by
  induction fs using reverseRecOn generalizing s with
  | nil =>
    obtain rfl := Option.some.inj h
    exact ⟨rfl, rfl⟩
  | append_singleton fs f ih =>
    obtain ⟨s', r, hs', -, htg, hlinks, -⟩ := afterFrames_concat h
    rw [htg, hlinks]
    exact ih hs'

/-- **The generator after some frames** has moved once for each of them that goes over the faulty
link. -/
theorem rng_after (hexp : s₀.tg.isExplicit = true)
    (hlone : ∀ key st, s₀.links.get key = some st → ¬ st.IsQuiet → key = key₀)
    (h : afterFrames env args rng s₀ fs = some s) : s.rng = (fun x => (rng.fate
        (s₀.links.state args.radio.delayNs key₀.1 key₀.2.1 key₀.2.2) x).2)^[
      (fs.map Frame.content).countP (drawsFor s₀.tg key₀)] s₀.rng := by
  induction fs using reverseRecOn generalizing s with
  | nil =>
    obtain rfl := Option.some.inj h
    rfl
  | append_singleton fs f ih =>
    obtain ⟨s', r, hs', hr, -, -, hrng⟩ := afterFrames_concat h
    obtain ⟨htg, hlinks⟩ := afterFrames_tg_links hs'
    rw [hrng, rng_ingest htg hlinks hexp hlone hr, ih hs', map_append, countP_append,
      map_singleton, countP_singleton]
    split
    · rw [Function.iterate_add_apply, Function.iterate_one, ← Function.iterate_succ_apply,
        Function.iterate_succ_apply']
    · rfl

/-- The frames that draw are all among those of one node. -/
theorem countP_drawsFor (tg : TopologyGraph) (key₀ : String × String × String) (cs : List Content) :
    cs.countP (drawsFor tg key₀) = (sentBy (some (key₀.1, key₀.2.1)) cs).countP (drawsFor tg key₀) := by
  rw [sentBy, countP_filter]
  refine countP_congr fun c _ => ?_
  constructor
  · intro hdraws
    rw [hdraws, senderOf_of_drawsFor hdraws]
    simp
  · intro h
    exact (Bool.and_eq_true_iff.mp h).1

theorem exists_of_mem_decisions {before : List Frame} {dst : String}
    {fate : Fate} (h : (dst, fate) ∈ decisions env args rng s₀ before f) :
    ∃ s r, afterFrames env args rng s₀ before = some s ∧ ingest env args rng s f = some r ∧
      (dst, fate) ∈ r.fates := by
  unfold decisions at h
  cases hs : afterFrames env args rng s₀ before with
  | none =>
    rw [hs] at h
    exact absurd h not_mem_nil
  | some s =>
    rw [hs] at h
    cases hr : ingest env args rng s f with
    | none =>
      simp [hr] at h
    | some r => exact ⟨s, r, rfl, hr, by simpa [hr] using h⟩

/-- In two interleavings the same frame of a node comes after the same frames of the node. -/
theorem sentBy_before_eq {as bs before before' later later' : List Frame} {f f' : Frame}
    (hsame : SameFrames as bs) (has : as = before ++ f :: later) (hbs : bs = before' ++ f' :: later')
    (hsender : senderOf f.content = senderOf f'.content)
    (hlen : (sentBy (senderOf f.content) (before.map Frame.content)).length =
      (sentBy (senderOf f.content) (before'.map Frame.content)).length) :
    sentBy (senderOf f.content) (before.map Frame.content) =
      sentBy (senderOf f.content) (before'.map Frame.content) ∧ f.content = f'.content := by
  have hall := hsame (senderOf f.content)
  have hsplit : ∀ (fs : List Frame) (g : Frame) (gs : List Frame),
      senderOf g.content = senderOf f.content →
      sentBy (senderOf f.content) ((fs ++ g :: gs).map Frame.content) =
        sentBy (senderOf f.content) (fs.map Frame.content) ++
          g.content :: sentBy (senderOf f.content) (gs.map Frame.content) := by
    intro fs g gs hg
    simp [sentBy, filter_append, hg]
  rw [has, hbs, hsplit before f later rfl, hsplit before' f' later' hsender.symm] at hall
  obtain ⟨hbefore, hrest⟩ := append_inj hall hlen
  exact ⟨hbefore, (List.cons.inj hrest).1⟩

/-- Confined faults leave at most one noisy destination to each sender. -/
theorem lonePerSender_of_confined (h : FaultsConfined s₀.links s₀.tg)
    (delay : UInt64) : LonePerSender s₀ delay := by
  intro px src
  rcases h with hquiet | ⟨-, key₀, hlone⟩
  · exact ⟨"", fun dst _ => isQuiet_state fun st hget => hquiet _ st hget⟩
  · refine ⟨key₀.2.2, fun dst hne => isQuiet_state fun st hget => ?_⟩
    by_contra hnoisy
    exact hne (congrArg (fun key => key.2.2) (hlone _ st hget hnoisy))

end

/-- **Confined faults are reproducible**: any two interleavings of the frames of the nodes, with any
iteration orders, decide alike about every frame and destination. -/
theorem reproducible_of_confined {σ : Type} (env : Externals) (args : Args) (rng : Rng σ)
    (s₀ : MainState σ) (as bs : List Frame) (hsame : SameFrames as bs)
    (hconfined : FaultsConfined s₀.links s₀.tg) : Reproducible env args rng s₀ as bs := by
  intro before f later before' f' later' has hbs hsender hlen dst fate fate' hmem hmem'
  have hlone := lonePerSender_of_confined hconfined args.radio.delayNs
  obtain ⟨hbefore, hcontent⟩ := sentBy_before_eq hsame has hbs hsender hlen
  obtain ⟨s, r, hs, hr, hfate⟩ := exists_of_mem_decisions hmem
  obtain ⟨s', r', hs', hr', hfate'⟩ := exists_of_mem_decisions hmem'
  obtain ⟨htg, hlinks⟩ := afterFrames_tg_links hs
  obtain ⟨htg', hlinks'⟩ := afterFrames_tg_links hs'
  obtain ⟨sender, protocol, hframe, rfl⟩ := eq_fateOf_of_mem htg hlinks hlone hr hfate
  obtain ⟨sender', protocol', hframe', rfl⟩ := eq_fateOf_of_mem htg' hlinks' hlone hr' hfate'
  rw [← hcontent, hframe] at hframe'
  obtain ⟨rfl, rfl⟩ := Prod.mk.inj (Option.some.inj hframe')
  by_cases hquiet : (s₀.links.state args.radio.delayNs sender.1 sender.2 dst).IsQuiet
  · exact fateOf_of_isQuiet hquiet protocol s.rng s'.rng
  · -- a noisy link is the one link, and both runs have drawn for it equally often
    rcases hconfined with hnone | ⟨hexp, key₀, hkey₀⟩
    · exact absurd (isQuiet_state fun st hget => hnone _ st hget) hquiet
    · have hkey : (sender.1, sender.2, dst) = key₀ := by
        by_contra hne
        refine hquiet (isQuiet_state fun st hget => ?_)
        by_contra hnoisy
        exact hne (hkey₀ _ st hget hnoisy)
      have hnode : senderOf f.content = some (key₀.1, key₀.2.1) := by
        rw [senderOf_of_faultyFrame hframe, ← hkey]
      have hrng : s.rng = s'.rng := by
        rw [rng_after hexp hkey₀ hs, rng_after hexp hkey₀ hs', countP_drawsFor, ← hnode, hbefore,
          hnode, ← countP_drawsFor]
      rw [hrng]

/-! ## Two nodes that send to each other -/

/-- Frames of different nodes may change places. -/
theorem sameFrames_swap {f g : Frame} (h : senderOf f.content ≠ senderOf g.content)
    (fs : List Frame) : SameFrames (f :: g :: fs) (g :: f :: fs) := by
  intro node
  simp only [sentBy, map_cons, filter_cons, decide_eq_true_eq]
  by_cases hf : senderOf f.content = node
  · have hg : ¬ senderOf g.content = node := fun hg => h (hf.trans hg.symm)
    simp only [if_pos hf, if_neg hg]
  · simp only [if_neg hf]

/-- A generator whose fractions alternate between `0` and `1/2`. -/
def tossRng : Rng Nat where
  seedFromU64 seed := seed.toNat
  genF64 n := (if n % 2 = 0 then 0 else 1 / 2, n + 1)
  genRange _ n := (0, n + 1)
  genF64_mem n := by
    by_cases h : n % 2 = 0
    · simp only [if_pos h]
      decide
    · simp only [if_neg h]
      decide +kernel
  genRange_le _ _ := UInt64.le_iff_toNat_le.mpr (Nat.zero_le _)

/-- A frame of a node on the Ethernet of `pairGraph`. -/
def pairFrame (src : String) : Frame where
  sub := .eth
  topic := "sim/eth/frame/" ++ src ++ "/tx"
  payload := DeterministicCoordinator.encodeFrame 1000 7 [170]
  order := IterationOrder.insertion _

/-- The coordinator on `pairGraph`, with the given links and the generator at `x`. -/
def pairState {σ : Type} (rng : Rng σ) (links : Links) (x : σ) : MainState σ :=
  { MainState.start plainArgs rng pairGraph with links := links, rng := x }

/-- Drop probability `p` from `0` to `1`. -/
def oneWay (p : Rat) : Links := HashMap.empty.insert ("", "0", "1") ⟨500, p, 0⟩

/-- Drop probability `p` in both directions. -/
def bothWays (p : Rat) : Links := (oneWay p).insert ("", "1", "0") ⟨500, p, 0⟩

theorem senderOf_pairFrame_ne : senderOf (pairFrame "0").content ≠ senderOf (pairFrame "1").content := by
  decide +kernel

/-- With one faulty link the first frame of node `0` is dropped and the second one passes, whenever
node `1` sends in between. -/
theorem reproducible_oneWay :
    decisions plainExternals plainArgs tossRng (pairState tossRng (oneWay (1 / 4)) 0) [pairFrame "1"]
      (pairFrame "0") = [("1", .dropped)] ∧
    Reproducible plainExternals plainArgs tossRng (pairState tossRng (oneWay (1 / 4)) 0)
      [pairFrame "0", pairFrame "1", pairFrame "0"] [pairFrame "1", pairFrame "0", pairFrame "0"] := by
  refine ⟨by decide +kernel, reproducible_of_confined _ _ _ _ _ _
    (sameFrames_swap senderOf_pairFrame_ne _) (Or.inr ⟨rfl, ("", "0", "1"), fun key st hget _ => ?_⟩)⟩
  rw [HashMap.get_eq_some_iff] at hget
  exact (Prod.mk.inj (List.mem_singleton.mp hget)).1

/-- With both directions faulty, the frame that arrives first is dropped and the other one passes. -/
theorem not_reproducible_bothWays :
    SameFrames [pairFrame "0", pairFrame "1"] [pairFrame "1", pairFrame "0"] ∧
    decisions plainExternals plainArgs tossRng (pairState tossRng (bothWays (1 / 4)) 0) []
      (pairFrame "0") = [("1", .dropped)] ∧
    decisions plainExternals plainArgs tossRng (pairState tossRng (bothWays (1 / 4)) 0)
      [pairFrame "1"] (pairFrame "0") = [("1", .passed none)] ∧
    ¬ Reproducible plainExternals plainArgs tossRng (pairState tossRng (bothWays (1 / 4)) 0)
      [pairFrame "0", pairFrame "1"] [pairFrame "1", pairFrame "0"] := by
  have hfirst : decisions plainExternals plainArgs tossRng
      (pairState tossRng (bothWays (1 / 4)) 0) [] (pairFrame "0") = [("1", .dropped)] := by
    decide +kernel
  have hsecond : decisions plainExternals plainArgs tossRng
      (pairState tossRng (bothWays (1 / 4)) 0) [pairFrame "1"] (pairFrame "0") =
        [("1", .passed none)] := by
    decide +kernel
  refine ⟨sameFrames_swap senderOf_pairFrame_ne [], hfirst, hsecond, fun h => ?_⟩
  have heq := h [] (pairFrame "0") [pairFrame "1"] [pairFrame "1"] (pairFrame "0") [] rfl rfl rfl
    (by decide +kernel) "1" .dropped (.passed none) (by rw [hfirst]; simp) (by rw [hsecond]; simp)
  cases heq

end Virtmcu.ZenohCoordinator
