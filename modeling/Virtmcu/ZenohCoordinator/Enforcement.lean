import Virtmcu.ZenohCoordinator.MainLoop
import Virtmcu.ZenohCoordinator.Relay

/-! # Enforcement of an explicit topology

Seven TX arms feed one unguarded encoder. For six of them the handler finds or keeps only destinations
that the topology admits (`permits_of_mem_ingest`); the arm of `sim/coord` passes on whatever its
batches say. Between ingestion and delivery nothing is invented: a batch, the barrier and a release
only hold messages that some handler made (`LoopState.All`, `handleDone_all`). Hence an explicit
topology is enforced in every run whose `sim/coord` batches stay on its links
(`enforced_of_linkedBatches`), and not in others (`not_enforced_strangerBatch`). -/

namespace Virtmcu.ZenohCoordinator

open List Option

/-! ## The barrier invents no messages -/

section

variable {P : CoordMessage → Prop}

theorem mem_sort {l : List CoordMessage} {m : CoordMessage} : m ∈ sort l ↔ m ∈ l :=
  mem_sortBy _

theorem mem_of_mem_sortTruncate {cap : Nat} {l : List CoordMessage} {m : CoordMessage}
    (h : m ∈ sortTruncate cap l) : m ∈ l :=
  mem_sort.mp (mem_of_mem_take h)

/-- Every message of every entry has the property. -/
def QuantaAll (P : CoordMessage → Prop) (quanta : HashMap UInt64 QuantumData) : Prop :=
  ∀ q data, quanta.get q = some data → ∀ m ∈ data.messages, P m

/-- The messages of an entry that is there or made by `or_default`. -/
theorem QuantaAll.getD {quanta : HashMap UInt64 QuantumData} (h : QuantaAll P quanta) (q : UInt64) :
    ∀ m ∈ ((quanta.get q).getD QuantumData.default).messages, P m := by
  intro m hm
  cases hget : quanta.get q with
  | none =>
    rw [hget] at hm
    exact absurd hm not_mem_nil
  | some data =>
    rw [hget] at hm
    exact h q data hget m hm

theorem QuantaAll.insert {quanta : HashMap UInt64 QuantumData} (h : QuantaAll P quanta) (q : UInt64)
    {data : QuantumData} (hdata : ∀ m ∈ data.messages, P m) : QuantaAll P (quanta.insert q data) := by
  intro q' data' hget
  rw [HashMap.get_insert] at hget
  by_cases hq : q' = q
  · rw [if_pos hq] at hget
    rw [← Option.some.inj hget]
    exact hdata
  · rw [if_neg hq] at hget
    exact h q' data' hget

theorem QuantaAll.remove {quanta : HashMap UInt64 QuantumData} (h : QuantaAll P quanta)
    (q : UInt64) : QuantaAll P (quanta.remove q) := by
  intro q' data' hget
  rw [HashMap.get_remove] at hget
  by_cases hq : q' = q
  · rw [if_pos hq] at hget
    cases hget
  · rw [if_neg hq] at hget
    exact h q' data' hget

/-- The loop of `submit_done` moves messages from the entries to the answer. -/
theorem advance_all {n : Nat} (rounds : Nat) (q : UInt64) {quanta : HashMap UInt64 QuantumData}
    (h : QuantaAll P quanta) :
    (∀ c ∈ (QuantumBarrier.advance n rounds q quanta).completed, ∀ m ∈ c.messages, P m) ∧
      QuantaAll P (QuantumBarrier.advance n rounds q quanta).quanta := by
  induction rounds generalizing q quanta with
  | zero => exact ⟨fun c hc => absurd hc not_mem_nil, h⟩
  | succ rounds ih =>
    rw [QuantumBarrier.advance]
    cases hget : quanta.get q with
    | none => exact ⟨fun c hc => absurd hc not_mem_nil, h⟩
    | some data =>
      simp only
      by_cases hlen : data.doneNodes.toList.length = n
      · rw [if_pos hlen]
        obtain ⟨hcompleted, hrest⟩ := ih (q + 1) (h.remove q)
        refine ⟨fun c hc => ?_, hrest⟩
        rcases mem_cons.mp hc with rfl | hc
        · exact fun m hm => h q data hget m (mem_sort.mp hm)
        · exact hcompleted c hc
      · rw [if_neg hlen]
        exact ⟨fun c hc => absurd hc not_mem_nil, h⟩

/-- A call answers and keeps what was there and what it brings. -/
theorem submit_all {b : QuantumBarrier} {c : DoneCall} (h : QuantaAll P b.quanta)
    (hc : ∀ m ∈ c.messages, P m) : QuantaAll P (b.submit c).1.quanta ∧
      ∀ done ∈ completedOf (b.submit c).2, ∀ m ∈ done.messages, P m := by
  have hdata := h.getD c.quantum
  rw [QuantumBarrier.submit]
  by_cases hstale : c.quantum < b.currentQuantum
  · rw [if_pos hstale]
    exact ⟨h, fun done hdone => absurd hdone not_mem_nil⟩
  · rw [if_neg hstale]
    simp only
    by_cases hdup : c.nodeId ∈ ((b.quanta.get c.quantum).getD QuantumData.default).doneNodes.toList
    · rw [if_pos hdup]
      exact ⟨h.insert c.quantum hdata, fun done hdone => absurd hdone not_mem_nil⟩
    · rw [if_neg hdup]
      have hnoted : ∀ m ∈ (((b.quanta.get c.quantum).getD QuantumData.default).note
          b.maxMessagesPerNode c).messages, P m := by
        intro m hm
        rcases mem_append.mp hm with hm | hm
        · exact hdata m hm
        · exact hc m (mem_of_mem_sortTruncate hm)
      exact (advance_all _ _ (h.insert c.quantum hnoted)).symm

/-- Every message that waits, in a batch or in the barrier, has the property. -/
def LoopState.All (P : CoordMessage → Prop) (s : LoopState) : Prop :=
  (∀ nid, ∀ m ∈ s.batches nid, P m) ∧ QuantaAll P s.barrier.quanta

theorem LoopState.all_start (nodes cap : Nat) : LoopState.All P (LoopState.start nodes cap) :=
  ⟨fun _ _ hm => absurd hm not_mem_nil, fun _ _ hget => absurd hget nofun⟩

theorem LoopState.All.imp {Q : CoordMessage → Prop} {s : LoopState} (h : s.All P)
    (himp : ∀ m, P m → Q m) : s.All Q :=
  ⟨fun nid m hm => himp m (h.1 nid m hm), fun q data hget m hm => himp m (h.2 q data hget m hm)⟩

/-- Messages that enter a batch. -/
theorem LoopState.All.batched {s : LoopState} (h : s.All P) (nodes : Nat) (nid : String)
    {msgs : List CoordMessage} (hmsgs : ∀ m ∈ msgs, P m) :
    (loopStep nodes s (.batched nid msgs)).1.All P := by
  refine ⟨fun nid' m hm => ?_, h.2⟩
  by_cases hnid : nid' = nid
  · subst hnid
    have hm' : m ∈ s.batches nid' ++ msgs := by simpa [loopStep] using hm
    rcases mem_append.mp hm' with hm' | hm'
    · exact h.1 nid' m hm'
    · exact hmsgs m hm'
  · have hm' : m ∈ s.batches nid' := by simpa [loopStep, Function.update_of_ne hnid] using hm
    exact h.1 nid' m hm'

/-- The messages of an answer are those of the completed quanta. -/
theorem mem_answer {completed : List Completed} {sorted : List CoordMessage} {m : CoordMessage}
    (h : QuantumBarrier.answer completed = some sorted) (hm : m ∈ sorted) :
    ∃ done ∈ completed, m ∈ done.messages := by
  unfold QuantumBarrier.answer at h
  split at h
  · cases h
  · obtain rfl := Option.some.inj h
    exact mem_flatMap.mp hm

theorem not_deliver_mem_startEffects {nodes : Nat} {quantum : UInt64} {m : CoordMessage} :
    .deliver m ∉ startEffects nodes quantum := by
  simp [startEffects]

/-- **A DONE report delivers messages that were waiting**, and leaves the others waiting. -/
theorem handleDone_all {s : LoopState} (h : s.All P) (nodes : Nat) (topic : String) (payload : List UInt8) :
    (handleDone nodes s topic payload).1.All P ∧
      ∀ m, .deliver m ∈ (handleDone nodes s topic payload).2 → P m := by
  unfold handleDone
  cases parseDoneTopic topic with
  | none => exact ⟨h, fun m hm => absurd hm not_mem_nil⟩
  | some nid =>
    obtain ⟨hquanta, hcompleted⟩ := submit_all (c := doneCall s nid payload) h.2 (h.1 nid)
    -- the batch of the reporting node is emptied, the others stay
    have hbatches : ∀ nid', ∀ m ∈ Function.update s.batches nid [] nid', P m := by
      intro nid' m hm
      by_cases hnid : nid' = nid
      · subst hnid
        simp at hm
      · rw [Function.update_of_ne hnid] at hm
        exact h.1 nid' m hm
    simp only [QuantumBarrier.submitDone]
    cases hresult : (s.barrier.submit (doneCall s nid payload)).2 with
    | error e =>
      exact ⟨⟨hbatches, hquanta⟩, fun m hm => absurd hm not_mem_nil⟩
    | ok completed =>
      rw [hresult] at hcompleted
      cases hanswer : QuantumBarrier.answer completed with
      | none =>
        simp only [Except.map, hanswer]
        exact ⟨⟨hbatches, hquanta⟩, fun m hm => absurd hm not_mem_nil⟩
      | some sorted =>
        simp only [Except.map, hanswer]
        refine ⟨⟨hbatches, hquanta⟩, fun m hm => ?_⟩
        rcases mem_append.mp hm with hm | hm
        · obtain ⟨m', hm', heq⟩ := mem_map.mp hm
          obtain rfl := Effect.deliver.inj heq
          obtain ⟨done, hdone, hmem⟩ := mem_answer hanswer hm'
          exact hcompleted done hdone m' hmem
        · exact absurd hm not_deliver_mem_startEffects

end

/-! ## What the handlers admit -/

/-- The topology admits a message that came in over a subscription. SystemC frames are looked up under
SPI; a message of a batch has its own protocol. -/
def TopologyGraph.permits (tg : TopologyGraph) (sub : TxSub) (m : CoordMessage) : Bool :=
  match sub with
  | .eth => tg.isLinkAllowed m.srcNodeId m.dstNodeId .ethernet
  | .uart => tg.isLinkAllowed m.srcNodeId m.dstNodeId .uart
  | .sysc => tg.isLinkAllowed m.srcNodeId m.dstNodeId .spi
  | .lin => tg.isLinkAllowed m.srcNodeId m.dstNodeId .lin
  | .rf802154 | .rfHci => decide (m.dstNodeId ∈ (tg.rfNeighbors m.srcNodeId).toList)
  | .coord => tg.isLinkAllowed m.srcNodeId m.dstNodeId m.protocol

section

variable {σ : Type} {env : Externals} {args : Args} {rng : Rng σ} {tg : TopologyGraph}
  {links : Links} {delay : UInt64} {order : IterationOrder String} {known : Known}

/-- The link test of the Ethernet and UART arms. -/
theorem isLinkAllowed_of_mem_handleFrameMsg {protocol : Protocol} {s : σ} {topic : String}
    {p : List UInt8} {r : Handled σ}
    (h : handleFrameMsg rng tg links delay order known protocol s topic p = some r)
    {m : CoordMessage} (hm : m ∈ r.msgs) : tg.isLinkAllowed m.srcNodeId m.dstNodeId protocol = true := by
  rcases handleFrameMsg_cases h with
    ⟨-, hnil, -⟩ | ⟨px, base, src, header, data, -, -, hloop, hmsgs⟩
  · rw [hnil] at hm
    exact absurd hm not_mem_nil
  · rw [hmsgs] at hm
    obtain ⟨⟨dst, fate⟩, hfate, hmessage⟩ := mem_filterMap.mp hm
    cases fate with
    | denied | dropped => cases hmessage
    | passed jitter =>
      obtain rfl := Option.some.inj hmessage
      rw [(Prod.mk.inj hloop).1] at hfate
      exact isAllowed_of_passed hfate

theorem isLinkAllowed_of_mem_handleLinMsg {topic : String} {p : List UInt8} {m : CoordMessage}
    (hm : m ∈ (handleLinMsg env tg links delay order known topic p).2) :
    tg.isLinkAllowed m.srcNodeId m.dstNodeId .lin = true := by
  unfold handleLinMsg at hm
  split at hm
  · exact absurd hm not_mem_nil
  · split at hm
    · exact absurd hm not_mem_nil
    · obtain ⟨dst, hdst, rfl⟩ := mem_map.mp hm
      exact (mem_filter.mp hdst).2

/-- The SystemC arm has no link test, but looks its destinations up on the wires. -/
theorem isLinkAllowed_of_mem_handleSyscMsg (hexp : tg.isExplicit = true) {topic : String}
    {p : List UInt8} {m : CoordMessage} (hm : m ∈ (handleSyscMsg tg links delay order known topic p).2) :
    tg.isLinkAllowed m.srcNodeId m.dstNodeId .spi = true := by
  unfold handleSyscMsg at hm
  split at hm
  · exact absurd hm not_mem_nil
  · split at hm
    · exact absurd hm not_mem_nil
    · split at hm
      · exact absurd hm not_mem_nil
      · obtain ⟨dst, hdst, rfl⟩ := mem_map.mp hm
        rw [HashSet.mem_reorder, destNodes, if_pos hexp] at hdst
        exact TopologyGraph.isLinkAllowed_of_mem_getWirePeers hdst

/-- The radio arms keep radio neighbours only. -/
theorem mem_rfNeighbors_of_mem_handleRfMsg (hexp : tg.isExplicit = true) {radio : RadioArgs}
    {positions : NodePositions} {hasHdr : Bool} {topic : String} {p : List UInt8} {m : CoordMessage}
    (hm : m ∈ (handleRfMsg env radio tg positions order known hasHdr topic p).2) :
    m.dstNodeId ∈ (tg.rfNeighbors m.srcNodeId).toList := by
  unfold handleRfMsg at hm
  split at hm
  · exact absurd hm not_mem_nil
  · split at hm
    · exact absurd hm not_mem_nil
    · obtain ⟨dst, hdst, hmessage⟩ := mem_filterMap.mp hm
      simp only at hmessage
      split at hmessage
      · cases hmessage
      · obtain rfl := Option.some.inj hmessage
        simp only [rfCandidates, hexp, if_true] at hdst
        split at hdst
        · simpa using (mem_filter.mp hdst).2
        · exact absurd hdst not_mem_nil

/-- **Every handler admits only what the topology permits.** The batches of `sim/coord` have none. -/
theorem permits_of_mem_ingest {s : MainState σ} {f : Frame} {r : Ingested σ}
    (hexp : s.tg.isExplicit = true) (h : ingest env args rng s f = some r) (hsub : f.sub ≠ .coord)
    {m : CoordMessage} (hm : m ∈ r.msgs) : s.tg.permits f.sub m = true := by
  obtain ⟨sub, topic, payload, order⟩ := f
  cases sub with
  | eth | uart =>
    obtain ⟨r', hr', rfl⟩ := map_eq_some_iff.mp h
    exact isLinkAllowed_of_mem_handleFrameMsg hr' hm
  | sysc =>
    obtain rfl := Option.some.inj h
    exact isLinkAllowed_of_mem_handleSyscMsg hexp hm
  | rf802154 | rfHci =>
    obtain rfl := Option.some.inj h
    exact decide_eq_true (mem_rfNeighbors_of_mem_handleRfMsg hexp hm)
  | lin =>
    obtain rfl := Option.some.inj h
    exact isLinkAllowed_of_mem_handleLinMsg hm
  | coord => exact absurd rfl hsub

/-- The messages of the `sim/coord` arm are those of its batch. -/
theorem mem_decodeBatch_of_mem_ingest {s : MainState σ} {f : Frame} {r : Ingested σ}
    (h : ingest env args rng s f = some r) (hsub : f.sub = .coord) {m : CoordMessage}
    (hm : m ∈ r.msgs) : m ∈ decodeBatch f.payload := by
  simp only [ingest, hsub] at h
  split at h
  · obtain rfl := Option.some.inj h
    exact hm
  · obtain rfl := Option.some.inj h
    exact absurd hm not_mem_nil

end

/-! ## Runs -/

section

variable {σ : Type} (env : Externals) (args : Args) (rng : Rng σ)

/-- The record of a run from the start. -/
abbrev mainRun (tg : TopologyGraph) (arrivals : List Arrival) : List (MainEntry σ) :=
  entries (mainStep env args rng) (some (MainState.start args rng tg)) arrivals

/-- The messages a turn takes in. -/
def ingestedBy (e : MainEntry σ) : List CoordMessage :=
  match e.before, e.input with
  | some s, .frame f => ((ingest env args rng s f).map Ingested.msgs).getD []
  | _, _ => []

/-- The topology, as it is at that turn, permits a message that the turn takes in. -/
def permittedAt (e : MainEntry σ) (m : CoordMessage) : Bool :=
  match e.before, e.input with
  | some s, .frame f => s.tg.permits f.sub m
  | _, _ => false

/-- **The topology is enforced**: every message put to a receiver was taken in at some turn, and was
permitted at every turn that took it in. -/
def Enforced (tg : TopologyGraph) (arrivals : List Arrival) : Prop :=
  ∀ m, (∃ e ∈ mainRun env args rng tg arrivals, .deliver m ∈ e.output) →
    (∃ e ∈ mainRun env args rng tg arrivals, m ∈ ingestedBy env args rng e) ∧
    ∀ e ∈ mainRun env args rng tg arrivals, m ∈ ingestedBy env args rng e →
      permittedAt e m = true

/-- **The batches stay on the links**: every message of every `sim/coord` batch goes between nodes
that are joined by a link of its protocol. -/
def LinkedBatches (tg : TopologyGraph) (arrivals : List Arrival) : Prop :=
  ∀ f, .frame f ∈ arrivals → f.sub = .coord → ∀ m ∈ decodeBatch f.payload,
    tg.isLinkAllowed m.srcNodeId m.dstNodeId m.protocol = true

variable {env args rng}

/-! ### The wires do not change -/

/-- The graph has the wires of `tg` and is explicit if `tg` is. -/
def SameWires (tg : TopologyGraph) (st : Option (MainState σ)) : Prop :=
  ∀ s, st = some s → s.tg.wireLinks = tg.wireLinks ∧ s.tg.isExplicit = tg.isExplicit

theorem sameWires_step {tg : TopologyGraph} (st : Option (MainState σ)) (a : Arrival)
    (h : SameWires tg st) : SameWires tg (mainStep env args rng st a).1 := by
  cases st with
  | none => exact fun s hs => absurd hs nofun
  | some s =>
    have hwires := h s rfl
    intro s' hs'
    cases a with
    | frame f =>
      simp only [mainStep, runningStep] at hs'
      cases hingest : ingest env args rng s f with
      | none =>
        rw [hingest] at hs'
        cases hs'
      | some r =>
        rw [hingest] at hs'
        obtain rfl := Option.some.inj hs'
        rw [handOver_frame, (ingest_frame hingest).1]
        exact hwires
    | done topic payload =>
      simp only [mainStep, runningStep] at hs'
      split at hs'
      · obtain rfl := Option.some.inj hs'
        exact hwires
      · obtain rfl := Option.some.inj hs'
        exact hwires
    | control topic payload =>
      obtain rfl := Option.some.inj hs'
      unfold handleControl
      split
      · exact hwires
      · exact hwires
    | position topic payload =>
      obtain rfl := Option.some.inj hs'
      unfold handlePosition
      split
      · exact hwires
      · exact hwires

/-- At every turn of a run the link test answers as at its start. -/
theorem sameWires_of_mem_mainRun {tg : TopologyGraph} {arrivals : List Arrival} {e : MainEntry σ}
    (he : e ∈ mainRun env args rng tg arrivals) : SameWires tg e.before := by
  obtain ⟨pre, a, post, -, rfl⟩ := (mem_entries _).mp he
  refine finalState_invariant (mainStep env args rng) sameWires_step ?_ pre
  intro s hs
  obtain rfl := Option.some.inj hs
  exact ⟨rfl, rfl⟩

theorem isLinkAllowed_congr {g g' : TopologyGraph} (hwires : g.wireLinks = g'.wireLinks)
    (hexp : g.isExplicit = g'.isExplicit) (src dst : String) (protocol : Protocol) :
    g.isLinkAllowed src dst protocol = g'.isLinkAllowed src dst protocol := by
  rw [TopologyGraph.isLinkAllowed, TopologyGraph.isLinkAllowed, hwires, hexp]

/-! ### Where delivered messages come from -/

/-- A message that some turn of the record has taken in. -/
def WasIngested (env : Externals) (args : Args) (rng : Rng σ) (es : List (MainEntry σ))
    (m : CoordMessage) : Prop :=
  ∃ e ∈ es, m ∈ ingestedBy env args rng e

theorem WasIngested.append {es : List (MainEntry σ)} {m : CoordMessage}
    (h : WasIngested env args rng es m) (es' : List (MainEntry σ)) :
    WasIngested env args rng (es ++ es') m := by
  obtain ⟨e, he, hm⟩ := h
  exact ⟨e, mem_append_left _ he, hm⟩

/-- Messages that wait and messages that were delivered have all been taken in. -/
def Traced (env : Externals) (args : Args) (rng : Rng σ) (es : List (MainEntry σ))
    (st : Option (MainState σ)) : Prop :=
  (∀ s, st = some s → s.loop.All (WasIngested env args rng es)) ∧
    ∀ e ∈ es, ∀ m, .deliver m ∈ e.output → WasIngested env args rng es m

/-- With PDES a frame's messages are appended to the batches, some or all at a time. -/
theorem exists_batched_of_mem_batchSamples {f : Frame} {msgs : List CoordMessage} {x : Sample}
    (hx : x ∈ batchSamples f msgs) : ∃ nid part, x = .batched nid part ∧ part ⊆ msgs := by
  unfold batchSamples at hx
  split at hx
  · obtain ⟨nid, -, rfl⟩ := map_eq_some_iff.mp (mem_toList.mp hx)
    exact ⟨nid, msgs, rfl, List.Subset.refl _⟩
  · obtain ⟨m, hm, rfl⟩ := mem_map.mp hx
    exact ⟨m.srcNodeId, [m], rfl, cons_subset.mpr ⟨hm, nil_subset _⟩⟩

/-- Messages that are appended to the batches wait with the others. -/
theorem LoopState.All.batchSamples {P : CoordMessage → Prop} {loop : LoopState} (h : loop.All P)
    (nodes : Nat) (f : Frame) {msgs : List CoordMessage} (hmsgs : ∀ m ∈ msgs, P m) :
    (finalState (loopStep nodes) loop (batchSamples f msgs)).All P := by
  have hsamples : ∀ x ∈ ZenohCoordinator.batchSamples f msgs, ∃ nid part,
      x = .batched nid part ∧ part ⊆ msgs := fun _ => exists_batched_of_mem_batchSamples
  generalize ZenohCoordinator.batchSamples f msgs = xs at hsamples
  induction xs generalizing loop with
  | nil => exact h
  | cons x xs ih =>
    obtain ⟨nid, part, rfl, hpart⟩ := hsamples x mem_cons_self
    rw [finalState_cons]
    have hbatched := h.batched nodes nid fun m hm => hmsgs m (hpart hm)
    exact ih hbatched fun y hy => hsamples y (mem_cons_of_mem _ hy)

/-- Handing over puts the new messages where they wait, or delivers them. -/
theorem handOver_all {P : CoordMessage → Prop} {s : MainState σ} (h : s.loop.All P) (args : Args)
    (f : Frame) {msgs : List CoordMessage} (hmsgs : ∀ m ∈ msgs, P m) :
    (handOver args s f msgs).1.loop.All P ∧ ∀ m, .deliver m ∈ (handOver args s f msgs).2 → P m := by
  unfold handOver
  by_cases hpdes : args.pdes = true
  · rw [if_pos hpdes]
    exact ⟨h.batchSamples (args.nodes.getD 0) f hmsgs, fun m hm => absurd hm not_mem_nil⟩
  · rw [if_neg hpdes]
    refine ⟨h, fun m hm => ?_⟩
    obtain ⟨m', hm', heq⟩ := mem_map.mp hm
    obtain rfl := Effect.deliver.inj heq
    exact hmsgs m' hm'

/-- **One turn**: it delivers what was waiting or what it has just taken in, and keeps the rest
waiting. -/
theorem runningStep_all {P : CoordMessage → Prop} {s : MainState σ} (h : s.loop.All P) {a : Arrival}
    (hmsgs : ∀ f r, a = .frame f → ingest env args rng s f = some r → ∀ m ∈ r.msgs, P m) :
    (∀ s', (runningStep env args rng s a).1 = some s' → s'.loop.All P) ∧
      ∀ m, .deliver m ∈ (runningStep env args rng s a).2 → P m := by
  cases a with
  | frame f =>
    cases hingest : ingest env args rng s f with
    | none =>
      simp only [runningStep, hingest]
      exact ⟨fun s' hs' => absurd hs' nofun, fun m hm => absurd hm not_mem_nil⟩
    | some r =>
      rw [← (ingest_frame hingest).2.2.2] at h
      obtain ⟨hloop, hdeliver⟩ := handOver_all h args f (hmsgs f r rfl hingest)
      simp only [runningStep, hingest]
      refine ⟨fun s' hs' => ?_, hdeliver⟩
      obtain rfl := Option.some.inj hs'
      exact hloop
  | done topic payload =>
    obtain ⟨hloop, hdeliver⟩ := handleDone_all h (args.nodes.getD 0) topic payload
    simp only [runningStep]
    split
    · refine ⟨fun s' hs' => ?_, hdeliver⟩
      obtain rfl := Option.some.inj hs'
      exact hloop
    · refine ⟨fun s' hs' => ?_, fun m hm => absurd hm not_mem_nil⟩
      obtain rfl := Option.some.inj hs'
      exact h
  | control topic payload =>
    refine ⟨fun s' hs' => ?_, fun m hm => absurd hm not_mem_nil⟩
    obtain rfl := Option.some.inj hs'
    unfold handleControl
    split
    · exact h
    · exact h
  | position topic payload =>
    refine ⟨fun s' hs' => ?_, fun m hm => absurd hm not_mem_nil⟩
    obtain rfl := Option.some.inj hs'
    unfold handlePosition
    split
    · exact h
    · exact h

/-- A turn keeps the trace. -/
theorem traced_step (es : List (MainEntry σ)) (st : Option (MainState σ)) (a : Arrival)
    (h : Traced env args rng es st) : Traced env args rng (es ++ [entryAt (mainStep env args rng) st a])
      (mainStep env args rng st a).1 := by
  have hgrow : ∀ m, WasIngested env args rng es m →
      WasIngested env args rng (es ++ [entryAt (mainStep env args rng) st a]) m :=
    fun m hm => hm.append _
  -- it is enough to look at the new turn
  suffices hnew : (∀ s, (mainStep env args rng st a).1 = some s →
      s.loop.All (WasIngested env args rng (es ++ [entryAt (mainStep env args rng) st a]))) ∧
      ∀ m, .deliver m ∈ (mainStep env args rng st a).2 →
        WasIngested env args rng (es ++ [entryAt (mainStep env args rng) st a]) m by
    refine ⟨hnew.1, fun e he m hm => ?_⟩
    rcases mem_append.mp he with he | he
    · exact hgrow m (h.2 e he m hm)
    · obtain rfl := mem_singleton.mp he
      exact hnew.2 m hm
  cases st with
  | none => exact ⟨fun s hs => absurd hs nofun, fun m hm => absurd hm not_mem_nil⟩
  | some s =>
    refine runningStep_all ((h.1 s rfl).imp hgrow) ?_
    rintro f r rfl hingest m hm
    refine ⟨_, mem_append_right _ (mem_singleton.mpr rfl), ?_⟩
    simp only [ingestedBy, entryAt_before, entryAt_input, hingest]
    exact hm

/-- **No message is invented**: in every run, whatever is delivered was taken in. -/
theorem traced_mainRun (tg : TopologyGraph) (arrivals : List Arrival) :
    Traced env args rng (mainRun env args rng tg arrivals)
      (finalState (mainStep env args rng) (some (MainState.start args rng tg)) arrivals) := by
  refine entries_invariant _ ⟨fun s hs => ?_, fun e he => absurd he not_mem_nil⟩
    traced_step arrivals
  obtain rfl := Option.some.inj hs
  exact LoopState.all_start _ _

/-- A turn takes in permitted messages, if its batch stays on the links. -/
theorem permittedAt_of_mem_ingestedBy {tg : TopologyGraph} {arrivals : List Arrival}
    (hexp : tg.isExplicit = true) (hlinked : LinkedBatches tg arrivals) {e : MainEntry σ}
    (he : e ∈ mainRun env args rng tg arrivals) {m : CoordMessage}
    (hm : m ∈ ingestedBy env args rng e) : permittedAt e m = true := by
  have hwires := sameWires_of_mem_mainRun he
  have hinput : e.input ∈ arrivals := by
    rw [← entries_map_input (mainStep env args rng) (some (MainState.start args rng tg)) arrivals]
    exact mem_map_of_mem (f := Entry.input) he
  obtain ⟨before, input, output, after⟩ := e
  cases before with
  | none => exact absurd hm not_mem_nil
  | some s =>
    obtain ⟨hsame, hexplicit⟩ := hwires s rfl
    cases input with
    | frame f =>
      simp only [ingestedBy] at hm
      cases hingest : ingest env args rng s f with
      | none =>
        rw [hingest] at hm
        exact absurd hm not_mem_nil
      | some r =>
        rw [hingest] at hm
        by_cases hsub : f.sub = .coord
        · have hallowed := hlinked f hinput hsub m (mem_decodeBatch_of_mem_ingest hingest hsub hm)
          simp only [permittedAt, TopologyGraph.permits, hsub]
          rw [isLinkAllowed_congr hsame hexplicit]
          exact hallowed
        · exact permits_of_mem_ingest (hexplicit.trans hexp) hingest hsub hm
    | done topic payload | control topic payload | position topic payload =>
      exact absurd hm not_mem_nil

end

/-- **An explicit topology is enforced on every path while the batches stay on the links**: in every
run, in PDES mode or not, whatever the order of frames, reports, control and telemetry. -/
theorem enforced_of_linkedBatches {σ : Type} (env : Externals) (args : Args) (rng : Rng σ)
    (tg : TopologyGraph) (arrivals : List Arrival) (hexp : tg.isExplicit = true)
    (hlinked : LinkedBatches tg arrivals) : Enforced env args rng tg arrivals := by
  rintro m ⟨e, he, hdeliver⟩
  refine ⟨(traced_mainRun tg arrivals).2 e he m hdeliver, fun e' he' hm => ?_⟩
  exact permittedAt_of_mem_ingestedBy hexp hlinked he' hm

/-! ## Batches on and off the links -/

/-- Externals for runs without flatbuffers and without JSON. -/
def plainExternals : Externals where
  flatbuffers := Devices.plainFlatbuffers
  createLinFrame _ := []
  topologyUpdate _ := none
  positionUpdate _ := none

/-- Arguments with the default delay, outside PDES mode. -/
def plainArgs : Args where
  radio := ⟨1000000, 0.0, -90.0, []⟩
  seed := 42
  nodes := none
  pdes := false

/-- A batch of one message on `sim/coord/<nid>/tx`. -/
def batchFrame (nid : String) (m : DeterministicCoordinator.CoordMessage) : Frame where
  sub := .coord
  topic := "sim/coord/" ++ nid ++ "/tx"
  payload := leBytes 4 1 ++ DeterministicCoordinator.encodeMessage m
  order := IterationOrder.insertion _

/-- On a topology with one Ethernet between `0` and `1`, a batch from `0` to `1` and a frame of `0` are
both delivered. -/
theorem enforced_pairGraph : ((mainRun plainExternals plainArgs stillRng pairGraph
        [.frame (batchFrame "0" ⟨0, 1, 1000, 1, .ethernet, [170], none⟩),
          .frame ⟨.eth, "sim/eth/frame/0/tx", DeterministicCoordinator.encodeFrame 1000 7 [170],
            IterationOrder.insertion _⟩]).map fun e => e.output.length) = [1, 1] ∧
    Enforced plainExternals plainArgs stillRng pairGraph
      [.frame (batchFrame "0" ⟨0, 1, 1000, 1, .ethernet, [170], none⟩),
        .frame ⟨.eth, "sim/eth/frame/0/tx", DeterministicCoordinator.encodeFrame 1000 7 [170],
          IterationOrder.insertion _⟩] := by
  refine ⟨by decide +kernel, enforced_of_linkedBatches _ _ _ _ _ rfl ?_⟩
  intro f hf hsub
  rcases List.mem_cons.mp hf with heq | hf
  · obtain rfl := Arrival.frame.inj heq
    decide +kernel
  · obtain rfl := Arrival.frame.inj (List.mem_singleton.mp hf)
    cases hsub

/-- Node `2` is on no link of the topology. Its batch to node `0` is put to `sim/coord/0/rx`. -/
theorem not_enforced_strangerBatch : (∃ m, .deliver m ∈ (mainStep plainExternals plainArgs stillRng
        (some (MainState.start plainArgs stillRng pairGraph))
        (.frame (batchFrame "2" ⟨2, 0, 1000, 1, .ethernet, [170], none⟩))).2 ∧
      (encodeProtocolMsg m).1 = "sim/coord/0/rx" ∧
      pairGraph.isLinkAllowed m.srcNodeId m.dstNodeId m.protocol = false) ∧
    ¬ Enforced plainExternals plainArgs stillRng pairGraph
      [.frame (batchFrame "2" ⟨2, 0, 1000, 1, .ethernet, [170], none⟩)] := by
  have hdeliver : .deliver (⟨"2", "0", "sim/coord", 1000, 1, .ethernet, [170]⟩ : CoordMessage) ∈
      (mainStep plainExternals plainArgs stillRng (some (MainState.start plainArgs stillRng pairGraph))
        (.frame (batchFrame "2" ⟨2, 0, 1000, 1, .ethernet, [170], none⟩))).2 := by
    decide +kernel
  refine ⟨⟨_, hdeliver, by decide +kernel, by decide⟩, fun h => ?_⟩
  obtain ⟨⟨e, he, hm⟩, hpermitted⟩ := h _ ⟨_, List.mem_singleton.mpr rfl, hdeliver⟩
  have hfalse := hpermitted e he hm
  obtain rfl := List.mem_singleton.mp he
  exact absurd hfalse (by decide +kernel)

end Virtmcu.ZenohCoordinator
