import Virtmcu.FlexRay.Controller
import Virtmcu.Foundations.Run

/-! # The slots of the message RAM

The message RAM has 128 slots of 64 bytes. A transfer copies the whole input buffer, 64 words, to the
start of a slot: 256 bytes, so it runs over the next three slots (`slotData_writeIbcr`). What a slot
contains is then not what was transferred to it last, and the frame that is transmitted for it and the
output buffer show that.

The slots are independent exactly as long as every transfer writes into the next three slots what they
contain already (`independent_iff`). -/

namespace Virtmcu.FlexRay

open Devices Comms List

/-! ## What a transfer writes -/

/-- The bytes of a buffer. -/
def bufferBytes (words : Buffer) : List UInt8 := (List.ofFn words).flatMap fun word => leBytes 4 word.toNat

/-- The 64 data bytes of a slot. -/
def State.slotData (s : State) (slot : Fin 128) : List UInt8 := s.msgRamData.read (slot.val * 64) 64

/-- Four bytes for each word. -/
theorem length_flatMap_leBytes (words : List UInt32) :
    (words.flatMap fun word => leBytes 4 word.toNat).length = 4 * words.length := by
  induction words with
  | nil => rfl
  | cons word words ih =>
    rw [flatMap_cons, length_append, length_leBytes, ih, length_cons]
    omega

/-- A buffer has 256 bytes. -/
theorem length_bufferBytes (words : Buffer) : (bufferBytes words).length = 256 := by
  rw [bufferBytes, length_flatMap_leBytes, length_ofFn]

/-- The loop over the words is one write, as far as the RAM goes. -/
theorem storeWords_apply {offset : ℕ} (hoffset : 4 ∣ offset) (words : List UInt32) (ram : ByteMemory)
    {a : ℕ} (ha : a < 8192) : storeWords offset words ram a =
      ram.write offset (words.flatMap fun word => leBytes 4 word.toNat) a := by
  induction words generalizing offset ram with
  | nil => rw [storeWords, flatMap_nil, ByteMemory.write_nil]
  | cons word words ih =>
    rw [storeWords, ih (Nat.dvd_add hoffset (Nat.dvd_refl 4))]
    by_cases hroom : offset + 3 < 8192
    · have happend := ByteMemory.write_append offset (leBytes 4 word.toNat)
        (words.flatMap fun word => leBytes 4 word.toNat) ram
      rw [length_leBytes] at happend
      rw [if_pos hroom, happend, flatMap_cons]
    · -- the word starts behind the RAM, since words do not straddle its end
      have hend : 8192 ≤ offset := by omega
      rw [if_neg hroom, ByteMemory.write_of_lt (by omega), ByteMemory.write_of_lt (by omega)]

/-- A transfer stores the input buffer from its slot on. -/
theorem msgRamData_writeIbcr (data : UInt64) (s : State) : (writeIbcr data s).msgRamData =
      storeWords ((slotOf data).val * 64) (ofFn s.wrds) s.msgRamData := by
  simp only [writeIbcr]

/-- **A transfer reaches four slots**: its own and the next three. -/
theorem slotData_writeIbcr (data : UInt64) (s : State) (slot : Fin 128) : (writeIbcr data s).slotData slot =
      if (slotOf data).val ≤ slot.val ∧ slot.val ≤ (slotOf data).val + 3 then
        ((bufferBytes s.wrds).drop ((slot.val - (slotOf data).val) * 64)).take 64 else s.slotData slot := by
  have hslot := slot.isLt
  have hwrite : (writeIbcr data s).slotData slot =
      (s.msgRamData.write ((slotOf data).val * 64) (bufferBytes s.wrds)).read (slot.val * 64) 64 := by
    rw [State.slotData, msgRamData_writeIbcr]
    refine ByteMemory.read_congr fun a _ ha => ?_
    have hoffset : 4 ∣ (slotOf data).val * 64 := Nat.dvd_trans (by decide) (Nat.dvd_mul_left 64 _)
    rw [bufferBytes, storeWords_apply hoffset _ _ (by omega)]
  rw [hwrite]
  split
  · rename_i hnear
    have hbase : slot.val * 64 =
        (slotOf data).val * 64 + (slot.val - (slotOf data).val) * 64 := by omega
    rw [hbase, ByteMemory.read_write_inside]
    rw [length_bufferBytes]
    omega
  · rename_i hfar
    by_cases hbefore : slot.val < (slotOf data).val
    · exact ByteMemory.read_write_of_le (by omega)
    · refine ByteMemory.read_write_of_ge ?_
      rw [length_bufferBytes]
      omega

/-- The headers of the other slots stay. -/
theorem msgRamHeaders_writeIbcr (data : UInt64) (s : State) {slot : Fin 128} (h : slot ≠ slotOf data) :
    (writeIbcr data s).msgRamHeaders slot = s.msgRamHeaders slot :=
  Function.update_of_ne h _ _

/-! ## What the output buffer shows -/

/-- A word of the RAM is four bytes of it. -/
theorem leBytes_loadWord (ram : ByteMemory) (offset : ℕ) :
    leBytes 4 (loadWord ram offset).toNat = ram.read offset 4 := by
  have hlength := ByteMemory.length_read offset 4 ram
  have hlt := leNat_lt (ram.read offset 4)
  have hbytes := leBytes_leNat (ram.read offset 4)
  rw [hlength] at hlt hbytes
  have hword : (loadWord ram offset).toNat = leNat (ram.read offset 4) := by
    rw [loadWord, Nat.toUInt32_eq, UInt32.toNat_ofNat']
    exact Nat.mod_eq_of_lt hlt
  rw [hword, hbytes]

/-- The first words of a buffer are the first bytes. -/
theorem take_flatMap_leBytes (n : ℕ) (words : List UInt32) :
    (words.flatMap fun word => leBytes 4 word.toNat).take (4 * n) =
      (words.take n).flatMap fun word => leBytes 4 word.toNat := by
  induction n generalizing words with
  | zero => simp
  | succ n ih =>
    cases words with
    | nil => simp
    | cons word words =>
      rw [flatMap_cons, take_succ_cons, flatMap_cons, ← ih, take_append,
        length_leBytes, take_of_length_le (by rw [length_leBytes]; omega)]
      rfl

/-- The first 16 words of the output buffer are the data of the slot. -/
theorem ords_writeObcr (data : UInt64) (s : State) :
    (bufferBytes (writeObcr data s).ords).take 64 = s.slotData (slotOf data) := by
  have hslot := (slotOf data).isLt
  have hwords : (List.ofFn (writeObcr data s).ords).take 16 =
      (List.range 16).map fun i => loadWord s.msgRamData ((slotOf data).val * 64 + i * 4) := by
    refine List.ext_getElem (by simp) fun i hi hi' => ?_
    rw [List.length_take, List.length_ofFn] at hi
    rw [List.getElem_take, List.getElem_ofFn, List.getElem_map, List.getElem_range]
    exact if_pos (by dsimp only; omega)
  rw [bufferBytes, take_flatMap_leBytes 16, hwords, List.flatMap_map]
  simp only [leBytes_loadWord]
  rw [ByteMemory.flatMap_read, State.slotData]

/-! ## What leaves the RAM alone -/

/-- The RAM and the headers are the same. -/
structure KeepsRam (s t : State) : Prop where
  msgRamData : t.msgRamData = s.msgRamData
  msgRamHeaders : t.msgRamHeaders = s.msgRamHeaders

theorem KeepsRam.refl (s : State) : KeepsRam s s := ⟨rfl, rfl⟩

theorem KeepsRam.trans {s t u : State} (hst : KeepsRam s t) (htu : KeepsRam t u) : KeepsRam s u :=
  ⟨htu.msgRamData.trans hst.msgRamData, htu.msgRamHeaders.trans hst.msgRamHeaders⟩

/-- So is the data of every slot. -/
theorem KeepsRam.slotData {s t : State} (h : KeepsRam s t) (slot : Fin 128) :
    t.slotData slot = s.slotData slot := by
  rw [State.slotData, h.msgRamData, State.slotData]

/-- A packet that is received does not touch them, -/
theorem keepsRam_receivePacket (s : State) (packet : FlexRayFrame) :
    KeepsRam s (receivePacket s packet) := by
  unfold receivePacket
  induction finRange 128 generalizing s with
  | nil => exact KeepsRam.refl s
  | cons slot slots ih =>
    rw [foldl_cons]
    refine KeepsRam.trans ?_ (ih _)
    split
    · exact ⟨rfl, rfl⟩
    · exact KeepsRam.refl s

/-- nor do all that are due. -/
theorem keepsRam_receivePackets (now : ℕ) (packets : List FlexRayFrame) (s : State) :
    KeepsRam s (receivePackets now packets s) := by
  induction packets generalizing s with
  | nil => exact KeepsRam.refl s
  | cons packet packets ih =>
    unfold receivePackets
    split
    · exact (keepsRam_receivePacket s packet).trans (ih _)
    · exact ⟨rfl, rfl⟩

/-- Every write but one of IBCR. -/
theorem keepsRam_flexrayWrite (now : ℕ) {addr : UInt64} (data : UInt64) (s : State)
    (h : registerAt addr.toNat ≠ .ibcr) : KeepsRam s (flexrayWrite now addr data s) := by
  unfold flexrayWrite
  cases hreg : registerAt addr.toNat with
  | vrc =>
    dsimp only
    split
    · exact ⟨rfl, rfl⟩
    · exact ⟨rfl, rfl⟩
  | ccrr =>
    dsimp only [handleCommand]
    split
    · exact ⟨rfl, rfl⟩
    · exact ⟨rfl, rfl⟩
  | ibcr => exact absurd hreg h
  | _ => exact ⟨rfl, rfl⟩

/-- A transfer into the RAM: a write of IBCR with this value. -/
def Event.transfer : Event → Option UInt64
  | .write _ addr data => if registerAt addr.toNat = .ibcr then some data else none
  | _ => none

variable {event : Event}

/-- Only a transfer touches the message RAM. -/
theorem keepsRam_step (s : State) (h : event.transfer = none) : KeepsRam s (step s event).1 := by
  cases event with
  | read addr => exact KeepsRam.refl s
  | write now addr data =>
    refine keepsRam_flexrayWrite now data s fun hreg => ?_
    exact absurd h (by simp [Event.transfer, hreg])
  | cycleTimer now =>
    show KeepsRam s (if isExpired s.cycleTimer now then _ else s)
    split
    · exact ⟨rfl, rfl⟩
    · exact KeepsRam.refl s
  | rxTimer now =>
    show KeepsRam s (if isExpired s.rxTimer now then _ else s)
    split
    · unfold flexrayRxTimerCb
      have hkeeps := keepsRam_receivePackets now (s.pendingPacket.toList ++ s.channel)
        { s with rxTimer := none, pendingPacket := none, channel := [] }
      exact ⟨hkeeps.msgRamData, hkeeps.msgRamHeaders⟩
    · exact KeepsRam.refl s
  | frame frame =>
    show KeepsRam s (subCallback frame s)
    unfold subCallback
    split
    · exact ⟨rfl, rfl⟩
    · exact KeepsRam.refl s

/-- A transfer is a write of the command request register. -/
theorem transfer_eq_some {data : UInt64} (h : event.transfer = some data) :
    ∃ now addr, event = .write now addr data ∧ registerAt addr.toNat = .ibcr := by
  cases event with
  | write now addr value =>
    have h : (if registerAt addr.toNat = .ibcr then some value else none) = some data := h
    by_cases hreg : registerAt addr.toNat = .ibcr
    · rw [if_pos hreg] at h
      exact ⟨now, addr, by rw [Option.some.inj h], hreg⟩
    · rw [if_neg hreg] at h
      cases h
  | _ => cases h

/-- All that such an event does. -/
theorem step_of_transfer (s : State) {data : UInt64} (h : event.transfer = some data) :
    (step s event).1 = writeIbcr data s := by
  obtain ⟨now, addr, rfl, hreg⟩ := transfer_eq_some h
  simp only [step, flexrayWrite, hreg]

/-! ## What was transferred last -/

/-- The controller, with the first 64 bytes of the input buffer at the last transfer to each slot. Before
the first one a slot is empty. -/
structure Watched where
  device : State
  last : Fin 128 → List UInt8

/-- Before the first transfer. -/
def Watched.start (now : ℕ) : Watched := ⟨initial now, fun _ => List.replicate 64 0⟩

/-- A step, with what was transferred last to each slot. -/
def watch (w : Watched) (event : Event) : Watched × Option UInt32 :=
  (⟨(step w.device event).1,
    match event.transfer with
    | some data => Function.update w.last (slotOf data) ((bufferBytes w.device.wrds).take 64)
    | none => w.last⟩, (step w.device event).2)

/-- The slots are independent at this event. -/
structure Independent (entry : Entry Watched Event (Option UInt32)) : Prop where
  /-- A transfer changes no other slot. -/
  others : ∀ data, entry.input.transfer = some data → ∀ slot, slot ≠ slotOf data →
    entry.after.device.msgRamHeaders slot = entry.before.device.msgRamHeaders slot ∧
      entry.after.device.slotData slot = entry.before.device.slotData slot
  /-- The frames that are transmitted carry what was transferred to their slots. -/
  transmitted : ∀ now, entry.input = .cycleTimer now →
    isExpired entry.before.device.cycleTimer now = true →
    entry.after.device.published = entry.before.device.published ++
      (configuredSlots entry.before.device).map fun slot =>
        { frameOf now entry.after.device slot with data := some (entry.before.last slot) }
  /-- The output buffer shows it too. -/
  readBack : ∀ now addr data, entry.input = .write now addr data → registerAt addr.toNat = .obcr →
    (bufferBytes entry.after.device.ords).take 64 = entry.before.last (slotOf data)

/-- What a transfer writes into the next three slots is there already. -/
def NoSpill (entry : Entry Watched Event (Option UInt32)) : Prop :=
  ∀ data, entry.input.transfer = some data → ∀ slot, (slotOf data).val < slot.val →
    slot.val ≤ (slotOf data).val + 3 →
    entry.before.device.slotData slot =
      ((bufferBytes entry.before.device.wrds).drop ((slot.val - (slotOf data).val) * 64)).take 64

/-- The RAM contains what was transferred last. -/
def Watched.Faithful (w : Watched) : Prop := ∀ slot, w.device.slotData slot = w.last slot

variable {w : Watched}

/-- Where the slots are independent, nothing spills. -/
theorem noSpill_of_others (h : Independent (entryAt watch w event)) : NoSpill (entryAt watch w event) := by
  intro data hdata slot hlt hle
  have hne : slot ≠ slotOf data := fun heq => absurd (heq ▸ hlt) (lt_irrefl _)
  have hsame := (h.others data hdata slot hne).2
  have hafter : (entryAt watch w event).after.device = writeIbcr data w.device :=
    step_of_transfer w.device hdata
  rw [hafter, slotData_writeIbcr, if_pos ⟨hlt.le, hle⟩] at hsame
  exact hsame.symm

/-- Then the other slots keep their data. -/
theorem slotData_of_noSpill (h : NoSpill (entryAt watch w event))
    {data : UInt64} (hdata : event.transfer = some data) {slot : Fin 128} (hslot : slot ≠ slotOf data) :
    (step w.device event).1.slotData slot = w.device.slotData slot := by
  rw [step_of_transfer w.device hdata, slotData_writeIbcr]
  split
  · rename_i hnear
    have hne : slot.val ≠ (slotOf data).val := fun heq => hslot (Fin.ext heq)
    exact (h data hdata slot (by omega) hnear.2).symm
  · rfl

/-- Every slot has what was transferred to it last, as long as nothing spills. -/
theorem faithful_watch (hw : w.Faithful)
    (h : NoSpill (entryAt watch w event)) : (watch w event).1.Faithful := by
  intro slot
  unfold watch
  cases htransfer : event.transfer with
  | none => exact ((keepsRam_step w.device htransfer).slotData slot).trans (hw slot)
  | some data =>
    dsimp only
    by_cases hslot : slot = slotOf data
    · subst hslot
      rw [step_of_transfer w.device htransfer, slotData_writeIbcr, if_pos ⟨le_rfl, by omega⟩,
        Function.update_self, Nat.sub_self, Nat.zero_mul, drop_zero]
    · rw [Function.update_of_ne hslot, slotData_of_noSpill h htransfer hslot]
      exact hw slot

/-- Where nothing spills, the slots are independent. -/
theorem independent_of_noSpill (hw : w.Faithful)
    (h : NoSpill (entryAt watch w event)) : Independent (entryAt watch w event) where
  others := by
    intro data hdata slot hslot
    have hdata : event.transfer = some data := hdata
    refine ⟨?_, slotData_of_noSpill h hdata hslot⟩
    show (step w.device event).1.msgRamHeaders slot = w.device.msgRamHeaders slot
    rw [step_of_transfer w.device hdata]
    exact msgRamHeaders_writeIbcr data w.device hslot
  transmitted := by
    intro now hinput hexpired
    have hinput : event = .cycleTimer now := hinput
    subst hinput
    have hstep : (step w.device (.cycleTimer now)).1 =
        flexrayCycleTimerCb now { w.device with cycleTimer := none } := if_pos hexpired
    show (step w.device (.cycleTimer now)).1.published = w.device.published ++
      (configuredSlots w.device).map fun slot =>
        { frameOf now (step w.device (.cycleTimer now)).1 slot with data := some (w.last slot) }
    rw [hstep]
    refine congrArg (w.device.published ++ ·) (map_congr_left fun slot _ => ?_)
    rw [← hw slot]
    rfl
  readBack := by
    intro now addr data hinput hreg
    have hinput : event = .write now addr data := hinput
    subst hinput
    have hstep : (step w.device (.write now addr data)).1 = writeObcr data w.device := by
      simp only [step, flexrayWrite, hreg]
    show (bufferBytes (step w.device (.write now addr data)).1.ords).take 64 = w.last (slotOf data)
    rw [hstep, ords_writeObcr]
    exact hw _

/-- **When the slots are independent**: exactly if every transfer writes into the next three slots what
they contain already. -/
theorem independent_iff (now : ℕ) (events : List Event) :
    (∀ entry ∈ entries watch (Watched.start now) events, Independent entry) ↔
      ∀ entry ∈ entries watch (Watched.start now) events, NoSpill entry := by
  constructor
  · intro h entry hentry
    obtain ⟨past, event, rest, -, rfl⟩ := (mem_entries watch).mp hentry
    exact noSpill_of_others (h _ hentry)
  · intro h
    refine (entries_of_assumption watch (P := Watched.Faithful) (fun w event hspill hw => ?_)
      (fun slot => rfl) h).2
    exact ⟨faithful_watch hw hspill, independent_of_noSpill hw hspill⟩

/-! ## A slot that is overwritten -/

/-- A word is transferred to slot 1 with a frame id, and then the same buffer to slot 0. The output buffer
is filled from slot 1, and a cycle is over. -/
def neighbours : List Event :=
  [.write 0 0x400 5, .write 0 0x410 0xAA, .write 0 0x500 1, .write 0 0x500 0, .write 0 0x700 1,
    .cycleTimer 5000000]

/-- **The transfer to slot 0 wipes out slot 1**: the byte that was transferred to it is not in the RAM, the
output buffer or the frame any more. -/
theorem not_independent_neighbours : let run := finalState watch (Watched.start 0)
    (run (neighbours.take 3)).device.slotData 1 = 0xAA :: List.replicate 63 0 ∧
      (run (neighbours.take 4)).last 1 = 0xAA :: List.replicate 63 0 ∧
      (run (neighbours.take 4)).device.slotData 1 = List.replicate 64 0 ∧
      (run neighbours).device.ords 0 = 0 ∧
      (run neighbours).device.published.map (fun frame => (frame.frameId, frame.data)) =
        [(5, some (0xAA :: List.replicate 63 0)), (5, some (List.replicate 64 0))] ∧
      ¬ ∀ entry ∈ entries watch (Watched.start 0) neighbours, Independent entry := by
  intro run
  refine ⟨by decide +kernel, by decide +kernel, by decide +kernel, by decide +kernel, by decide +kernel,
    fun hall => ?_⟩
  have hentry : Independent (entryAt watch (run (neighbours.take 3)) (.write 0 0x500 0)) :=
    hall _ (List.mem_cons_of_mem _ (List.mem_cons_of_mem _ (List.mem_cons_of_mem _ List.mem_cons_self)))
  exact absurd (hentry.others 0 (by decide) 1 (by decide)).2 (by decide +kernel)

end Virtmcu.FlexRay
