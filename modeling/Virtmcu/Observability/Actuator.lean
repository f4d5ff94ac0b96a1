import Virtmcu.DeterministicCoordinator.Wire
import Virtmcu.Foundations.ByteMemory
import Virtmcu.Foundations.Run

/-! # The registers of the actuator

The guest sets an id and a size, fills a window of eight numbers and publishes them with a write to GO. The
window is an array of `f64`, but the guest reaches it with accesses of four or eight bytes. A number is the
64 bits that stand for it here: `to_le_bytes` and `from_le_bytes` only copy them.

Whatever the guest does, the window is 64 bytes of little-endian memory (`actuator_law`). The id and the
size are converted with `u32::try_from`, and the conversion is expected to succeed: an access of eight bytes
to the id panics if the value has more than 32 bits (`actuator_panics_wideId`). -/

namespace Virtmcu.Observability

open DeterministicCoordinator List Option

/-! ## The device -/

/-- `ActuatorPacket`. -/
structure Packet where
  topic : String
  payload : List UInt8
  deriving DecidableEq, Repr

/-- What the device is configured with. -/
structure Config where
  topicPrefix : String
  nodeId : UInt32

/-- `VirtmcuActuatorQEMU`, realized. -/
structure State where
  actuatorId : UInt32
  dataSize : UInt32
  /-- `data`, as the bits of the numbers. -/
  data : Fin 8 → UInt64
  /-- The channel to the sending thread. -/
  queue : List Packet

/-- The device is allocated with zeros. -/
def initial : State := ⟨0, 0, fun _ => 0, []⟩

/-- `data.get(idx)`. -/
def State.get (s : State) (idx : ℕ) : Option UInt64 :=
  if h : idx < 8 then some (s.data ⟨idx, h⟩) else none

/-- `*data.get_mut(idx) = bits`. -/
def State.set (idx : ℕ) (bits : UInt64) (s : State) : State :=
  { s with data := fun i => if i.val = idx then bits else s.data i }

/-- `actuator_publish`. The channel holds 1024 packets; a packet for which there is no room is lost. -/
def actuatorPublish (config : Config) (vtimeNs : UInt64) (s : State) : State :=
  let topic := config.topicPrefix ++ "/" ++ toString config.nodeId.toNat ++ "/" ++
    toString s.actuatorId.toNat
  let dataPayload := ((List.ofFn s.data).take s.dataSize.toNat).flatMap fun bits => leBytes 8 bits.toNat
  if s.queue.length < 1024 then
    { s with queue := s.queue ++ [⟨topic, encodeFrame vtimeNs 0 dataPayload⟩] }
  else s

/-- `actuator_read`. -/
def actuatorRead (s : State) (addr size : ℕ) : Option UInt64 :=
  if addr = 0x00 then some s.actuatorId.toUInt64
  else if addr = 0x04 then some s.dataSize.toUInt64
  else if 0x10 ≤ addr ∧ addr < 0x10 + 8 * 8 then
    let idx := (addr - 0x10) / 8
    let offset := (addr - 0x10) % 8
    if offset + size ≤ 8 then
      (s.get idx).map fun bits =>
        let src := ((leBytes 8 bits.toNat).drop offset).take size
        (leNat (src ++ List.replicate (8 - size) 0)).toUInt64
    else some 0
  else some 0

/-- `actuator_write`. -/
def actuatorWrite (config : Config) (vtimeNs : UInt64) (s : State) (addr : ℕ) (val : UInt64)
    (size : ℕ) : Option State :=
  if addr = 0x00 then
    if val.toNat < 2 ^ 32 then some { s with actuatorId := val.toUInt32 } else none
  else if addr = 0x04 then
    if val.toNat < 2 ^ 32 then
      some { s with dataSize := if val.toUInt32 > 8 then 8 else val.toUInt32 }
    else none
  else if addr = 0x08 then
    if val = 1 then some (actuatorPublish config vtimeNs s) else some s
  else if 0x10 ≤ addr ∧ addr < 0x10 + 8 * 8 then
    let idx := (addr - 0x10) / 8
    let offset := (addr - 0x10) % 8
    if offset + size ≤ 8 then
      (s.get idx).map fun bits =>
        let src := (leBytes 8 val.toNat).take size
        s.set idx (leNat (splice offset src (leBytes 8 bits.toNat))).toUInt64
    else some s
  else some s

/-! ## The guest -/

/-- An access that the memory region accepts: four or eight bytes, aligned. -/
structure Access where
  addr : ℕ
  size : ℕ
  size_eq : size = 4 ∨ size = 8
  aligned : addr % size = 0

inductive Event
  | read (a : Access)
  | write (a : Access) (value : UInt64) (vtimeNs : UInt64)
  /-- The sending thread takes a packet. -/
  | transmit

/-- The device, as long as nothing panicked, and what the guest reads. The memory core passes on as many
bytes of a value as the access has. -/
def step (config : Config) : Option State → Event → Option State × Option UInt64
  | none, _ => (none, none)
  | some s, .read a =>
      match actuatorRead s a.addr a.size with
      | none => (none, none)
      | some value => (some s, some value)
  | some s, .write a value vtimeNs =>
      (actuatorWrite config vtimeNs s a.addr (value.toNat % 256 ^ a.size).toUInt64 a.size, none)
  | some s, .transmit => (some { s with queue := s.queue.tail }, none)

/-! ## The window -/

variable (s : State)

theorem State.get_of_lt {idx : ℕ} (h : idx < 8) : s.get idx = some (s.data ⟨idx, h⟩) :=
  dif_pos h

theorem State.get_set (idx : ℕ) (bits : UInt64) (s : State) (i : ℕ) :
    (s.set idx bits).get i = if i = idx ∧ i < 8 then some bits else s.get i := by
  unfold State.get State.set
  by_cases hi : i < 8
  · rw [dif_pos hi, dif_pos hi]
    dsimp only
    by_cases heq : i = idx
    · rw [if_pos heq, if_pos ⟨heq, hi⟩]
    · rw [if_neg heq, if_neg fun h => heq h.1]
  · rw [dif_neg hi, dif_neg hi, if_neg fun h => hi h.2]

/-- The bytes of the window, counted from its start. -/
def State.bytes (s : State) : ByteMemory := fun k =>
  (leBytes 8 ((s.get (k / 8)).getD 0).toNat).getD (k % 8) 0

theorem bytes_initial : initial.bytes = fun _ => 0 := by
  funext k
  have hzero : (initial.get (k / 8)).getD 0 = 0 := by
    unfold State.get initial
    split <;> rfl
  have hbytes : leBytes 8 (0 : UInt64).toNat = List.replicate 8 0 := rfl
  rw [State.bytes, hzero, hbytes, getD_eq_getElem?_getD, getElem?_replicate]
  split <;> rfl

/-- Some bytes of a number. -/
theorem read_bytes {k size : ℕ} (h : k % 8 + size ≤ 8) : ByteMemory.read k size s.bytes =
      ((leBytes 8 ((s.get (k / 8)).getD 0).toNat).drop (k % 8)).take size := by
  refine ext_getElem ?_ fun i hi hi' => ?_
  · rw [ByteMemory.length_read, length_take, length_drop, length_leBytes]
    omega
  · rw [ByteMemory.length_read] at hi
    have hdiv : (k + i) / 8 = k / 8 := by omega
    have hmod : (k + i) % 8 = k % 8 + i := by omega
    simp only [ByteMemory.read, getElem_map, getElem_range, getElem_take,
      getElem_drop, State.bytes, hdiv, hmod]
    exact (getElem_eq_getD 0).symm

/-- The number of some bytes in the middle of another number, as bytes again. -/
theorem leBytes_splice {offset : ℕ} {new : List UInt8} (bits : UInt64) (h : offset + new.length ≤ 8) :
    leBytes 8 (leNat (splice offset new (leBytes 8 bits.toNat))).toUInt64.toNat =
      splice offset new (leBytes 8 bits.toNat) := by
  have hlength : (splice offset new (leBytes 8 bits.toNat)).length = 8 := by
    rw [length_splice (by rwa [length_leBytes]), length_leBytes]
  have hlt := leNat_lt (splice offset new (leBytes 8 bits.toNat))
  have hbytes := leBytes_leNat (splice offset new (leBytes 8 bits.toNat))
  rw [hlength] at hlt hbytes
  have hnat : (leNat (splice offset new (leBytes 8 bits.toNat))).toUInt64.toNat =
      leNat (splice offset new (leBytes 8 bits.toNat)) := UInt64.toNat_ofNat_of_lt' hlt
  rw [hnat, hbytes]

/-- **A write to a part of a number is a write to the bytes.** -/
theorem bytes_set {k : ℕ} {new : List UInt8} (hk : k < 64) (h : k % 8 + new.length ≤ 8) :
    (s.set (k / 8) (leNat (splice (k % 8) new
      (leBytes 8 ((s.get (k / 8)).getD 0).toNat))).toUInt64).bytes = ByteMemory.write k new s.bytes := by
  funext j
  by_cases hinside : k ≤ j ∧ j < k + new.length
  · obtain ⟨i, rfl⟩ := Nat.exists_eq_add_of_le hinside.1
    have hi : i < new.length := by omega
    have hdiv : (k + i) / 8 = k / 8 := by omega
    have hmod : (k + i) % 8 = k % 8 + i := by omega
    rw [ByteMemory.write_add hi, State.bytes, hdiv, hmod, State.get_set, if_pos ⟨rfl, by omega⟩,
      getD_some, leBytes_splice _ h, getD_eq_getElem?_getD,
      getElem?_splice_inside (by rw [length_leBytes]; omega) hi, getElem?_eq_getElem hi,
      getD_some]
    rfl
  · have hsame : ByteMemory.write k new s.bytes j = s.bytes j := by
      by_cases hlt : j < k
      · exact ByteMemory.write_of_lt hlt
      · exact ByteMemory.write_of_ge (by omega)
    rw [hsame, State.bytes, State.get_set]
    by_cases hword : j / 8 = k / 8
    · -- another byte of the same number
      rw [if_pos ⟨hword, by omega⟩, getD_some, leBytes_splice _ h, getD_eq_getElem?_getD,
        getElem?_splice_outside (by rwa [length_leBytes]) (by omega), ← getD_eq_getElem?_getD,
        State.bytes, hword]
    · rw [if_neg fun hn => hword hn.1, State.bytes]

/-! ## Accesses -/

def Access.InWindow (a : Access) : Prop := 0x10 ≤ a.addr ∧ a.addr < 0x50

instance (a : Access) : Decidable a.InWindow := inferInstanceAs (Decidable (_ ∧ _))

/-- The place of an access in the window. -/
def Access.place (a : Access) : ℕ := a.addr - 0x10

variable {a : Access}

/-- An aligned access does not cross the end of a number. -/
theorem Access.place_fits (h : a.InWindow) : a.place < 64 ∧ a.place % 8 + a.size ≤ 8 := by
  have haligned := a.aligned
  unfold Access.InWindow at h
  unfold Access.place
  rcases a.size_eq with hsize | hsize <;> rw [hsize] at haligned ⊢ <;> omega

/-- A read from the window. -/
theorem actuatorRead_window (h : a.InWindow) :
    actuatorRead s a.addr a.size = some (leNat (ByteMemory.read a.place a.size s.bytes)).toUInt64 := by
  obtain ⟨hplace, hfits⟩ := a.place_fits h
  have hplaced : a.addr - 0x10 = a.place := rfl
  unfold Access.InWindow at h
  unfold actuatorRead
  rw [if_neg (by omega), if_neg (by omega), if_pos (by omega)]
  dsimp only
  rw [hplaced, if_pos hfits, read_bytes s hfits, s.get_of_lt (by omega), map_some,
    leNat_append_zeros, getD_some]

/-- No read panics. -/
theorem actuatorRead_isSome (a : Access) : ∃ value, actuatorRead s a.addr a.size = some value := by
  by_cases h : a.InWindow
  · exact ⟨_, actuatorRead_window s h⟩
  · unfold Access.InWindow at h
    unfold actuatorRead
    split
    · exact ⟨_, rfl⟩
    · split <;> exact ⟨_, rfl⟩

/-- What a write leaves behind: the bytes of the window under the access are those of the value, and every
other byte and every other register is what it was. -/
structure Writes (a : Access) (value : UInt64) (s s' : State) : Prop where
  bytes : s'.bytes =
    if a.InWindow then ByteMemory.write a.place (leBytes a.size value.toNat) s.bytes else s.bytes
  actuatorId : a.addr ≠ 0x00 → s'.actuatorId = s.actuatorId
  dataSize : a.addr ≠ 0x04 → s'.dataSize = s.dataSize

/-- The value as the memory core passes it on. -/
theorem toNat_passed (a : Access) (value : UInt64) :
    (value.toNat % 256 ^ a.size).toUInt64.toNat = value.toNat % 256 ^ a.size :=
  UInt64.toNat_ofNat_of_lt' (lt_of_le_of_lt (Nat.mod_le _ _) value.toNat_lt)

theorem take_leBytes_passed (a : Access) (value : UInt64) :
    (leBytes 8 (value.toNat % 256 ^ a.size).toUInt64.toNat).take a.size = leBytes a.size value.toNat := by
  have hsize : a.size ≤ 8 := by rcases a.size_eq with h | h <;> omega
  rw [take_leBytes hsize, toNat_passed, leBytes_mod]

variable (config : Config)

/-- A write to the window. -/
theorem actuatorWrite_window (vtimeNs : UInt64) (s : State)
    (h : a.InWindow) (value : UInt64) :
    ∃ s', actuatorWrite config vtimeNs s a.addr (value.toNat % 256 ^ a.size).toUInt64 a.size = some s' ∧
      Writes a value s s' := by
  obtain ⟨hplace, hfits⟩ := a.place_fits h
  have hplaced : a.addr - 0x10 = a.place := rfl
  have hwindow := h
  unfold Access.InWindow at hwindow
  unfold actuatorWrite
  rw [if_neg (by omega), if_neg (by omega), if_neg (by omega), if_pos (by omega)]
  dsimp only
  rw [hplaced, if_pos hfits, take_leBytes_passed, s.get_of_lt (by omega), map_some]
  refine ⟨_, rfl, ?_, fun _ => rfl, fun _ => rfl⟩
  have hfits' : a.place % 8 + (leBytes a.size value.toNat).length ≤ 8 := by rwa [length_leBytes]
  have hset := bytes_set s hplace hfits'
  rw [s.get_of_lt (by omega), getD_some] at hset
  rw [if_pos h, hset]

/-- A write of eight bytes to the id with a value that has more than 32 bits. -/
def Event.Overflows : Event → Prop
  | .write a value _ => a.addr = 0x00 ∧ a.size = 8 ∧ 2 ^ 32 ≤ value.toNat
  | _ => False

theorem bytes_actuatorPublish (vtimeNs : UInt64) (s : State) :
    (actuatorPublish config vtimeNs s).bytes = s.bytes ∧
      (actuatorPublish config vtimeNs s).actuatorId = s.actuatorId ∧
      (actuatorPublish config vtimeNs s).dataSize = s.dataSize := by
  unfold actuatorPublish
  dsimp only
  split <;> exact ⟨rfl, rfl, rfl⟩

/-- Outside of the window a write goes well, unless it overflows the id: the size is reached with four bytes
only. -/
theorem actuatorWrite_register (vtimeNs : UInt64) (s : State)
    (h : ¬ a.InWindow) (value : UInt64) (hfits : ¬ (Event.write a value vtimeNs).Overflows) :
    ∃ s', actuatorWrite config vtimeNs s a.addr (value.toNat % 256 ^ a.size).toUInt64 a.size = some s' ∧
      Writes a value s s' := by
  have haligned := a.aligned
  have hnat := toNat_passed a value
  have hfits : ¬ (a.addr = 0x00 ∧ a.size = 8 ∧ 2 ^ 32 ≤ value.toNat) := hfits
  have hvalue := value.toNat_lt
  have hsmall : a.addr = 0x00 ∨ a.addr = 0x04 →
      (value.toNat % 256 ^ a.size).toUInt64.toNat < 2 ^ 32 := by
    intro haddr
    rw [hnat]
    rcases a.size_eq with hsize | hsize <;> rw [hsize] at haligned hfits ⊢ <;> omega
  have hbytes : ∀ s' : State, s'.bytes = s.bytes → s'.bytes = if a.InWindow then
      ByteMemory.write a.place (leBytes a.size value.toNat) s.bytes else s.bytes :=
    fun s' hs' => by rw [if_neg h, hs']
  unfold Access.InWindow at h
  unfold actuatorWrite
  by_cases hid : a.addr = 0x00
  · rw [if_pos hid, if_pos (hsmall (.inl hid))]
    exact ⟨_, rfl, hbytes _ rfl, fun hne => absurd hid hne, fun _ => rfl⟩
  rw [if_neg hid]
  by_cases hsize : a.addr = 0x04
  · rw [if_pos hsize, if_pos (hsmall (.inr hsize))]
    exact ⟨_, rfl, hbytes _ rfl, fun _ => rfl, fun hne => absurd hsize hne⟩
  rw [if_neg hsize]
  by_cases hgo : a.addr = 0x08
  · obtain ⟨hsame, hid, hsize⟩ := bytes_actuatorPublish config vtimeNs s
    rw [if_pos hgo]
    split
    · exact ⟨_, rfl, hbytes _ hsame, fun _ => hid, fun _ => hsize⟩
    · exact ⟨s, rfl, hbytes _ rfl, fun _ => rfl, fun _ => rfl⟩
  rw [if_neg hgo, if_neg (by omega)]
  exact ⟨s, rfl, hbytes _ rfl, fun _ => rfl, fun _ => rfl⟩

theorem actuatorWrite_of_overflows {vtimeNs : UInt64} (s : State)
    {value : UInt64} (h : (Event.write a value vtimeNs).Overflows) :
    actuatorWrite config vtimeNs s a.addr (value.toNat % 256 ^ a.size).toUInt64 a.size = none := by
  obtain ⟨hid, hsize, hlarge⟩ := h
  have hvalue := value.toNat_lt
  unfold actuatorWrite
  rw [if_pos hid, if_neg]
  rw [toNat_passed, hsize]
  omega

/-- **A write panics if it overflows the id**, and otherwise it is a write to its bytes or its register. -/
theorem actuatorWrite_cases (vtimeNs : UInt64) (s : State) (a : Access) (value : UInt64) :
    (Event.write a value vtimeNs).Overflows ∧
        actuatorWrite config vtimeNs s a.addr (value.toNat % 256 ^ a.size).toUInt64 a.size = none ∨
      ¬ (Event.write a value vtimeNs).Overflows ∧ ∃ s', actuatorWrite config vtimeNs s a.addr
        (value.toNat % 256 ^ a.size).toUInt64 a.size = some s' ∧ Writes a value s s' := by
  by_cases hoverflows : (Event.write a value vtimeNs).Overflows
  · exact .inl ⟨hoverflows, actuatorWrite_of_overflows config s hoverflows⟩
  · refine .inr ⟨hoverflows, ?_⟩
    by_cases hwindow : a.InWindow
    · exact actuatorWrite_window config vtimeNs s hwindow value
    · exact actuatorWrite_register config vtimeNs s hwindow value hoverflows

/-! ## Runs -/

/-- The device together with the memory that the window should be. -/
structure Watched where
  device : Option State
  memory : ByteMemory

def Watched.start : Watched := ⟨some initial, fun _ => 0⟩

/-- A write to the window, seen as a write to memory. -/
def Event.store (m : ByteMemory) : Event → ByteMemory
  | .write a value _ => if a.InWindow then ByteMemory.write a.place (leBytes a.size value.toNat) m else m
  | _ => m

def watch (config : Config) (w : Watched) (event : Event) : Watched × Option UInt64 :=
  (⟨(step config w.device event).1, event.store w.memory⟩, (step config w.device event).2)

/-- The law of the registers, for an access that the device is there for. A read from the window returns
the bytes that were written last, and changes nothing; a write changes nothing but its bytes or its
register. -/
structure Lawful (entry : Entry Watched Event (Option UInt64)) : Prop where
  read : ∀ s a, entry.before.device = some s → entry.input = .read a →
    entry.after.device = some s ∧ (a.InWindow → entry.output =
      some (leNat (ByteMemory.read a.place a.size entry.before.memory)).toUInt64)
  write : ∀ s s' a value vtimeNs, entry.before.device = some s → entry.after.device = some s' →
    entry.input = .write a value vtimeNs → Writes a value s s'

/-- The window is the memory. -/
def Watched.Mirrors (w : Watched) : Prop := ∀ s, w.device = some s → s.bytes = w.memory

section Watch

variable (config : Config) {w : Watched}

theorem lawful_watch (hw : w.Mirrors) (event : Event) : Lawful (entryAt (watch config) w event) where
  read := by
    intro s a hbefore hinput
    have hdevice : w.device = some s := hbefore
    obtain rfl : event = .read a := hinput
    obtain ⟨value, hread⟩ := actuatorRead_isSome s a
    have hstep : step config w.device (.read a) = (some s, some value) := by
      rw [hdevice, step, hread]
    refine ⟨congrArg Prod.fst hstep, fun hwindow => ?_⟩
    have hvalue := actuatorRead_window s hwindow
    rw [hw s hdevice, hread] at hvalue
    exact (congrArg Prod.snd hstep).trans hvalue
  write := by
    intro s s' a value vtimeNs hbefore hafter hinput
    have hdevice : w.device = some s := hbefore
    obtain rfl : event = .write a value vtimeNs := hinput
    have hwrite : actuatorWrite config vtimeNs s a.addr (value.toNat % 256 ^ a.size).toUInt64 a.size =
        some s' := by
      have hafter : (step config w.device (.write a value vtimeNs)).1 = some s' := hafter
      rwa [hdevice] at hafter
    rcases actuatorWrite_cases config vtimeNs s a value with ⟨-, hnone⟩ | ⟨-, s'', hsome, hwrites⟩
    · rw [hwrite] at hnone
      cases hnone
    · obtain rfl := Option.some.inj (hwrite.symm.trans hsome)
      exact hwrites

theorem mirrors_watch (hw : w.Mirrors) (event : Event) : (watch config w event).1.Mirrors := by
  intro s' hafter
  have hafter : (step config w.device event).1 = some s' := hafter
  have hlawful := lawful_watch config hw event
  cases hdevice : w.device with
  | none =>
    rw [hdevice] at hafter
    cases hafter
  | some s =>
    have hbefore := hw s hdevice
    cases event with
    | read a =>
      have hsame := (hlawful.read s a hdevice rfl).1
      obtain rfl := Option.some.inj (hsame.symm.trans hafter)
      exact hbefore
    | write a value vtimeNs =>
      have hwrites := hlawful.write s s' a value vtimeNs hdevice hafter rfl
      show s'.bytes = Event.store w.memory (.write a value vtimeNs)
      rw [hwrites.bytes, hbefore, Event.store]
    | transmit =>
      rw [hdevice] at hafter
      obtain rfl := Option.some.inj hafter
      exact hbefore

/-- A device goes on if the event does not overflow the id. -/
theorem device_watch_iff (hw : w.device ≠ none) (event : Event) :
    (watch config w event).1.device ≠ none ↔ ¬ event.Overflows := by
  obtain ⟨s, hdevice⟩ := ne_none_iff_exists'.mp hw
  show (step config w.device event).1 ≠ none ↔ ¬ event.Overflows
  rw [hdevice]
  cases event with
  | read a =>
    obtain ⟨value, hread⟩ := actuatorRead_isSome s a
    rw [step, hread]
    exact ⟨fun _ h => h, fun _ => some_ne_none s⟩
  | write a value vtimeNs =>
    rw [step]
    rcases actuatorWrite_cases config vtimeNs s a value with
      ⟨hoverflows, hnone⟩ | ⟨hfits, s', hsome, -⟩
    · rw [hnone]
      exact ⟨fun h => absurd rfl h, fun h => absurd hoverflows h⟩
    · rw [hsome]
      exact ⟨fun _ => hfits, fun _ => some_ne_none s'⟩
  | transmit => exact ⟨fun _ h => h, fun _ => some_ne_none _⟩

end Watch

theorem mirrors_start : Watched.start.Mirrors := by
  intro s hs
  obtain rfl := Option.some.inj hs
  exact bytes_initial

/-- **The registers under every sequence of accesses**: the window is memory and no access touches anything
else; and nothing panics exactly if no access overflows the id. -/
theorem actuator_law (config : Config) (events : List Event) :
    (∀ entry ∈ entries (watch config) Watched.start events, Lawful entry) ∧
      ((∀ entry ∈ entries (watch config) Watched.start events, entry.after.device ≠ none) ↔
        ∀ event ∈ events, ¬ event.Overflows) := by
  constructor
  · exact (entries_of_assumption (watch config) (P := Watched.Mirrors) (Q := fun _ => True)
      (fun w event _ hw => ⟨mirrors_watch config hw event, lawful_watch config hw event⟩) mirrors_start
      fun _ _ => trivial).2
  · rw [forall_entries_iff (watch config) (I := fun _ => True) (P := fun w => w.device ≠ none)
      (Q := fun entry => ¬ entry.input.Overflows) (fun _ _ _ => trivial)
      (fun w event _ hw => device_watch_iff config hw event) trivial (Option.some_ne_none _)]
    exact forall_entries_input (watch config) (p := fun event => ¬ event.Overflows)

/-- The guest writes `2^32` to the id with an access of eight bytes. -/
def wideId : List Event := [.write ⟨0x00, 8, Or.inr rfl, rfl⟩ 0x100000000 0]

/-- **The access panics**: `u32::try_from` fails. -/
theorem actuator_panics_wideId : ¬ ∀ entry ∈ entries (watch ⟨"firmware/control", 0⟩) Watched.start wideId,
      entry.after.device ≠ none := by
  intro h
  exact h _ (List.mem_cons_self ..) rfl

end Virtmcu.Observability
