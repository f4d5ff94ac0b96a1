import Mathlib.Data.List.Nodup
import Mathlib.Data.List.Perm.Subperm
import Virtmcu.Foundations.Checked
import Virtmcu.Repl.Emitter

/-! # Which devices have nodes

A device has a node if its type has a name in device trees and it is at the root, or in the node of its
parent (`Emits`). `generate_dts` gives each of these one node and no other device one, in the node of its
parent (`emits_exactly`). For this it does not matter whether parents exist or are their own ancestors:
what hangs on a cycle is never reached, and the depth of a device that is reached is bounded by the number
of devices. -/

namespace Virtmcu.Repl

open List

/-! ## What is in a forest -/

/-- The node of a device, and the device in whose node it is. -/
structure Placed where
  device : Device
  lines : List Line
  host : Option Device
  deriving DecidableEq

namespace Forest

/-- All nodes, each with the device it is placed in. -/
def nodes (host : Option Device) : Forest → List Placed
  | .nil => []
  | .node device _ lines children rest =>
      (device.map fun d => ⟨d, lines, host⟩).toList ++ children.nodes device ++ rest.nodes host

/-- The devices that have a node. -/
def devices : Forest → List Device
  | .nil => []
  | .node device _ _ children rest => device.toList ++ children.devices ++ rest.devices

/-- The lines that give a node its phandle. -/
def definitions : Forest → List Line
  | .nil => []
  | .node _ _ lines children rest =>
      lines.filter (·.key = "phandle") ++ children.definitions ++ rest.definitions

@[simp] theorem nodes_append (host : Option Device) (f g : Forest) :
    (f.append g).nodes host = f.nodes host ++ g.nodes host := by
  induction f with
  | nil => rfl
  | node device title lines children rest _ ih => simp [append, nodes, ih]

@[simp] theorem devices_append (f g : Forest) : (f.append g).devices = f.devices ++ g.devices := by
  induction f with
  | nil => rfl
  | node device title lines children rest _ ih => simp [append, devices, ih]

@[simp] theorem definitions_append (f g : Forest) :
    (f.append g).definitions = f.definitions ++ g.definitions := by
  induction f with
  | nil => rfl
  | node device title lines children rest _ ih => simp [append, definitions, ih]

theorem map_device_nodes (host : Option Device) (f : Forest) :
    (f.nodes host).map Placed.device = f.devices := by
  induction f generalizing host with
  | nil => rfl
  | node device title lines children rest ihc ih => cases device <;> simp [nodes, devices, ihc, ih]

end Forest

/-! ## What a device's node is made of -/

variable {rt : Runtime} {e : Emitter} {d : Device} {limit : ℕ} {f : Forest}

/-- The type has a counterpart in QEMU. -/
def Device.isMapped (d : Device) : Bool := (compatOf d.typeName).isSome

/-- What `_emit_device` writes of a device. -/
inductive OwnCases (e : Emitter) (rt : Runtime) (d : Device) : Own → Prop
  | skipped (hmemory : d.isMemory = false) (hmapped : d.isMapped = false) : OwnCases e rt d .skipped
  | memory (hmemory : d.isMemory = true) (hmapped : d.isMapped = true) (title : String) (base size : Int) :
      OwnCases e rt d (.memory title (memoryLines e base size))
  | node (hmemory : d.isMemory = false) (hmapped : d.isMapped = true) (title compat : String)
      (base size : Int) {interrupts properties : List Line}
      (hinterrupts : e.interruptLines rt d = .ok interrupts)
      (hproperties : e.allPropertyLines rt compat d d.properties = .ok properties) :
      OwnCases e rt d (.node title (headLines e d compat base size ++ interrupts ++ busLines d ++
        properties ++ containerLines e d compat))

/-- Memory has one. -/
theorem isMapped_of_isMemory (h : d.isMemory = true) : d.isMapped = true := by
  rw [Device.isMapped, beq_iff_eq.mp h]
  decide +kernel

/-- A device's own node is one of these. -/
theorem ownCases {own : Own} (h : e.emitOwn rt d = .ok own) : OwnCases e rt d own := by
  obtain ⟨⟨base, size⟩, -, h⟩ := bind_eq_ok_iff.mp h
  dsimp only at h
  split at h
  next hmemory =>
    obtain ⟨size', -, h⟩ := bind_eq_ok_iff.mp h
    obtain rfl := Except.ok.inj h
    exact .memory hmemory (isMapped_of_isMemory hmemory) _ _ _
  next hmemory =>
    have hmemory : d.isMemory = false := Bool.eq_false_iff.mpr hmemory
    cases hcompat : compatOf d.typeName with
    | none =>
      rw [hcompat] at h
      obtain rfl := Except.ok.inj h
      exact .skipped hmemory (by rw [Device.isMapped, hcompat]; rfl)
    | some compat =>
      rw [hcompat] at h
      obtain ⟨interrupts, hinterrupts, h⟩ := bind_eq_ok_iff.mp h
      obtain ⟨properties, hproperties, h⟩ := bind_eq_ok_iff.mp h
      obtain rfl := Except.ok.inj h
      exact .node hmemory (by rw [Device.isMapped, hcompat]; rfl) _ _ _ _ hinterrupts hproperties

/-- What becomes of a device. -/
inductive Emission (e : Emitter) (rt : Runtime) (limit : ℕ) (d : Device) : Forest → Prop
  | skipped (hmemory : d.isMemory = false) (hmapped : d.isMapped = false) : Emission e rt limit d .nil
  | memory (hmemory : d.isMemory = true) (hmapped : d.isMapped = true) {title : String} {lines : List Line}
      (hown : OwnCases e rt d (.memory title lines)) :
      Emission e rt limit d (.node (some d) title lines .nil .nil)
  | node (hmemory : d.isMemory = false) (hmapped : d.isMapped = true) {title : String} {lines : List Line}
      {children : Forest} (hown : OwnCases e rt d (.node title lines))
      (hchildren : emitAll (e.emitDevice rt limit) (e.children d.name) = .ok children) :
      Emission e rt limit d (.node (some d) title lines children .nil)

/-- Whatever is emitted for a device is one of these. -/
theorem emission (h : e.emitDevice rt (limit + 1) d = .ok f) : Emission e rt limit d f := by
  rw [Emitter.emitDevice] at h
  split at h
  next => cases h
  next hown =>
    obtain rfl := Except.ok.inj h
    cases ownCases hown with
    | skipped hmemory hmapped => exact .skipped hmemory hmapped
  next hown =>
    obtain rfl := Except.ok.inj h
    have hcases := ownCases hown
    cases id hcases with
    | memory hmemory hmapped => exact .memory hmemory hmapped hcases
  next hown =>
    obtain ⟨children, hchildren, h⟩ := bind_eq_ok_iff.mp h
    obtain rfl := Except.ok.inj h
    have hcases := ownCases hown
    cases id hcases with
    | node hmemory hmapped => exact .node hmemory hmapped hcases hchildren

variable {x : Device}

section

variable {emit : Device → Except Failure Forest} {ds : List Device}

/-- What holds of every node of each device holds of all nodes. -/
theorem forall_nodes_emitAll {P : Placed → Prop} {host : Option Device} (h : emitAll emit ds = .ok f)
    (hemit : ∀ d ∈ ds, ∀ g, emit d = .ok g → ∀ n ∈ g.nodes host, P n) : ∀ n ∈ f.nodes host, P n := by
  induction ds generalizing f with
  | nil =>
    obtain rfl := Except.ok.inj h
    exact forall_mem_nil _
  | cons d ds ih =>
    obtain ⟨g, hg, h⟩ := bind_eq_ok_iff.mp h
    obtain ⟨more, hmore, h⟩ := bind_eq_ok_iff.mp h
    obtain rfl := Except.ok.inj h
    rw [Forest.nodes_append, forall_mem_append]
    exact ⟨hemit d (mem_cons_self ..) g hg, ih hmore fun d' hd' => hemit d' (mem_cons_of_mem _ hd')⟩

/-- If the nodes of one device are the device, perhaps, and so many others, then so are all nodes. -/
theorem count_emitAll {p : Device → Bool} (h : emitAll emit ds = .ok f)
    (hemit : ∀ d ∈ ds, ∀ g, emit d = .ok g → g.devices.count x = [d].count x + g.devices.countP p) :
    f.devices.count x = ds.count x + f.devices.countP p := by
  induction ds generalizing f with
  | nil =>
    obtain rfl := Except.ok.inj h
    rfl
  | cons d ds ih =>
    obtain ⟨g, hg, h⟩ := bind_eq_ok_iff.mp h
    obtain ⟨more, hmore, h⟩ := bind_eq_ok_iff.mp h
    obtain rfl := Except.ok.inj h
    have hd := hemit d (mem_cons_self ..) g hg
    have hds := ih hmore fun d' hd' => hemit d' (mem_cons_of_mem _ hd')
    rw [← singleton_append, count_append, Forest.devices_append, count_append, countP_append]
    omega

/-- The definitions in the nodes of a list of devices. -/
theorem definitions_emitAll {g : Device → List Line} {p : Device → Bool} (h : emitAll emit ds = .ok f)
    (hemit : ∀ d ∈ ds, ∀ f, emit d = .ok f → f.definitions = (f.devices.filter p).flatMap g) :
    f.definitions = (f.devices.filter p).flatMap g := by
  induction ds generalizing f with
  | nil =>
    obtain rfl := Except.ok.inj h
    rfl
  | cons d ds ih =>
    obtain ⟨first, hfirst, h⟩ := bind_eq_ok_iff.mp h
    obtain ⟨more, hmore, h⟩ := bind_eq_ok_iff.mp h
    obtain rfl := Except.ok.inj h
    rw [Forest.definitions_append, hemit d (List.mem_cons_self ..) first hfirst,
      ih hmore fun d' hd' => hemit d' (List.mem_cons_of_mem _ hd'), Forest.devices_append,
      List.filter_append, List.flatMap_append]

/-- The stack is exceeded only in one of them. -/
theorem emitAll_ne_recursionError (h : ∀ d ∈ ds, emit d ≠ .error .recursionError) :
    emitAll emit ds ≠ .error .recursionError := by
  induction ds with
  | nil => exact fun herror => nomatch herror
  | cons d ds ih =>
    have hd := h d (mem_cons_self ..)
    have hds := ih fun d' hd' => h d' (mem_cons_of_mem _ hd')
    rw [emitAll]
    cases hemit : emit d with
    | error error => rwa [hemit] at hd
    | ok g =>
      cases hmore : emitAll emit ds with
      | error error => rwa [hmore] at hds
      | ok more => exact fun herror => nomatch herror

end

/-! ## Which devices are emitted -/

/-- The parent, if it counts as one. -/
def Device.parentName (d : Device) : Option String := if d.hasParent then d.parent else none

/-- A device is emitted at the root or in its parent, if its type has a name. -/
inductive Emits (devices : List Device) : Device → Prop
  | root {x : Device} (hx : x ∈ devices) (hmapped : x.isMapped = true) (hcpu : x.isCpu = false)
      (hparent : x.hasParent = false) : Emits devices x
  | child {x p : Device} (hx : x ∈ devices) (hmapped : x.isMapped = true)
      (hparent : x.parentName = some p.name) (hp : Emits devices p) (hmemory : p.isMemory = false) :
      Emits devices x

/-- What is emitted is a device of the platform. -/
theorem Emits.mem {devices : List Device} (h : Emits devices x) : x ∈ devices := by
  cases h with
  | root hx | child hx => exact hx

/-- The children of a device name it as their parent. -/
theorem mem_children {name : String} : x ∈ e.children name ↔ x ∈ e.devices ∧ x.parentName = some name := by
  rw [Emitter.children, mem_filter, Device.parentName]
  cases x.hasParent <;> simp

/-- A node is the one of a device that is emitted, in the node of its parent. -/
structure Placed.Sound (e : Emitter) (rt : Runtime) (n : Placed) : Prop where
  emits : Emits e.devices n.device
  nested : n.host.map Device.name = n.device.parentName
  own : ∃ title, OwnCases e rt n.device (.memory title n.lines) ∨ OwnCases e rt n.device (.node title n.lines)

/-- Every node is of a device that is emitted, inside its parent's. -/
theorem sound_emitDevice (host : Option Device) (h : e.emitDevice rt limit d = .ok f)
    (hd : d.isMapped = true → Emits e.devices d) (hhost : host.map Device.name = d.parentName) :
    ∀ n ∈ f.nodes host, n.Sound e rt := by
  induction limit generalizing d f host with
  | zero => cases h
  | succ limit ih =>
    cases emission h with
    | skipped => exact forall_mem_nil _
    | memory _ hmapped hown =>
      intro n hn
      obtain rfl := mem_singleton.mp hn
      exact ⟨hd hmapped, hhost, _, .inl hown⟩
    | node hmemory hmapped hown hchildren =>
      rw [Forest.nodes, Forest.nodes, append_nil, forall_mem_append]
      constructor
      · intro n hn
        obtain rfl := mem_singleton.mp hn
        exact ⟨hd hmapped, hhost, _, .inr hown⟩
      · refine forall_nodes_emitAll hchildren fun c hc g hg => ?_
        obtain ⟨hmem, hparent⟩ := mem_children.mp hc
        exact ih _ hg (fun hmapped' => .child hmem hmapped' hparent (hd hmapped) hmemory) hparent.symm

/-- **A device's nodes are counted by its parent's.** -/
theorem count_emitDevice (hnodup : e.devices.Nodup) (hx : x ∈ e.devices)
    (hmapped : x.isMapped = true) (h : e.emitDevice rt limit d = .ok f) : f.devices.count x =
      [d].count x + f.devices.countP fun p => !p.isMemory && x.parentName == some p.name := by
  induction limit generalizing d f with
  | zero => cases h
  | succ limit ih =>
    cases emission h with
    | skipped _ hskipped =>
      have hne : d ≠ x := fun heq => Bool.false_ne_true (hskipped.symm.trans (heq ▸ hmapped))
      simp [Forest.devices, hne]
    | memory hmemory => simp [Forest.devices, hmemory]
    | node hmemory _ _ hchildren =>
      have hown : (e.children d.name).count x = if x.parentName = some d.name then 1 else 0 := by
        split
        next hparent =>
          rw [Emitter.children, count_filter, count_eq_one_of_mem hnodup hx]
          exact (mem_filter.mp (mem_children.mpr ⟨hx, hparent⟩)).2
        next hparent => exact count_eq_zero.mpr fun hmem => hparent (mem_children.mp hmem).2
      have hall := count_emitAll hchildren fun c _ g hg => ih hg
      rw [hown] at hall
      simp only [Forest.devices, Option.toList_some, append_nil, count_append,
        countP_append, countP_singleton, hmemory, Bool.not_false, Bool.true_and, beq_iff_eq, hall]

/-! ## The depth of a device -/

section

variable {devices : List Device}

/-- A device is so many steps below one without a parent. -/
inductive Depth (devices : List Device) : Device → ℕ → Prop
  | root {x : Device} (hx : x ∈ devices) (hparent : x.parentName = none) : Depth devices x 0
  | child {x p : Device} {k : ℕ} (hx : x ∈ devices) (hparent : x.parentName = some p.name)
      (hp : Depth devices p k) : Depth devices x (k + 1)

/-- What has a depth is a device of the platform. -/
theorem Depth.mem {k : ℕ} (h : Depth devices x k) : x ∈ devices := by
  cases h with
  | root hx | child hx => exact hx

/-- A name belongs to one device. -/
theorem eq_of_name_eq (hnames : (devices.map Device.name).Nodup) {x y : Device} (hx : x ∈ devices)
    (hy : y ∈ devices) (h : x.name = y.name) : x = y :=
  inj_on_of_nodup_map hnames hx hy h

/-- The depth of a device is determined. -/
theorem Depth.unique (hnames : (devices.map Device.name).Nodup) {j k : ℕ}
    (hj : Depth devices x j) (hk : Depth devices x k) : j = k := by
  induction hj generalizing k with
  | root _ hparent =>
    cases hk with
    | root => rfl
    | child _ hparent' => exact absurd (hparent.symm.trans hparent') nofun
  | child _ hparent hp ih =>
    cases hk with
    | root _ hparent' => exact absurd (hparent.symm.trans hparent') nofun
    | child _ hparent' hq =>
      obtain rfl := eq_of_name_eq hnames hp.mem hq.mem (Option.some.inj (hparent.symm.trans hparent'))
      rw [ih hq]

/-- **No device is deeper than there are devices**, whatever the parents are: the devices above it are
all different, since each has another depth. -/
theorem Depth.lt_length (hnames : (devices.map Device.name).Nodup) {k : ℕ}
    (h : Depth devices x k) : k < devices.length := by
  have hpath : ∃ path : List Device, path.Nodup ∧ path.length = k + 1 ∧
      ∀ y ∈ path, ∃ j ≤ k, Depth devices y j := by
    induction h with
    | @root x hx hparent =>
      refine ⟨[x], nodup_singleton x, rfl, fun y hy => ⟨0, le_rfl, ?_⟩⟩
      obtain rfl := mem_singleton.mp hy
      exact .root hx hparent
    | @child x p k hx hparent hp ih =>
      obtain ⟨path, hnodup, hlength, hpath⟩ := ih
      have hdepth : Depth devices x (k + 1) := .child hx hparent hp
      refine ⟨x :: path, nodup_cons.mpr ⟨fun hmem => ?_, hnodup⟩, congrArg (· + 1) hlength, ?_⟩
      · obtain ⟨j, hj, hdepth'⟩ := hpath x hmem
        exact absurd (hdepth'.unique hnames hdepth) (Nat.ne_of_lt (Nat.lt_succ_of_le hj))
      · refine forall_mem_cons.mpr ⟨⟨k + 1, le_rfl, hdepth⟩, fun y hy => ?_⟩
        obtain ⟨j, hj, hdepth'⟩ := hpath y hy
        exact ⟨j, Nat.le_succ_of_le hj, hdepth'⟩
  obtain ⟨path, hnodup, hlength, hpath⟩ := hpath
  have hsub : path ⊆ devices := fun y hy => by
    obtain ⟨_, _, hdepth⟩ := hpath y hy
    exact hdepth.mem
  have hle := (subperm_of_subset hnodup hsub).length_le
  omega

end

/-- A stack as deep as the device is enough. -/
theorem emitDevice_ne_recursionError (hnames : (e.devices.map Device.name).Nodup) {k : ℕ}
    (hdepth : Depth e.devices d k) (hlimit : e.devices.length ≤ k + limit) :
    e.emitDevice rt limit d ≠ .error .recursionError := by
  induction limit generalizing d k with
  | zero => exact absurd (hdepth.lt_length hnames) (Nat.not_lt.mpr hlimit)
  | succ limit ih =>
    have hchildren := emitAll_ne_recursionError fun c hc =>
      ih (.child (mem_children.mp hc).1 (mem_children.mp hc).2 hdepth) (by omega)
    rw [Emitter.emitDevice]
    split
    next => exact fun herror => nomatch herror
    next => exact fun herror => nomatch herror
    next => exact fun herror => nomatch herror
    next =>
      cases hemit : emitAll (e.emitDevice rt limit) (e.children d.name) with
      | error error =>
        rw [hemit] at hchildren
        exact hchildren
      | ok nodes => exact fun herror => nomatch herror

/-! ## Phandles -/

/-- Every phandle is the one of one name. -/
structure Emitter.Fresh (e : Emitter) : Prop where
  next_pos : 0 < e.nextPhandle
  pos : ∀ {name n}, e.phandles name = some n → 0 < n
  lt_next : ∀ {name n}, e.phandles name = some n → n < e.nextPhandle
  inj : ∀ {a b n}, e.phandles a = some n → e.phandles b = some n → a = b

/-- A phandle that is given out is below the next one. -/
theorem Emitter.Fresh.getPhandle_lt (he : e.Fresh) {name : String}
    (h : (e.phandles name).isSome = true) : e.getPhandle name < e.nextPhandle := by
  obtain ⟨n, hn⟩ := Option.isSome_iff_exists.mp h
  rw [Emitter.getPhandle, hn]
  exact he.lt_next hn

/-- Different names have different phandles. -/
theorem Emitter.Fresh.getPhandle_inj (he : e.Fresh) {a b : String} (ha : (e.phandles a).isSome = true)
    (hb : (e.phandles b).isSome = true) (h : e.getPhandle a = e.getPhandle b) : a = b := by
  obtain ⟨m, hm⟩ := Option.isSome_iff_exists.mp ha
  obtain ⟨n, hn⟩ := Option.isSome_iff_exists.mp hb
  rw [Emitter.getPhandle, Emitter.getPhandle, hm, hn] at h
  obtain rfl : m = n := h
  exact he.inj hm hn

/-- The new phandle is the next number. -/
theorem phandles_assign (name a : String) :
    (e.assign name).phandles a = if a = name then some e.nextPhandle else e.phandles a :=
  Function.update_apply ..

theorem nextPhandle_assign (name : String) : (e.assign name).nextPhandle = e.nextPhandle + 1 := rfl

/-- The new number has not been given out. -/
theorem Emitter.Fresh.assign (he : e.Fresh) (name : String) : (e.assign name).Fresh := by
  have hcases : ∀ {a n}, (e.assign name).phandles a = some n →
      a = name ∧ n = e.nextPhandle ∨ a ≠ name ∧ e.phandles a = some n := by
    intro a n h
    rw [phandles_assign] at h
    split at h
    next ha => exact .inl ⟨ha, (Option.some.inj h).symm⟩
    next ha => exact .inr ⟨ha, h⟩
  refine ⟨Nat.succ_pos _, ?_, ?_, ?_⟩
  · intro a n h
    rcases hcases h with ⟨-, rfl⟩ | ⟨-, h⟩
    · exact he.next_pos
    · exact he.pos h
  · intro a n h
    rcases hcases h with ⟨-, rfl⟩ | ⟨-, h⟩
    · exact Nat.lt_succ_self _
    · exact Nat.lt_succ_of_lt (he.lt_next h)
  · intro a b n ha hb
    rcases hcases ha with ⟨ha', rfl⟩ | ⟨-, ha'⟩ <;> rcases hcases hb with ⟨hb', hn⟩ | ⟨-, hb'⟩
    · rw [ha', hb']
    · exact absurd (he.lt_next hb') (lt_irrefl _)
    · exact absurd (hn ▸ he.lt_next ha') (lt_irrefl _)
    · exact he.inj ha' hb'

/-- A name that has a phandle keeps one. -/
theorem isSome_phandles_assign {name name' : String} (h : name = name' ∨ (e.phandles name).isSome = true) :
    ((e.assign name').phandles name).isSome = true := by
  rw [phandles_assign]
  split
  next => rfl
  next hne => exact h.resolve_left hne

/-- After a list of devices has got phandles, each of them has one. -/
theorem isSome_phandles_foldl_assign {name : String} {ds : List Device}
    (h : name ∈ ds.map Device.name ∨ (e.phandles name).isSome = true) :
    ((ds.foldl (fun e d => e.assign d.name) e).phandles name).isSome = true := by
  induction ds generalizing e with
  | nil => exact h.resolve_left not_mem_nil
  | cons d ds ih =>
    rw [map_cons, mem_cons, or_assoc] at h
    refine ih ?_
    rcases h with h | h | h
    · exact .inr (isSome_phandles_assign (.inl h))
    · exact .inl h
    · exact .inr (isSome_phandles_assign (.inr h))

/-- What assigning keeps holds of the emitter once it is made. -/
theorem new_induction {P : Emitter → Prop} {devices : List Device}
    (hassign : ∀ e name, P e → P (e.assign name)) (h : P ⟨devices, fun _ => none, 1⟩) : P (.new devices) :=
  foldlRecOn devices _ (hassign _ _ h) fun e he d _ => hassign e d.name he

/-- And after the CPUs. -/
theorem emitCpus_induction {P : Emitter → Prop} (hassign : ∀ e name, P e → P (e.assign name)) (h : P e)
    (riscv : Bool) (index : ℕ) (ds : List Device) : P (emitCpus riscv e index ds).1 := by
  induction ds generalizing e index with
  | nil => exact h
  | cons d ds ih =>
    cases riscv with
    | false => exact ih h _
    | true => exact ih (hassign _ _ h) _

/-- All phandles of a new emitter are different. -/
theorem fresh_new (devices : List Device) : (Emitter.new devices).Fresh :=
  new_induction (fun _ name he => he.assign name) ⟨Nat.one_pos, nofun, nofun, nofun⟩

section

variable {devices : List Device}

/-- The emission leaves the platform as it is. -/
theorem emitted_devices : (emitted rt devices).1.devices = devices :=
  emitCpus_induction (P := fun e => e.devices = devices) (fun _ _ h => h)
    (new_induction (P := fun e => e.devices = devices) (fun _ _ h => h) rfl) _ _ _

/-- Every device of the platform has a phandle. -/
theorem isSome_phandles_new {d : Device} (hd : d ∈ devices) :
    ((Emitter.new devices).phandles d.name).isSome = true :=
  isSome_phandles_foldl_assign (.inl (mem_map_of_mem hd))

end

/-- The interrupt controllers of the CPUs get phandles of their own, and the others keep theirs. -/
theorem emitCpus_phandles (riscv : Bool) (index : ℕ) (ds : List Device) :
    (∀ name, (∀ c ∈ ds, c.name ++ "_intc" ≠ name) →
        (emitCpus riscv e index ds).1.phandles name = e.phandles name) ∧
      ∃ k, (emitCpus riscv e index ds).2.definitions =
        (List.range' e.nextPhandle k).map (Line.ref "phandle") := by
  induction ds generalizing e index with
  | nil => exact ⟨fun _ _ => rfl, 0, rfl⟩
  | cons d ds ih =>
    cases riscv with
    | false =>
      obtain ⟨hphandles, k, hdefinitions⟩ := ih (e := e) (index + 1)
      refine ⟨fun name hname => hphandles name fun c hc => hname c (.tail _ hc), k, ?_⟩
      simpa [emitCpus, cpuNode, Forest.definitions, Line.key] using hdefinitions
    | true =>
      obtain ⟨hphandles, k, hdefinitions⟩ := ih (e := e.assign (d.name ++ "_intc")) (index + 1)
      refine ⟨fun name hname => ?_, k + 1, ?_⟩
      · refine (hphandles name fun c hc => hname c (.tail _ hc)).trans ?_
        exact Function.update_of_ne (hname d (mem_cons_self ..)).symm _ _
      · rw [nextPhandle_assign] at hdefinitions
        rw [List.range'_succ, map_cons]
        simpa [emitCpus, cpuNode, Forest.definitions, Line.key] using hdefinitions

/-! ## Properties under a key that the emitter uses -/

/-- The lines that the properties of this name give. -/
def Emitter.given (e : Emitter) (own : String) (properties : List (String × Value)) : List Line :=
  (properties.filter (·.1 = own)).flatMap fun property => e.plainLines own property.2

variable {lines : List Line}

/-- Interrupts define no phandle. -/
theorem filter_interruptLines (h : e.interruptLines rt d = .ok lines) :
    lines.filter (·.key = "phandle") = [] := by
  unfold Emitter.interruptLines at h
  split at h
  next => obtain rfl := Except.ok.inj h; rfl
  next =>
    obtain ⟨cells, -, h⟩ := bind_eq_ok_iff.mp h
    obtain rfl := Except.ok.inj h
    rw [List.filter_append]
    split <;> simp [List.filter_eq_nil_iff, Line.key]

/-- A plain property is written under its own key. -/
theorem key_plainLines (key : String) (v : Value) : ∀ line ∈ e.plainLines key v, line.key = key := by
  unfold Emitter.plainLines
  cases v with
  | bool b => cases b <;> simp [Line.key]
  | int n => simp [Line.key]
  | str text => dsimp only; split <;> simp [Line.key]
  | other text => simp [Line.key]

/-- A property gives lines with its own key, or with a fixed one. -/
theorem key_propertyLines {compat key : String} {v : Value} {lines : List Line}
    (h : e.propertyLines rt compat d key v = .ok lines) :
    ∀ line ∈ lines, line.key = key ∨ line.key ∈ ["region-size", "base-addr", "macaddr"] := by
  unfold Emitter.propertyLines at h
  split at h
  next =>
    split at h
    next =>
      obtain ⟨val, -, h⟩ := bind_eq_ok_iff.mp h
      obtain rfl := Except.ok.inj h
      simp [Line.key]
    next => obtain rfl := Except.ok.inj h; simp
  next =>
    split at h
    next =>
      split at h
      next =>
        obtain ⟨val, -, h⟩ := bind_eq_ok_iff.mp h
        obtain rfl := Except.ok.inj h
        simp [Line.key]
      next => obtain rfl := Except.ok.inj h; simp
    next =>
      split at h
      next => obtain rfl := Except.ok.inj h; simp [Line.key]
      next =>
        split at h
        next => obtain rfl := Except.ok.inj h; simp [Line.key]
        next =>
          obtain rfl := Except.ok.inj h
          exact fun line hline => .inl (key_plainLines key v line hline)

/-- Nothing but the property's own line is written for a key, and no other property writes under it. -/
def IsOrdinary (key : String) : Prop :=
  key ∉ ["size", "cpuType", "isa", "mmu-type", "chardev", "address", "base-addr", "region-size", "macaddr"] ∧
    lower key ∉ ["macaddress".toList, "macaddr".toList, "mac".toList]

instance (key : String) : Decidable (IsOrdinary key) := inferInstanceAs (Decidable (_ ∧ _))

/-- Most keys are written as they are. -/
theorem propertyLines_of_isOrdinary {compat key : String} (v : Value) (hkey : IsOrdinary key) :
    e.propertyLines rt compat d key v = .ok (e.plainLines key v) := by
  obtain ⟨hkey, hmac⟩ := hkey
  simp only [List.mem_cons, List.not_mem_nil, or_false, not_or] at hkey
  obtain ⟨hsize, hcpu, hisa, hmmu, hchardev, haddress, hbase, -⟩ := hkey
  have hskipped : key ∉ ["size", "cpuType", "isa", "mmu-type", "chardev"] := by
    simp [hsize, hcpu, hisa, hmmu, hchardev]
  rw [Emitter.propertyLines, if_neg hskipped, if_neg fun h => haddress h.1, if_neg hbase]
  dsimp only
  rw [if_neg hmac]

/-- What a property adds to the phandle lines. -/
theorem filter_propertyLines {own compat key : String} {v : Value} {lines : List Line}
    (hown : IsOrdinary own) (h : e.propertyLines rt compat d key v = .ok lines) :
    lines.filter (·.key = own) = if key = own then e.plainLines own v else [] := by
  split
  next hkey =>
    subst hkey
    obtain rfl := Except.ok.inj ((propertyLines_of_isOrdinary v hown).symm.trans h)
    exact List.filter_eq_self.mpr fun line hline => decide_eq_true (key_plainLines key v line hline)
  next hkey =>
    refine List.filter_eq_nil_iff.mpr fun line hline heq => ?_
    obtain rfl := of_decide_eq_true heq
    rcases key_propertyLines h line hline with hsame | hmem
    · exact hkey hsame.symm
    · have hfixed := hown.1
      simp only [List.mem_cons, List.not_mem_nil, or_false, not_or] at hmem hfixed
      rcases hmem with hmem | hmem | hmem <;> simp_all

/-- What all of them add. -/
theorem filter_allPropertyLines {own compat : String} {properties : List (String × Value)}
    {lines : List Line} (hown : IsOrdinary own)
    (h : e.allPropertyLines rt compat d properties = .ok lines) :
    lines.filter (·.key = own) = e.given own properties := by
  induction properties generalizing lines with
  | nil => obtain rfl := Except.ok.inj h; rfl
  | cons property rest ih =>
    obtain ⟨key, v⟩ := property
    obtain ⟨first, hfirst, h⟩ := bind_eq_ok_iff.mp h
    obtain ⟨more, hmore, h⟩ := bind_eq_ok_iff.mp h
    obtain rfl := Except.ok.inj h
    rw [List.filter_append, ih hmore, filter_propertyLines hown hfirst, Emitter.given, Emitter.given]
    by_cases hkey : key = own <;> simp [hkey]

/-- A node has one phandle of its own, and those that its properties give. -/
theorem filter_own {title : String} {lines : List Line} (h : OwnCases e rt d (.node title lines)) :
    lines.filter (·.key = "phandle") =
      .ref "phandle" (e.getPhandle d.name) :: e.given "phandle" d.properties := by
  cases h with
  | node _ _ _ compat base size hinterrupts hlines =>
    have hhead : (headLines e d compat base size).filter (·.key = "phandle") =
        [.ref "phandle" (e.getPhandle d.name)] := by
      unfold headLines
      split_ifs <;> simp [Line.key]
    have hbus : (busLines d).filter (·.key = "phandle") = [] := by
      unfold busLines
      split_ifs <;> simp [Line.key]
    have hcontainer : (containerLines e d compat).filter (·.key = "phandle") = [] := by
      unfold containerLines
      split <;> simp [Line.key]
    have hown : IsOrdinary "phandle" := by decide +kernel
    simp only [List.filter_append, hhead, filter_interruptLines hinterrupts, hbus,
      filter_allPropertyLines hown hlines, hcontainer, List.append_nil, List.singleton_append]

/-- The definitions in the nodes below a device. -/
theorem definitions_emitDevice (h : e.emitDevice rt limit d = .ok f) :
    f.definitions = (f.devices.filter (!·.isMemory)).flatMap fun d =>
      .ref "phandle" (e.getPhandle d.name) :: e.given "phandle" d.properties := by
  induction limit generalizing d f with
  | zero => cases h
  | succ limit ih =>
    cases emission h with
    | skipped => rfl
    | memory hmemory _ hown =>
      cases hown with
      | memory => simp [Forest.definitions, Forest.devices, memoryLines, Line.key, hmemory]
    | node hmemory _ hown hchildren =>
      have hall := definitions_emitAll hchildren fun c _ g hg => ih hg
      rw [Forest.definitions, Forest.definitions, filter_own hown, hall]
      simp [Forest.devices, hmemory]

/-! ## Platforms -/

/-- The value of digits, if there are some. -/
def asciiInt (base : ℕ) (l : List Char) : Option Int :=
  if l = [] ∨ l.any (fun c => !(c.isDigit || ('a' ≤ c && c ≤ 'f'))) then none
  else some (l.foldl (fun n c => n * base + (if c.isDigit then c.toNat - 48 else c.toNat - 87)) 0 : ℕ)

/-- A runtime that knows ASCII only. -/
def ascii : Runtime where
  int10 s := asciiInt 10 s.toList
  int16 s := asciiInt 16 (if startsWithStr s "0x" then s.toList.drop 2 else s.toList)
  isDigit := Char.isDigit
  upper s := String.ofList (s.toList.map Char.toUpper)

/-- What a line defines: a number, however it is written, or something else. -/
def Line.value : Line → Int ⊕ Line
  | .ref _ phandle => .inl phandle
  | .cells key [text] => (ascii.int16 text).elim (.inr (.cells key [text])) .inl
  | line => .inr line

/-- The definitions of all phandles. -/
def Dts.definitions (dts : Dts) : List Line :=
  dts.sysmem.definitions ++ dts.cpus.definitions ++ dts.devices.definitions

/-- Those that the emitter makes up. -/
def Dts.own (e : Emitter) (dts : Dts) : List Line :=
  dts.sysmem.definitions ++ dts.cpus.definitions ++
    (dts.devices.devices.filter (!·.isMemory)).map fun d => .ref "phandle" (e.getPhandle d.name)

/-- Those that stand in the properties of the devices that are emitted. -/
def Dts.given (e : Emitter) (dts : Dts) : List Line :=
  (dts.devices.devices.filter (!·.isMemory)).flatMap fun d => e.given "phandle" d.properties

/-- The nodes are the ones of the devices that are emitted. -/
structure Covers (devices : List Device) (dts : Dts) : Prop where
  one : ∀ x, Emits devices x → dts.devices.devices.count x = 1
  none : ∀ x, ¬ Emits devices x → x ∉ dts.devices.devices
  nested : ∀ n ∈ dts.devices.nodes .none, n.host.map Device.name = n.device.parentName

section

variable {devices : List Device} {dts : Dts}

/-- A tree that is returned, part by part. -/
theorem generateDts_eq (h : generateDts rt limit devices = .ok dts) :
    emitAll ((emitted rt devices).1.emitDevice rt limit) (devices.filter fun d => !(d.isCpu || d.hasParent)) =
      .ok dts.devices ∧ dts.sysmem = sysmemNode (.new devices) ∧
    dts.cpus = cpusNode (isRiscv rt devices) (emitted rt devices).2 := by
  unfold generateDts at h
  split at h
  next => cases h
  next =>
    obtain ⟨nodes, hnodes, h⟩ := bind_eq_ok_iff.mp h
    obtain rfl := Except.ok.inj h
    exact ⟨hnodes, rfl, rfl⟩

/-- No parent is named. -/
theorem parentName_eq_none : x.parentName = none ↔ x.hasParent = false := by
  unfold Device.parentName Device.hasParent
  cases x.parent <;> simp

/-- Every node of the tree is of a device that is emitted, inside its parent's. -/
theorem sound_generateDts (h : generateDts rt limit devices = .ok dts) :
    ∀ n ∈ dts.devices.nodes none, n.Sound (emitted rt devices).1 rt := by
  have hdevices : (emitted rt devices).1.devices = devices := emitted_devices
  refine forall_nodes_emitAll (generateDts_eq h).1 fun d hd f hf => ?_
  obtain ⟨hmem, hroot⟩ := mem_filter.mp hd
  obtain ⟨hcpu, hparent⟩ : d.isCpu = false ∧ d.hasParent = false := by simpa using hroot
  exact sound_emitDevice none hf (fun hmapped => .root (hdevices.symm ▸ hmem) hmapped hcpu hparent)
    (parentName_eq_none.mpr hparent).symm

/-- **The nodes cover the forest of devices.** -/
theorem covers (hnames : (devices.map Device.name).Nodup) (h : generateDts rt limit devices = .ok dts) :
    Covers devices dts := by
  have hdevices : (emitted rt devices).1.devices = devices := emitted_devices
  have hemits : ∀ x ∈ dts.devices.devices, Emits devices x := by
    intro x hx
    rw [← Forest.map_device_nodes none] at hx
    obtain ⟨n, hn, rfl⟩ := mem_map.mp hx
    exact hdevices ▸ (sound_generateDts h n hn).emits
  refine ⟨fun x hx => ?_, fun x hx hmem => hx (hemits x hmem), fun n hn => (sound_generateDts h n hn).nested⟩
  have hnodup : devices.Nodup := hnames.of_map _
  have hcount : ∀ x ∈ devices, x.isMapped = true → dts.devices.devices.count x =
      (devices.filter fun d => !(d.isCpu || d.hasParent)).count x +
        dts.devices.devices.countP fun p => !p.isMemory && x.parentName == some p.name := by
    intro x hx hmapped
    refine count_emitAll (generateDts_eq h).1 fun d _ f hf => ?_
    exact count_emitDevice (hdevices.symm ▸ hnodup) (hdevices.symm ▸ hx) hmapped hf
  induction hx with
  | root hx hmapped hcpu hparent =>
    rw [hcount _ hx hmapped, parentName_eq_none.mpr hparent, count_filter (by simp [hcpu, hparent]),
      count_eq_one_of_mem hnodup hx]
    simp
  | @child x p hx hmapped hparent hp hmemory ih =>
    have hroots : (devices.filter fun d => !(d.isCpu || d.hasParent)).count x = 0 := by
      refine count_eq_zero.mpr fun hmem => ?_
      have hroot : x.isCpu = false ∧ x.hasParent = false := by simpa using (mem_filter.mp hmem).2
      exact absurd (hparent.symm.trans (parentName_eq_none.mpr hroot.2)) nofun
    rw [hcount x hx hmapped, hroots, Nat.zero_add, ← ih, count_eq_countP]
    refine countP_congr fun q hq => ?_
    rw [hparent]
    simp only [Bool.and_eq_true, Bool.not_eq_true', beq_iff_eq, Option.some.injEq]
    constructor
    · rintro ⟨-, hname⟩
      exact eq_of_name_eq hnames (hemits q hq).mem hp.mem hname.symm
    · rintro rfl
      exact ⟨hmemory, rfl⟩

/-- The devices keep the phandles that they were given at first. -/
theorem getPhandle_emitted {d : Device}
    (hintc : ∀ c ∈ devices, c.isCpu = true → c.name ++ "_intc" ∉ devices.map Device.name) (hd : d ∈ devices) :
    (emitted rt devices).1.getPhandle d.name = (Emitter.new devices).getPhandle d.name := by
  refine congrArg (Option.getD · 0) ((emitCpus_phandles ..).1 d.name fun c hc heq => ?_)
  obtain ⟨hc, hcpu⟩ := mem_filter.mp hc
  exact hintc c hc hcpu (heq ▸ mem_map_of_mem hd)

/-- The phandles that the emitter makes up are different. -/
theorem nodup_own (hnames : (devices.map Device.name).Nodup)
    (hsysmem : "qemu_sysmem" ∉ devices.map Device.name)
    (hintc : ∀ c ∈ devices, c.isCpu = true → c.name ++ "_intc" ∉ devices.map Device.name)
    (h : generateDts rt limit devices = .ok dts) :
    ((dts.own (emitted rt devices).1).map Line.value).Nodup := by
  obtain ⟨-, hsys, hcpus⟩ := generateDts_eq h
  have hfresh := fresh_new devices
  have hsysSome : ((Emitter.new devices).phandles "qemu_sysmem").isSome = true :=
    isSome_phandles_foldl_assign (.inr (isSome_phandles_assign (.inl rfl)))
  have hsome : ∀ d ∈ devices, ((Emitter.new devices).phandles d.name).isSome = true := fun _ =>
    isSome_phandles_new
  obtain ⟨-, k, hintcs⟩ := emitCpus_phandles (e := .new devices) (isRiscv rt devices) 0
    (devices.filter Device.isCpu)
  have hcovers := covers hnames h
  have hmem : ∀ d ∈ dts.devices.devices, d ∈ devices := fun d hd =>
    (Classical.not_not.mp fun hne => hcovers.none d hne hd).mem
  have hown : ((dts.devices.devices.filter (!·.isMemory)).map fun d =>
      Line.ref "phandle" ((emitted rt devices).1.getPhandle d.name)) =
      (dts.devices.devices.filter (!·.isMemory)).map fun d =>
        .ref "phandle" ((Emitter.new devices).getPhandle d.name) :=
    map_congr_left fun d hd => by rw [getPhandle_emitted hintc (hmem d (mem_filter.mp hd).1)]
  have hall : dts.own (emitted rt devices).1 = ((Emitter.new devices).getPhandle "qemu_sysmem" ::
      List.range' (Emitter.new devices).nextPhandle k ++
        (dts.devices.devices.filter (!·.isMemory)).map fun d =>
          (Emitter.new devices).getPhandle d.name).map (Line.ref "phandle") := by
    have hcpuLines : (cpusNode (isRiscv rt devices) (emitted rt devices).2).definitions =
        (emitted rt devices).2.definitions := by
      cases isRiscv rt devices <;> simp [cpusNode, Forest.definitions, Line.key]
    rw [Dts.own, hown, hsys, hcpus, hcpuLines, emitted, hintcs]
    simp [sysmemNode, Forest.definitions, Line.key, Function.comp_def]
  rw [hall, List.map_map]
  refine List.Nodup.map (fun _ _ heq => Int.natCast_inj.mp (Sum.inl.inj heq)) ?_
  -- the system memory and the devices come before the CPUs, and have names of their own
  refine nodup_append.mpr ⟨nodup_cons.mpr ⟨fun hmem' => ?_, nodup_range'⟩,
    List.Nodup.map_on (fun x hx y hy heq => ?_) ?_, fun m hm n hn => ?_⟩
  · exact absurd (hfresh.getPhandle_lt hsysSome) (Nat.not_lt.mpr (mem_range'_1.mp hmem').1)
  · have hx := hmem x (mem_filter.mp hx).1
    have hy := hmem y (mem_filter.mp hy).1
    exact eq_of_name_eq hnames hx hy (hfresh.getPhandle_inj (hsome x hx) (hsome y hy) heq)
  · refine List.Nodup.filter _ (nodup_iff_count_le_one.mpr fun x => ?_)
    by_cases hx : Emits devices x
    · exact (hcovers.one x hx).le
    · exact (count_eq_zero.mpr (hcovers.none x hx)).trans_le (Nat.zero_le 1)
  · obtain ⟨d, hd, rfl⟩ := mem_map.mp hn
    have hd := hmem d (mem_filter.mp hd).1
    rcases mem_cons.mp hm with rfl | hm
    · intro heq
      have hname := hfresh.getPhandle_inj hsysSome (hsome d hd) heq
      exact hsysmem (hname ▸ mem_map_of_mem hd)
    · exact (Nat.lt_of_lt_of_le (hfresh.getPhandle_lt (hsome d hd)) (mem_range'_1.mp hm).1).ne'

/-- **When the definitions of phandles are different.** -/
theorem nodup_definitions_iff (hnames : (devices.map Device.name).Nodup)
    (hsysmem : "qemu_sysmem" ∉ devices.map Device.name)
    (hintc : ∀ c ∈ devices, c.isCpu = true → c.name ++ "_intc" ∉ devices.map Device.name)
    (h : generateDts rt limit devices = .ok dts) : (dts.definitions.map Line.value).Nodup ↔
      ((dts.given (emitted rt devices).1).map Line.value).Nodup ∧ ∀ line ∈ dts.given (emitted rt devices).1,
          line.value ∉ (dts.own (emitted rt devices).1).map Line.value := by
  have hperm : dts.definitions.Perm
      (dts.own (emitted rt devices).1 ++ dts.given (emitted rt devices).1) := by
    rw [Dts.definitions, definitions_emitAll (generateDts_eq h).1 fun d _ f hf => definitions_emitDevice hf,
      Dts.own, Dts.given, List.append_assoc _ (List.map _ _), List.map_eq_flatMap]
    exact List.Perm.append_left _ (List.flatMap_append_perm _
      (fun d : Device => [Line.ref "phandle" ((emitted rt devices).1.getPhandle d.name)]) _).symm
  have hnodup := nodup_own hnames hsysmem hintc h
  rw [(hperm.map Line.value).nodup_iff, List.map_append, List.nodup_append]
  constructor
  · rintro ⟨-, hgiven, hdisjoint⟩
    exact ⟨hgiven, fun line hline hmem => hdisjoint _ hmem _ (List.mem_map_of_mem hline) rfl⟩
  · rintro ⟨hgiven, hdisjoint⟩
    refine ⟨hnodup, hgiven, fun value hvalue other hother heq => ?_⟩
    obtain ⟨line, hline, rfl⟩ := List.mem_map.mp hother
    exact hdisjoint line hline (heq ▸ hvalue)

end

/-- **Emission covers the forest of devices**, whatever the parents are. It ends within so many nested
calls as there are devices. If it gives a tree, each device that is emitted has one node, in the node of
its parent, and no other device has one. The phandles are different exactly if those that stand in the
properties of emitted devices are, from one another and from those of the emitter. -/
theorem emits_exactly (rt : Runtime) (devices : List Device) (hnames : (devices.map Device.name).Nodup)
    (hsysmem : "qemu_sysmem" ∉ devices.map Device.name)
    (hintc : ∀ c ∈ devices, c.isCpu = true → c.name ++ "_intc" ∉ devices.map Device.name) :
    (∀ limit ≥ devices.length, generateDts rt limit devices ≠ .error .recursionError) ∧
      ∀ limit dts, generateDts rt limit devices = .ok dts →
        Covers devices dts ∧ ((dts.definitions.map Line.value).Nodup ↔
          ((dts.given (emitted rt devices).1).map Line.value).Nodup ∧
            ∀ line ∈ dts.given (emitted rt devices).1,
              line.value ∉ (dts.own (emitted rt devices).1).map Line.value) := by
  refine ⟨fun limit hlimit => ?_, fun limit dts h =>
    ⟨covers hnames h, nodup_definitions_iff hnames hsysmem hintc h⟩⟩
  have hdevices : (emitted rt devices).1.devices = devices := emitted_devices
  have hroots : ∀ d ∈ devices.filter fun d => !(d.isCpu || d.hasParent),
      (emitted rt devices).1.emitDevice rt limit d ≠ .error .recursionError := by
    intro d hd
    obtain ⟨hmem, hroot⟩ := List.mem_filter.mp hd
    have hparent : d.isCpu = false ∧ d.hasParent = false := by simpa using hroot
    refine emitDevice_ne_recursionError (k := 0) (by rwa [hdevices]) ?_ (by rw [hdevices]; omega)
    exact .root (hdevices.symm ▸ hmem) (parentName_eq_none.mpr hparent.2)
  have hnodes := emitAll_ne_recursionError hroots
  unfold generateDts
  split
  next => exact fun herror => nomatch herror
  next =>
    cases hemit : emitAll ((emitted rt devices).1.emitDevice rt limit)
        (devices.filter fun d => !(d.isCpu || d.hasParent)) with
    | error error =>
      rw [hemit] at hnodes
      intro herror
      obtain rfl : error = .recursionError := Except.error.inj herror
      exact hnodes rfl
    | ok nodes => exact fun herror => nomatch herror

/-! ### Boards -/

/-- A bus with a device on it, and two devices that are each other's parents. -/
def spiBoard : List Device :=
  [.create "spi0" "SPI.PL022" (some "0x1000") none, .create "echo" "SPI.Echo" none (some "spi0"),
    .create "a" "SPI.Echo" none (some "b"), .create "b" "SPI.Echo" none (some "a")]

/-- What that says of the board. -/
theorem emits_exactly_spiBoard :
    (∀ limit ≥ spiBoard.length, generateDts ascii limit spiBoard ≠ .error .recursionError) ∧
      ∀ limit dts, generateDts ascii limit spiBoard = .ok dts →
        Covers spiBoard dts ∧ ((dts.definitions.map Line.value).Nodup ↔
          ((dts.given (emitted ascii spiBoard).1).map Line.value).Nodup ∧
            ∀ line ∈ dts.given (emitted ascii spiBoard).1,
              line.value ∉ (dts.own (emitted ascii spiBoard).1).map Line.value) :=
  emits_exactly ascii spiBoard (by decide +kernel) (by decide +kernel) (by decide +kernel)

/-- A device with a property that is called `phandle`. -/
def renumbered : List Device :=
  [.create "uart0" "UART.PL011" none none,
    { Device.create "uart1" "UART.PL011" none none with properties := [("phandle", .str "uart0")] }]

/-- **A property may define a phandle once more**: the line `phandle: uart0` of a device gives it the
phandle of `uart0`, besides its own. -/
theorem not_nodup_definitions_renumbered : (renumbered.map Device.name).Nodup ∧
    "qemu_sysmem" ∉ renumbered.map Device.name ∧
    (∀ c ∈ renumbered, c.isCpu = true → c.name ++ "_intc" ∉ renumbered.map Device.name) ∧
    ∃ dts, generateDts ascii 2 renumbered = .ok dts ∧ ¬ (dts.definitions.map Line.value).Nodup := by
  refine ⟨by decide +kernel, by decide +kernel, by decide +kernel, ?_⟩
  have hdefinitions : (generateDts ascii 2 renumbered).toOption.map Dts.definitions =
      some [.ref "phandle" 1, .ref "phandle" 2, .ref "phandle" 3, .ref "phandle" 2] := by
    decide +kernel
  cases h : generateDts ascii 2 renumbered with
  | error error =>
    rw [h] at hdefinitions
    cases hdefinitions
  | ok dts =>
    rw [h] at hdefinitions
    refine ⟨dts, rfl, ?_⟩
    rw [Option.some.inj hdefinitions]
    decide

end Virtmcu.Repl
