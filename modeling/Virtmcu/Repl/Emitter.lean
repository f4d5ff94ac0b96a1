import Mathlib.Logic.Relation
import Virtmcu.Foundations.Text

/-! # Device trees

`FdtEmitter` turns a platform into the text of a device tree. Every device has a phandle, by its name.
The nodes of the devices without a parent stand at the root, and a device's node has those of its
children inside.

The tree is kept as a tree here, with the device that each node is for; `render` is its text. -/

namespace Virtmcu.Repl

/-! ## Devices -/

/-- The class of a device. -/
inductive Kind
  | plain
  | gic
  | nvic
  | memory
  | mmioBridge
  | wireless
  deriving DecidableEq, Repr

/-- `ReplInterrupt`. -/
structure Interrupt where
  sourceRange : String
  targetDevice : String
  targetRange : String
  deriving DecidableEq, Repr

/-- The value of a property. -/
inductive Value
  | str (text : String)
  | int (n : Int)
  | bool (b : Bool)
  /-- Any other object, by its `str`. -/
  | other (text : String)
  deriving DecidableEq, Repr

/-- `ReplDevice`, or one of its subclasses. -/
structure Device where
  kind : Kind
  name : String
  typeName : String
  addressStr : Option String
  parent : Option String
  properties : List (String × Value)
  interrupts : List Interrupt
  deriving DecidableEq, Repr

/-- `ReplDevice.create`. -/
def Device.create (name typeName : String) (addressStr parent : Option String) : Device where
  kind :=
    if typeName = "IRQControllers.GIC" ∨ typeName = "IRQControllers.ARM_GenericInterruptController" then
      .gic
    else if typeName = "IRQControllers.NVIC" then .nvic
    else if typeName = "Memory.MappedMemory" then .memory
    else if typeName = "mmio-socket-bridge" then .mmioBridge
    else if typeName = "ieee802154" ∨ typeName = "telemetry" then .wireless
    else .plain
  name := name
  typeName := typeName
  addressStr := addressStr
  parent := parent
  properties := []
  interrupts := []

/-! ## What Python does -/

/-- `str.isspace`. -/
def isSpace (c : Char) : Bool :=
  let n := c.toNat
  (0x09 ≤ n && n ≤ 0x0d) || (0x1c ≤ n && n ≤ 0x20) || n == 0x85 || n == 0xa0 || n == 0x1680 ||
    (0x2000 ≤ n && n ≤ 0x200a) || n == 0x2028 || n == 0x2029 || n == 0x202f || n == 0x205f || n == 0x3000

/-- `str.rstrip`. -/
def rstrip (l : List Char) : List Char := (l.reverse.dropWhile isSpace).reverse

/-- `str.strip`. -/
def strip (l : List Char) : List Char := rstrip (l.dropWhile isSpace)

/-- Python on text. -/
structure Runtime where
  /-- `int(s)`; `none` is `ValueError`. -/
  int10 : String → Option Int
  /-- `int(s, 16)`. -/
  int16 : String → Option Int
  isDigit : Char → Bool
  upper : String → String

inductive Error
  /-- `ValueError` of `validate_platform`. -/
  | invalid (message : String)
  /-- `ValueError` of `int`. -/
  | literal (text : String)
  /-- `TypeError`, for a property. -/
  | type (key : String)
  | index
  deriving DecidableEq

/-- How `generate_dts` ends without a tree. -/
inductive Failure
  | error (e : Error)
  | recursionError
  deriving DecidableEq

def Runtime.parse10 (rt : Runtime) (s : String) : Except Error Int :=
  (rt.int10 s).elim (.error (.literal s)) .ok

def Runtime.parse16 (rt : Runtime) (s : String) : Except Error Int :=
  (rt.int16 s).elim (.error (.literal s)) .ok

/-- `f"{n:x}"`. -/
def hex (n : Int) : String := (if n < 0 then "-" else "") ++ String.ofList (Nat.toDigits 16 n.natAbs)

/-- `f"0x{n >> 32 & 0xFFFFFFFF:x} 0x{n & 0xFFFFFFFF:x}"`. -/
def words (n : Int) : List String :=
  ["0x" ++ hex (n / 4294967296 % 4294967296), "0x" ++ hex (n % 4294967296)]

def lower (s : String) : List Char := s.toList.map Char.toLower

/-- The number that a value is to Python; `bool` is an `int`. -/
def Value.asInt : Value → Option Int
  | .int n => some n
  | .bool b => some (if b then 1 else 0)
  | _ => none

/-- `f"{v}"`. -/
def Value.text : Value → String
  | .str text => text
  | .int n => toString n
  | .bool b => if b then "True" else "False"
  | .other text => text

/-- A number, or text that is one. -/
def Value.parseInt (rt : Runtime) (key : String) (v : Value) : Except Error Int :=
  match v.asInt, v with
  | some n, _ => .ok n
  | none, .str text => rt.parse16 text
  | none, _ => .error (.type key)

/-! ## Trees -/

/-- A line of a node. -/
inductive Line
  /-- `key = <phandle>;`. -/
  | ref (key : String) (phandle : ℕ)
  /-- `key = <cell cell ...>;`. -/
  | cells (key : String) (values : List String)
  /-- `key = "text";`. -/
  | str (key text : String)
  /-- `key;`. -/
  | flag (key : String)
  deriving DecidableEq

def Line.key : Line → String
  | .ref key _ => key
  | .cells key _ => key
  | .str key _ => key
  | .flag key => key

def Line.render : Line → String
  | .ref key phandle => key ++ " = <" ++ toString phandle ++ ">;"
  | .cells key values => key ++ " = <" ++ " ".intercalate values ++ ">;"
  | .str key text => key ++ " = \"" ++ text ++ "\";"
  | .flag key => key ++ ";"

/-- Nodes one after another: the first, with what is inside, and the rest. A node may be the one of a
device. -/
inductive Forest
  | nil
  | node (device : Option Device) (title : String) (lines : List Line) (children rest : Forest)
  deriving DecidableEq

def Forest.append : Forest → Forest → Forest
  | .nil, more => more
  | .node device title lines children rest, more => .node device title lines children (rest.append more)

def Forest.render (indent : String) : Forest → List String
  | .nil => []
  | .node _ title lines children rest =>
      (indent ++ title ++ " \x7b") :: lines.map (fun line => indent ++ "    " ++ line.render) ++
        children.render (indent ++ "    ") ++ [indent ++ "\x7d;"] ++ rest.render indent

/-- The device tree. -/
structure Dts where
  lines : List Line
  sysmem : Forest
  cpus : Forest
  devices : Forest
  deriving DecidableEq

def Dts.render (dts : Dts) : String :=
  "\n".intercalate (["/dts-v1/;", "", "/ \x7b"] ++ dts.lines.map (fun line => "    " ++ line.render) ++
    [""] ++ dts.sysmem.render "    " ++ [""] ++ dts.cpus.render "    " ++ [""] ++ dts.devices.render "    " ++
    ["\x7d;"])

/-! ## The emitter -/

/-- `COMPAT_MAP`. -/
def compatMap : List (String × String) :=
  [("UART.STM32_UART", "stm32-usart"),
   ("UART.PL011", "pl011"),
   ("UART.Cadence_UART", "cadence_uart"),
   ("IRQControllers.NVIC", "armv7m_nvic"),
   ("IRQControllers.ARM_GenericInterruptController", "arm_gic"),
   ("IRQControllers.GIC", "arm_gic"),
   ("Timers.ARM_GenericTimer", "armv8-timer"),
   ("Timers.ARM_PrivateTimer", "arm_mptimer"),
   ("Miscellaneous.ArmSnoopControlUnit", "a9mpcore_priv"),
   ("CPU.CortexM", "arm,cortex-m-cpu"),
   ("CPU.CortexA", "arm,cortex-a-cpu"),
   ("CPU.ARMv7A", "arm,cortex-a-cpu"),
   ("CPU.RISCV64", "riscv"),
   ("Memory.MappedMemory", "qemu-memory-region"),
   ("RemotePort.Peripheral", "remote-port-bridge"),
   ("Network.IMX_FEC", "imx.fec"),
   ("Network.LAN9118", "lan9118"),
   ("SPI.PL022", "pl022"),
   ("SPI.ZenohBridge", "spi"),
   ("SPI.Echo", "spi-echo"),
   ("Virtmcu.TransportHub", "virtmcu-transport-hub"),
   ("telemetry", "telemetry"),
   ("ieee802154", "ieee802154")]

/-- `INT_CONTROLLERS`. -/
def intControllers : List String :=
  ["IRQControllers.NVIC", "IRQControllers.ARM_GenericInterruptController", "IRQControllers.GIC"]

/-- The device tree's name of a type: a type without a dot is one of QEMU's own, and a type with a dot
that is not in the map has none. -/
def compatOf (typeName : String) : Option String :=
  compatMap.lookup typeName <|> if typeName.toList.contains '.' then none else some typeName

def Device.isMemory (d : Device) : Bool := d.typeName == "Memory.MappedMemory"

def Device.isCpu (d : Device) : Bool := containsStr d.typeName "CPU"

def Device.isIntController (d : Device) : Bool := intControllers.contains d.typeName

/-- `dev.parent` counts as true. -/
def Device.hasParent (d : Device) : Bool := d.parent.getD "" != ""

def Device.has (d : Device) (key : String) : Bool := d.properties.any (·.1 == key)

/-- `FdtEmitter`. -/
structure Emitter where
  devices : List Device
  phandles : String → Option ℕ
  nextPhandle : ℕ

/-- A name gets the next phandle, even if it has one. -/
def Emitter.assign (e : Emitter) (name : String) : Emitter :=
  { e with
    phandles := Function.update e.phandles name (some e.nextPhandle)
    nextPhandle := e.nextPhandle + 1 }

/-- `_assign_phandles`. -/
def Emitter.new (devices : List Device) : Emitter :=
  devices.foldl (fun e d => e.assign d.name) (Emitter.assign ⟨devices, fun _ => none, 1⟩ "qemu_sysmem")

def Emitter.getPhandle (e : Emitter) (name : String) : ℕ := (e.phandles name).getD 0

/-- `_detect_arch`. -/
def isRiscv (rt : Runtime) (devices : List Device) : Bool :=
  devices.any fun d => containsStr (rt.upper d.typeName) "RISCV"

def require (condition : Bool) (message : String) : Except Error Unit :=
  if condition then .ok () else .error (.invalid message)

/-- `validate_platform`, for one device. -/
def validate (d : Device) : Except Error Unit :=
  match d.kind with
  | .memory =>
      require (d.has "size") ("Memory node '" ++ d.name ++ "' is missing mandatory 'size' property")
  | .wireless => do
      require (d.has "transport")
        ("Wireless node '" ++ d.name ++ "' is missing mandatory 'transport' property")
      require (d.has "node") ("Wireless node '" ++ d.name ++ "' is missing mandatory 'node' property")
  | .mmioBridge => do
      require (d.has "size" || d.has "region-size")
        ("mmio-socket-bridge '" ++ d.name ++ "' is missing mandatory 'region-size' property")
      require (d.has "address" || d.has "base-addr" || d.addressStr != some "sysbus")
        ("mmio-socket-bridge '" ++ d.name ++ "' is missing mandatory 'base-addr' property")
      require (d.has "socket-path")
        ("mmio-socket-bridge '" ++ d.name ++ "' is missing mandatory 'socket-path' property")
  | _ => .ok ()

/-- `validate_platform`. -/
def validatePlatform : List Device → Except Error Unit
  | [] => .ok ()
  | d :: rest => do
      validate d
      validatePlatform rest

def isAngle (c : Char) : Bool := c == '<' || c == '>'

/-- `_parse_addr`. -/
def parseAddr (rt : Runtime) (addrStr : String) : Except Error (Int × Int) :=
  if addrStr = "" ∨ lower addrStr = "none".toList ∨ addrStr.toList.any rt.isDigit = false then .ok (0, 0)
  else
    let addr := strip addrStr.toList
    if addr.head? = some '<' then
      match splitList ',' ((addr.dropWhile isAngle).reverse.dropWhile isAngle).reverse with
      | first :: rest => do
          let base ← rt.parse16 (String.ofList (strip first))
          match rest with
          | sizePart :: _ => do
              let sizePart := strip sizePart
              let sizePart := if sizePart.head? = some '+' then sizePart.tail else sizePart
              let size ← rt.parse16 (String.ofList sizePart)
              pure (base, size)
          | [] => .error .index
      | [] => .error .index
    else .ok ((rt.int16 (String.ofList addr)).getD 0, 0)

/-! ### Interrupts -/

/-- The controller that interrupts with this first target are given to, and whether it is a GIC. -/
def Emitter.interruptParent (e : Emitter) (targetName : String) : Option ℕ × Bool :=
  if e.getPhandle targetName ≠ 0 then
    (some (e.getPhandle targetName), e.devices.any fun d => d.name == targetName && d.kind == .gic)
  else
    match e.devices.find? Device.isIntController with
    | some d => (some (e.getPhandle d.name), d.kind == .gic)
    | none => (none, false)

/-- The cells of one line: for a GIC type, number and trigger. -/
def lineCells (isGic : Bool) (n : Int) : List String :=
  if isGic then ["0", toString (if n < 32 then n + 32 else n), "4"] else [toString n]

/-- `range(start, end + 1)`. -/
def lineRange (start last : Int) : List Int :=
  (List.range (last + 1 - start).toNat).map fun i => start + (i : Int)

/-- The cells of one interrupt entry. -/
def irqCells (rt : Runtime) (isGic : Bool) (irq : Interrupt) : Except Error (List String) :=
  if irq.targetRange.toList.contains '-' then
    match split '-' irq.targetRange with
    | first :: last :: _ => do
        let start ← rt.parse10 first
        let last ← rt.parse10 last
        pure ((lineRange start last).flatMap (lineCells isGic))
    | _ => .error .index
  else if isGic then do
    let n ← rt.parse10 irq.targetRange
    pure (lineCells isGic n)
  else .ok [irq.targetRange]

def allIrqCells (rt : Runtime) (isGic : Bool) : List Interrupt → Except Error (List String)
  | [] => .ok []
  | irq :: rest => do
      let cells ← irqCells rt isGic irq
      let more ← allIrqCells rt isGic rest
      pure (cells ++ more)

/-- The interrupt lines of a node. -/
def Emitter.interruptLines (e : Emitter) (rt : Runtime) (d : Device) : Except Error (List Line) :=
  match d.interrupts with
  | [] => .ok []
  | first :: _ => do
      let parent := e.interruptParent first.targetDevice
      let cells ← allIrqCells rt parent.2 d.interrupts
      pure ((parent.1.map (Line.ref "interrupt-parent")).toList ++
        if cells = [] then [] else [.cells "interrupts" cells])

/-! ### Properties -/

/-- The lines of a property that is given as it is. -/
def Emitter.plainLines (e : Emitter) (key : String) : Value → List Line
  | .bool b => if b then [.flag key] else []
  | .int n => [.cells key ["0x" ++ hex n]]
  | .str text =>
      match e.phandles text with
      | some n => [.ref key n]
      | none => [.str key text]
  | .other text => [.str key text]

/-- The lines of a property. -/
def Emitter.propertyLines (e : Emitter) (rt : Runtime) (compat : String) (d : Device) (key : String)
    (v : Value) : Except Error (List Line) :=
  if key ∈ ["size", "cpuType", "isa", "mmu-type", "chardev"] then
    if key = "size" ∧ compat = "mmio-socket-bridge" ∧ d.has "region-size" = false then do
      let val ← v.parseInt rt key
      pure [.cells "region-size" ["0x" ++ hex val]]
    else .ok []
  else if key = "address" ∧ compat = "mmio-socket-bridge" then
    if d.has "base-addr" = false then do
      let val ← v.parseInt rt key
      pure [.cells "base-addr" (words val)]
    else .ok []
  else
    match if key = "base-addr" then v.asInt else none with
    | some n => .ok [.cells key (words n)]
    | none =>
        if lower key ∈ ["macaddress".toList, "macaddr".toList, "mac".toList] then
          .ok [.str "macaddr" v.text]
        else .ok (e.plainLines key v)

def Emitter.allPropertyLines (e : Emitter) (rt : Runtime) (compat : String) (d : Device) :
    List (String × Value) → Except Error (List Line)
  | [] => .ok []
  | (key, v) :: rest => do
      let lines ← e.propertyLines rt compat d key v
      let more ← e.allPropertyLines rt compat d rest
      pure (lines ++ more)

/-! ### Devices -/

/-- What `_emit_device` writes of a device itself. -/
inductive Own
  | skipped
  | memory (title : String) (lines : List Line)
  | node (title : String) (lines : List Line)

/-- The size of a memory. -/
def memorySize (rt : Runtime) (d : Device) (size : Int) : Except Error Int :=
  match d.properties.lookup "size" with
  | some v => v.parseInt rt "size"
  | none => .ok size

def memoryLines (e : Emitter) (base size : Int) : List Line :=
  [.str "compatible" "qemu-memory-region", .cells "qemu,ram" ["0x01"],
    .ref "container" (e.getPhandle "qemu_sysmem"), .cells "reg" (words base ++ words size)]

/-- The lines before the interrupts. -/
def headLines (e : Emitter) (d : Device) (compat : String) (base size : Int) : List Line :=
  [.str "compatible" compat, .ref "phandle" (e.getPhandle d.name)] ++
    (if d.hasParent then [.cells "reg" [toString base]]
    else if compat ≠ "armv8-timer" then
      [.cells "reg" (words base ++ words (if size = 0 then 0x1000 else size))]
    else []) ++
    if startsWithStr d.typeName "UART" || compat == "pl011" || d.has "chardev" then
      [.cells "chardev" ["0x00"]]
    else []

/-- The lines between the interrupts and the properties. -/
def busLines (d : Device) : List Line :=
  (if d.isIntController then
    [.flag "interrupt-controller",
      .cells "#interrupt-cells" [if containsStr d.typeName "NVIC" then "1" else "3"]]
  else []) ++
    if startsWithStr d.typeName "SPI" then [.cells "#address-cells" ["1"], .cells "#size-cells" ["0"]]
    else []

def containerLines (e : Emitter) (d : Device) (compat : String) : List Line :=
  if !d.hasParent && compat == "mmio-socket-bridge" then
    [.ref "container" (e.getPhandle "qemu_sysmem")]
  else []

/-- `_emit_device` up to the children. -/
def Emitter.emitOwn (e : Emitter) (rt : Runtime) (d : Device) : Except Error Own := do
  let (base, size) ← parseAddr rt (if d.addressStr.getD "" = "" then "0x0" else d.addressStr.getD "")
  if d.isMemory then do
    let size ← memorySize rt d size
    pure (.memory ("memory@" ++ hex base) (memoryLines e base size))
  else
    match compatOf d.typeName with
    | none => pure .skipped
    | some compat => do
        let interrupts ← e.interruptLines rt d
        let properties ← e.allPropertyLines rt compat d d.properties
        pure (.node (if compat = "armv8-timer" then d.name else d.name ++ "@" ++ hex base)
          (headLines e d compat base size ++ interrupts ++ busLines d ++ properties ++
            containerLines e d compat))

/-- `children_by_parent`. -/
def Emitter.children (e : Emitter) (name : String) : List Device :=
  e.devices.filter fun d => d.hasParent && d.parent == some name

/-- Devices one after another. -/
def emitAll (emit : Device → Except Failure Forest) : List Device → Except Failure Forest
  | [] => .ok .nil
  | d :: rest => do
      let nodes ← emit d
      let more ← emitAll emit rest
      pure (nodes.append more)

/-- `_emit_device`, where so many calls fit on the stack. -/
def Emitter.emitDevice (e : Emitter) (rt : Runtime) : (limit : ℕ) → Device → Except Failure Forest
  | 0, _ => .error .recursionError
  | limit + 1, d =>
      match e.emitOwn rt d with
      | .error error => .error (.error error)
      | .ok .skipped => .ok .nil
      | .ok (.memory title lines) => .ok (.node (some d) title lines .nil .nil)
      | .ok (.node title lines) => do
          let children ← emitAll (e.emitDevice rt limit) (e.children d.name)
          pure (.node (some d) title lines children .nil)

/-! ### Platforms -/

/-- The text of a CPU's property, with its default. -/
def cpuText (d : Device) (key default : String) : String :=
  ((d.properties.lookup key).map Value.text).getD default

/-- The node of a CPU; with the interrupt controller inside if it is a RISC-V. -/
def cpuNode (e : Emitter) (riscv : Bool) (d : Device) (index : ℕ) : Forest :=
  .node none (d.name ++ "@" ++ toString index)
    ([.str "device_type" "cpu"] ++
      (if riscv then
        [.str "compatible" ("riscv," ++ cpuText d "cpuType" "rv64"),
          .str "riscv,isa" (cpuText d "isa" "rv64imafdc"),
          .str "mmu-type" (cpuText d "mmu-type" "riscv,sv48")]
      else [.str "compatible" (cpuText d "cpuType" "cortex-m3" ++ "-arm-cpu")]) ++
      [.cells "reg" [toString index], .ref "memory" (e.getPhandle "qemu_sysmem")])
    (if riscv then
      .node none (d.name ++ "_intc: interrupt-controller")
        [.cells "#interrupt-cells" ["1"], .flag "interrupt-controller", .str "compatible" "riscv,cpu-intc",
          .ref "phandle" e.nextPhandle] .nil .nil
    else .nil) .nil

/-- The loop for the CPUs, which gives their interrupt controllers phandles. -/
def emitCpus (riscv : Bool) : Emitter → (index : ℕ) → List Device → Emitter × Forest
  | e, _, [] => (e, .nil)
  | e, index, d :: rest =>
      let (e', nodes) := emitCpus riscv (if riscv then e.assign (d.name ++ "_intc") else e) (index + 1) rest
      (e', (cpuNode e riscv d index).append nodes)

/-- The lines of the root. -/
def rootLines (e : Emitter) (riscv : Bool) : List Line :=
  [.str "model" "virtmcu-dynamic-machine",
    .str "compatible" (if riscv then "riscv-virtio" else "arm,generic-fdt"),
    .cells "#address-cells" ["2"], .cells "#size-cells" ["2"]] ++
    ((e.devices.find? Device.isIntController).map fun d =>
      Line.ref "interrupt-parent" (e.getPhandle d.name)).toList

def sysmemNode (e : Emitter) : Forest :=
  .node none "qemu_sysmem: qemu_sysmem"
    [.str "compatible" "qemu:system-memory", .ref "phandle" (e.getPhandle "qemu_sysmem")] .nil .nil

/-- The `cpus` node. -/
def cpusNode (riscv : Bool) (nodes : Forest) : Forest :=
  .node none "cpus"
    ([.cells "#address-cells" ["1"], .cells "#size-cells" ["0"]] ++
      if riscv then [.cells "timebase-frequency" ["10000000"]] else []) nodes .nil

/-- The emitter after the CPUs, which has all phandles, and their nodes. -/
def emitted (rt : Runtime) (devices : List Device) : Emitter × Forest :=
  emitCpus (isRiscv rt devices) (.new devices) 0 (devices.filter Device.isCpu)

/-- `generate_dts`. -/
def generateDts (rt : Runtime) (limit : ℕ) (devices : List Device) : Except Failure Dts :=
  match validatePlatform devices with
  | .error error => .error (.error error)
  | .ok () => do
      let nodes ← emitAll ((emitted rt devices).1.emitDevice rt limit)
        (devices.filter fun d => !(d.isCpu || d.hasParent))
      pure
        { lines := rootLines (.new devices) (isRiscv rt devices)
          sysmem := sysmemNode (.new devices)
          cpus := cpusNode (isRiscv rt devices) (emitted rt devices).2
          devices := nodes }

end Virtmcu.Repl
