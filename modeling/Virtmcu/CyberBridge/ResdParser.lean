import Virtmcu.Foundations.Cursor
import Virtmcu.Foundations.Panic

/-! # RESD files

`ResdParser::parse` reads recorded sensor data. A file begins with the magic number and four more bytes;
then come blocks, each with a header of 13 bytes: the type of the block, the type of the samples, the
channel and the size of what follows. A block of samples has a start time, perhaps a period, metadata that
is skipped, and the samples. All other blocks are skipped by their size.

The sizes come from the file, and the parser trusts them: they are subtracted from one another, and cast to
`i64` for a relative seek. What comes of that depends on whether the build checks for overflow, so the
model has both builds (`overflowChecks`). -/

namespace Virtmcu.CyberBridge

/-! ## Sensors -/

/-- `ResdSampleType`. -/
inductive SampleType
  | temperature
  | acceleration
  | angularRate
  | voltage
  | ecg
  | humidity
  | pressure
  | magneticFluxDensity
  | binaryData
  deriving DecidableEq, Repr

/-- `sample_type as u16`. -/
def SampleType.toU16 : SampleType → UInt16
  | .temperature => 1
  | .acceleration => 2
  | .angularRate => 3
  | .voltage => 4
  | .ecg => 5
  | .humidity => 6
  | .pressure => 7
  | .magneticFluxDensity => 8
  | .binaryData => 9

/-- `ResdSampleType::from_u16`. -/
def SampleType.fromU16 (val : UInt16) : Option SampleType :=
  match val.toNat with
  | 1 => some .temperature
  | 2 => some .acceleration
  | 3 => some .angularRate
  | 4 => some .voltage
  | 5 => some .ecg
  | 6 => some .humidity
  | 7 => some .pressure
  | 8 => some .magneticFluxDensity
  | 9 => some .binaryData
  | _ => none

theorem SampleType.fromU16_toU16 (type : SampleType) : fromU16 type.toU16 = some type := by
  cases type <;> rfl

/-- `ResdSample`. -/
structure Sample where
  timestampNs : UInt64
  data : List Int32
  deriving DecidableEq, Repr

/-- `ResdSensor`. -/
structure Sensor where
  name : String
  type : SampleType
  samples : List Sample
  deriving DecidableEq, Repr

/-- A sample type and a channel. -/
abbrev Key := SampleType × UInt16

/-- `sensors`, each key at most once. -/
abbrev Sensors := List (Key × Sensor)

def Sensors.get : Sensors → Key → Option Sensor
  | [], _ => none
  | (other, sensor) :: rest, key => if key = other then some sensor else get rest key

/-- The sensor of a key is changed, or put there. -/
def Sensors.update (key : Key) (f : Option Sensor → Sensor) : Sensors → Sensors
  | [] => [(key, f none)]
  | (other, sensor) :: rest =>
      if key = other then (other, f (some sensor)) :: rest else (other, sensor) :: update key f rest

theorem Sensors.get_cons (other : Key) (sensor : Sensor) (rest : Sensors) (key : Key) :
    get ((other, sensor) :: rest) key = if key = other then some sensor else get rest key := rfl

theorem Sensors.get_update (key : Key) (f : Option Sensor → Sensor) (sensors : Sensors) (other : Key) :
    get (update key f sensors) other =
      if other = key then some (f (get sensors key)) else get sensors other := by
  induction sensors with
  | nil => rfl
  | cons entry rest ih =>
    obtain ⟨first, sensor⟩ := entry
    rw [update]
    by_cases hkey : key = first
    · subst hkey
      rw [if_pos rfl, get_cons, get_cons, if_pos rfl, get_cons]
      by_cases hother : other = key
      · rw [if_pos hother, if_pos hother]
      · rw [if_neg hother, if_neg hother, if_neg hother]
    · rw [if_neg hkey, get_cons, get_cons, if_neg hkey, get_cons, ih]
      by_cases hother : other = first
      · rw [if_pos hother, if_pos hother, if_neg fun h => hkey (h.symm.trans hother)]
      · rw [if_neg hother, if_neg hother]

/-- `ResdSensor::new`. -/
def Sensor.new (key : Key) : Sensor where
  name := "resd_" ++ toString key.1.toU16.toNat ++ "_" ++ toString key.2.toNat
  type := key.1
  samples := []

/-- The samples are pushed to the sensor of the key. -/
def Sensors.push (key : Key) (samples : List Sample) (sensors : Sensors) : Sensors :=
  update key (fun sensor => { sensor.getD (.new key) with
    samples := (sensor.getD (.new key)).samples ++ samples }) sensors

/-- The samples of a key. -/
def Sensors.samplesOf (sensors : Sensors) (key : Key) : List Sample :=
  ((get sensors key).map Sensor.samples).getD []

theorem Sensors.samplesOf_push (key : Key) (samples : List Sample) (sensors : Sensors) (other : Key) :
    samplesOf (push key samples sensors) other =
      samplesOf sensors other ++ if other = key then samples else [] := by
  unfold samplesOf push
  rw [get_update]
  by_cases h : other = key
  · subst h
    rw [if_pos rfl, if_pos rfl, Option.map_some, Option.getD_some]
    cases get sensors other <;> rfl
  · rw [if_neg h, if_neg h, List.append_nil]

/-- `ResdSensor::last_timestamp`. -/
def Sensor.lastTimestamp (sensor : Sensor) : UInt64 :=
  (sensor.samples.getLast?.map Sample.timestampNs).getD 0

/-- `ResdParser::get_last_timestamp`. -/
def Sensors.getLastTimestamp (sensors : Sensors) : UInt64 :=
  sensors.foldl (fun latest entry => max latest entry.2.lastTimestamp) 0

/-! ## Samples -/

/-- The widths of the numbers of a sample, for the types that the parser decodes. -/
def SampleType.dataWidths : SampleType → Option (List ℕ)
  | .temperature => some [4]
  | .acceleration => some [4, 4, 4]
  | .angularRate => some [4, 4, 4]
  | _ => none

/-- A block of samples, once its header and its times are read. -/
structure Block where
  /-- The type of the block is 1: every sample has a timestamp. Otherwise it is 2. -/
  arbitrary : Bool
  type : SampleType
  startTime : UInt64
  period : UInt64
  samplesSize : UInt64

/-- The widths of what stands in front of the numbers. -/
def Block.stampWidths (block : Block) : List ℕ := if block.arbitrary then [8] else []

/-- What changes in the loop over the samples. -/
structure Loop where
  cursor : Cursor
  bytesRead : ℕ
  currentTime : UInt64
  samples : List Sample

/-- How a part of the parser ends. -/
inductive Flow
  /-- It goes on with the next block. -/
  | next
  /-- The file is at its end: `Ok(())`. -/
  | done
  /-- A read or a seek failed: `Err`. -/
  | failed
  | panicked
  /-- The loop over the samples has run out of fuel, which it does not (`loopEnd_readSamples`). -/
  | unfinished
  deriving DecidableEq, Repr

/-- How a round of the loop ends. -/
inductive Round
  | again (l : Loop)
  | exit (flow : Flow) (l : Loop)

/-- The rest of the samples is skipped, since the parser does not know their type. -/
def skipSamples (overflowChecks : Bool) (block : Block) (l : Loop) : Round :=
  match subU64 overflowChecks block.samplesSize l.bytesRead.toUInt64 with
  | none => .exit .panicked l
  | some rest =>
      match l.cursor.seekCurrent rest with
      | none => .exit .failed l
      | some c => .exit .next { l with cursor := c }

/-- The numbers of a sample, and the time of the next one. -/
def readData (overflowChecks : Bool) (file : File) (block : Block) (widths : List ℕ) (timestamp : UInt64)
    (l : Loop) : Round :=
  match readInts file widths l.cursor with
  | (none, c) => .exit .failed { l with cursor := c }
  | (some data, c) =>
      let l := { l with
        cursor := c
        bytesRead := l.bytesRead + widths.sum
        samples := l.samples ++ [⟨timestamp, data.map fun value => value.toUInt32.toInt32⟩] }
      if block.arbitrary then .again l
      else
        match addU64 overflowChecks l.currentTime block.period with
        | none => .exit .panicked l
        | some time => .again { l with currentTime := time }

/-- A round of the loop. -/
def sampleRound (overflowChecks : Bool) (file : File) (block : Block) (l : Loop) : Round :=
  if block.samplesSize.toNat ≤ l.bytesRead then .exit .next l
  else
    match readInts file block.stampWidths l.cursor with
    | (none, c) => .exit .failed { l with cursor := c }
    | (some stamp, c) =>
        let l := { l with cursor := c, bytesRead := l.bytesRead + block.stampWidths.sum }
        match block.type.dataWidths with
        | none => skipSamples overflowChecks block l
        | some widths =>
            readData overflowChecks file block widths
              (if block.arbitrary then (stamp.getD 0 0).toUInt64 else l.currentTime) l

/-- The loop. A round that does not leave it reads at least four bytes, so it ends within as many rounds as
the file has bytes. -/
def readSamples (overflowChecks : Bool) (file : File) (block : Block) : (fuel : ℕ) → Loop → Flow × Loop
  | 0, l => (.unfinished, l)
  | fuel + 1, l =>
      match sampleRound overflowChecks file block l with
      | .exit flow l => (flow, l)
      | .again l => readSamples overflowChecks file block fuel l

variable {overflowChecks : Bool}

theorem readSamples_of_exit {file : File} {block : Block} {l l' : Loop}
    {flow : Flow} (fuel : ℕ) (h : sampleRound overflowChecks file block l = .exit flow l') :
    readSamples overflowChecks file block (fuel + 1) l = (flow, l') := by
  rw [readSamples, h]

theorem readSamples_of_again {file : File} {block : Block} {l l' : Loop}
    (fuel : ℕ) (h : sampleRound overflowChecks file block l = .again l') :
    readSamples overflowChecks file block (fuel + 1) l = readSamples overflowChecks file block fuel l' := by
  rw [readSamples, h]

/-! ## Blocks -/

structure BlockHeader where
  blockType : UInt8
  sampleTypeVal : UInt16
  channelId : UInt16
  dataSize : UInt64
  deriving DecidableEq, Repr

/-- The numbers of a header, the type of the block first. -/
def BlockHeader.ofInts (blockType : List ℕ) (fields : List ℕ) : BlockHeader where
  blockType := (blockType.getD 0 0).toUInt8
  sampleTypeVal := (fields.getD 0 0).toUInt16
  channelId := (fields.getD 1 0).toUInt16
  dataSize := (fields.getD 2 0).toUInt64

/-- What became of a block. -/
structure Outcome where
  flow : Flow
  cursor : Cursor
  sensors : Sensors

/-- A block is skipped by its size. -/
def skipBlock (dataSize : UInt64) (c : Cursor) (sensors : Sensors) : Outcome :=
  match c.seekCurrent dataSize with
  | none => ⟨.failed, c, sensors⟩
  | some c => ⟨.next, c, sensors⟩

/-- The start time, and for blocks of type 2 the period. -/
def timeWidths (blockType : UInt8) : Option (List ℕ) :=
  if blockType = 0x01 then some [8] else if blockType = 0x02 then some [8, 8] else none

/-- `data_size - subheader_size - 8 - metadata_size`. -/
def samplesSize (overflowChecks : Bool) (dataSize subheaderSize metadataSize : UInt64) : Option UInt64 := do
  let size ← subU64 overflowChecks dataSize subheaderSize
  let size ← subU64 overflowChecks size 8
  subU64 overflowChecks size metadataSize

/-- The samples of a block, behind the metadata. -/
def parseSamples (overflowChecks : Bool) (file : File) (block : Block) (channelId : UInt16) (c : Cursor)
    (sensors : Sensors) : Outcome :=
  let (flow, l) := readSamples overflowChecks file block (file.bytes.length + 1)
    ⟨c, 0, block.startTime, []⟩
  ⟨flow, l.cursor, sensors.push (block.type, channelId) l.samples⟩

/-- The block that a header and the times behind it describe. -/
def BlockHeader.block (header : BlockHeader) (type : SampleType) (times : List ℕ) (size : UInt64) :
    Block where
  arbitrary := header.blockType = 0x01
  type := type
  startTime := (times.getD 0 0).toUInt64
  period := if header.blockType = 0x01 then 0 else (times.getD 1 0).toUInt64
  samplesSize := size

/-- A block of samples, behind its header. -/
def parseTimed (overflowChecks : Bool) (file : File) (header : BlockHeader) (type : SampleType)
    (widths : List ℕ) (c : Cursor) (sensors : Sensors) : Outcome :=
  match readInts file (widths ++ [8]) c with
  | (none, c) => ⟨.failed, c, sensors⟩
  | (some times, c) =>
      let metadataSize := (times.getD widths.length 0).toUInt64
      match c.seekCurrent metadataSize with
      | none => ⟨.failed, c, sensors⟩
      | some c =>
          match samplesSize overflowChecks header.dataSize widths.sum.toUInt64 metadataSize with
          | none => ⟨.panicked, c, sensors⟩
          | some size =>
              parseSamples overflowChecks file (header.block type times size) header.channelId c sensors

/-- What follows a header. -/
def parseBody (overflowChecks : Bool) (file : File) (header : BlockHeader) (c : Cursor)
    (sensors : Sensors) : Outcome :=
  match SampleType.fromU16 header.sampleTypeVal with
  | none => skipBlock header.dataSize c sensors
  | some type =>
      match timeWidths header.blockType with
      | none => skipBlock header.dataSize c sensors
      | some widths => parseTimed overflowChecks file header type widths c sensors

theorem parseBody_of_foreign {file : File} {header : BlockHeader} {c : Cursor} {sensors : Sensors}
    (h : SampleType.fromU16 header.sampleTypeVal = none ∨ timeWidths header.blockType = none) :
    parseBody overflowChecks file header c sensors = skipBlock header.dataSize c sensors := by
  unfold parseBody
  rcases h with h | h
  · rw [h]
  · rw [h]
    cases SampleType.fromU16 header.sampleTypeVal <;> rfl

/-- A round of the loop over the blocks. -/
def parseBlock (overflowChecks : Bool) (file : File) (c : Cursor) (sensors : Sensors) : Outcome :=
  match readInts file [1] c with
  | (none, c) => ⟨.done, c, sensors⟩
  | (some blockType, c) =>
      match readInts file [2, 2, 8] c with
      | (none, c) => ⟨.failed, c, sensors⟩
      | (some fields, c) =>
          parseBody overflowChecks file (BlockHeader.ofInts blockType fields) c sensors

/-! ## Files -/

/-- `b"RESD"`. -/
def magic : List UInt8 := [0x52, 0x45, 0x53, 0x44]

/-- The magic number, the version and the padding. -/
def openFile (file : File) : Option Cursor :=
  match readInts file [4] ⟨0, 0⟩ with
  | (none, _) => none
  | (some _, c) =>
      if file.bytes.take 4 = magic then
        match readInts file [1, 3] c with
        | (none, _) => none
        | (some _, c) => some c
      else none

/-- The loop over the blocks, for `fuel` of them; nothing if it has not ended by then. -/
def parseBlocks (overflowChecks : Bool) (file : File) : (fuel : ℕ) → Cursor → Sensors → Option (Flow × Sensors)
  | 0, _, _ => none
  | fuel + 1, c, sensors =>
      let outcome := parseBlock overflowChecks file c sensors
      if outcome.flow = .next then parseBlocks overflowChecks file fuel outcome.cursor outcome.sensors
      else some (outcome.flow, outcome.sensors)

/-- `ResdParser::parse`, with the sensors that it leaves. -/
def parse (overflowChecks : Bool) (file : File) (fuel : ℕ) : Option (Flow × Sensors) :=
  match openFile file with
  | none => some (.failed, [])
  | some c => parseBlocks overflowChecks file fuel c []

/-- The positions at which a header is looked for, with the sensors so far. -/
inductive Visited (overflowChecks : Bool) (file : File) : Cursor → Sensors → Prop
  | start {c : Cursor} (h : openFile file = some c) : Visited overflowChecks file c []
  | next {c : Cursor} {sensors : Sensors} (h : Visited overflowChecks file c sensors)
      (hflow : (parseBlock overflowChecks file c sensors).flow = .next) :
      Visited overflowChecks file (parseBlock overflowChecks file c sensors).cursor
        (parseBlock overflowChecks file c sensors).sensors

end Virtmcu.CyberBridge
