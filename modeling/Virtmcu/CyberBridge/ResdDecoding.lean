import Virtmcu.CyberBridge.ResdBounds

/-! # What a file says

A recorder writes blocks of samples, with a timestamp for every sample or with a start time and a period,
and other blocks. What it wrote is what the parser finds: the samples of every sensor, in the order of the
blocks (`parse_decodes`).

The time of a sample is a natural number here. A build that checks for overflow also adds the period to the
time of the last sample, which nobody asks for, so there this sum has to be in range as well. -/

namespace Virtmcu.CyberBridge

open List UInt64

variable {overflowChecks : Bool} {file : File} {block : Block} {l : Loop}

/-! ## Recordings -/

/-- A measurement: its time in nanoseconds, and its numbers. -/
structure Reading where
  time : ℕ
  data : List Int32
  deriving DecidableEq, Repr

def Sample.reading (sample : Sample) : Reading := ⟨sample.timestampNs.toNat, sample.data⟩

/-- What stands behind the metadata of a block of samples. -/
inductive Area
  /-- Samples with their timestamps. -/
  | stamped (samples : List Sample)
  /-- Samples at equal distances. -/
  | paced (period : UInt64) (samples : List (List Int32))
  /-- Samples of a type that the parser does not decode, with a period or without. -/
  | foreign (period : Option UInt64) (bytes : List UInt8)

def Area.period : Area → Option UInt64
  | .stamped _ => none
  | .paced period _ => some period
  | .foreign period _ => period

/-- A block of samples. -/
structure Recording where
  type : SampleType
  channel : UInt16
  startTime : UInt64
  metadata : List UInt8
  area : Area

/-- What a block of samples says. -/
def Recording.readings (r : Recording) : List Reading :=
  match r.area with
  | .stamped samples => samples.map Sample.reading
  | .paced period samples => samples.mapIdx fun i data => ⟨r.startTime.toNat + i * period.toNat, data⟩
  | .foreign _ _ => []

/-- A block of a file. -/
inductive FileBlock
  | samples (r : Recording)
  /-- The type of the block or that of the samples is not known. -/
  | skipped (blockType : UInt8) (sampleType channel : UInt16) (body : List UInt8)

/-- What a block says about a sensor. -/
def FileBlock.readings (key : Key) : FileBlock → List Reading
  | .samples r => if key = (r.type, r.channel) then r.readings else []
  | .skipped _ _ _ _ => []

/-! ### Bytes -/

def encodeData (data : List Int32) : List UInt8 :=
  encodeInts (data.map fun value => (4, value.toUInt32.toNat))

/-- A sample, with its timestamp if every sample has one. -/
def encodeSample (arbitrary : Bool) (sample : Sample) : List UInt8 :=
  encodeInts (if arbitrary then [(8, sample.timestampNs.toNat)] else []) ++ encodeData sample.data

def Area.bytes : Area → List UInt8
  | .stamped samples => samples.flatMap (encodeSample true)
  | .paced _ samples => samples.flatMap encodeData
  | .foreign _ bytes => bytes

/-- The start time, and the period if there is one. -/
def Recording.times (r : Recording) : List (ℕ × ℕ) :=
  (8, r.startTime.toNat) :: r.area.period.toList.map fun period => (8, period.toNat)

def Recording.body (r : Recording) : List UInt8 :=
  encodeInts (r.times ++ [(8, r.metadata.length)]) ++ (r.metadata ++ r.area.bytes)

def FileBlock.blockType : FileBlock → UInt8
  | .samples r => if r.area.period = none then 0x01 else 0x02
  | .skipped blockType _ _ _ => blockType

def FileBlock.sampleType : FileBlock → UInt16
  | .samples r => r.type.toU16
  | .skipped _ sampleType _ _ => sampleType

def FileBlock.channel : FileBlock → UInt16
  | .samples r => r.channel
  | .skipped _ _ channel _ => channel

def FileBlock.body : FileBlock → List UInt8
  | .samples r => r.body
  | .skipped _ _ _ body => body

/-- A block with its header. -/
def FileBlock.encode (b : FileBlock) : List UInt8 :=
  encodeInts [(1, b.blockType.toNat)] ++
    (encodeInts [(2, b.sampleType.toNat), (2, b.channel.toNat), (8, b.body.length)] ++ b.body)

/-- A file: the magic number, the version with its padding, and the blocks. -/
def encodeFile (version : List UInt8) (blocks : List FileBlock) : List UInt8 :=
  magic ++ (version ++ blocks.flatMap FileBlock.encode)

/-! ### Well-formed blocks -/

/-- Samples of this type have so many numbers. -/
def SampleType.HasWidth (type : SampleType) (width : ℕ) : Prop :=
  ∃ widths, type.dataWidths = some widths ∧ widths.length = width

/-- The area fits the type of the samples. Their times are in range. -/
def Recording.WellFormed (overflowChecks : Bool) (r : Recording) : Prop :=
  match r.area with
  | .stamped samples => r.type.dataWidths ≠ none ∧
      ∀ sample ∈ samples, r.type.HasWidth sample.data.length
  | .paced period samples => r.type.dataWidths ≠ none ∧
      (∀ data ∈ samples, r.type.HasWidth data.length) ∧
      ∀ i, i < samples.length ∨ i = samples.length ∧ overflowChecks = true →
        r.startTime.toNat + i * period.toNat < 2 ^ 64
  | .foreign period bytes => r.type.dataWidths = none ∧
      -- a sample with a timestamp has at least the eight bytes of the timestamp
      (period = none → bytes = [] ∨ 8 ≤ bytes.length)

def FileBlock.WellFormed (overflowChecks : Bool) : FileBlock → Prop
  | .samples r => r.WellFormed overflowChecks
  | .skipped blockType sampleType _ _ =>
      SampleType.fromU16 sampleType = none ∨ timeWidths blockType = none

/-! ## Samples -/

variable {type : SampleType}

/-- All numbers of a sample have four bytes. -/
theorem dataWidths_eq_replicate {widths : List ℕ}
    (h : type.dataWidths = some widths) : widths = List.replicate widths.length 4 := by
  cases type <;> simp only [SampleType.dataWidths, Option.some.injEq, reduceCtorEq] at h <;>
    subst h <;> rfl

theorem widths_encodeData {data : List Int32} (h : type.HasWidth data.length) :
    (data.map fun value => (4, value.toUInt32.toNat)).map Prod.fst = type.dataWidths.getD [] := by
  obtain ⟨widths, hwidths, hlen⟩ := h
  rw [hwidths, Option.getD_some, dataWidths_eq_replicate hwidths, hlen, map_map]
  exact map_const'

theorem dataAt_of_standsAt {data : List Int32} {pos : ℕ}
    (h : type.HasWidth data.length) (hstands : StandsAt file.bytes pos (encodeData data)) :
    dataAt file (type.dataWidths.getD []) pos = data := by
  have hints := intsAt_of_standsAt hstands (by
    intro field hfield
    obtain ⟨value, -, rfl⟩ := mem_map.mp hfield
    exact value.toUInt32.toNat_lt)
  rw [widths_encodeData h] at hints
  rw [dataAt, hints, map_map, map_map]
  refine (map_congr_left fun value _ => ?_).trans (map_id _)
  show (value.toUInt32.toNat).toUInt32.toInt32 = value
  rw [Nat.toUInt32_eq, UInt32.ofNat_toNat]
  rfl

variable {sample : Sample}

/-- The stride of a block is the length of a sample. -/
theorem length_encodeSample (h : block.type.HasWidth sample.data.length) :
    (encodeSample block.arbitrary sample).length = block.stride := by
  rw [encodeSample, encodeData, length_append, length_encodeInts, length_encodeInts,
    widths_encodeData h, Block.stride, Block.stampWidths]
  cases block.arbitrary <;> rfl

/-- The sample at the cursor is the one that was written there. -/
theorem sample_of_standsAt (h : block.type.HasWidth sample.data.length)
    (hstands : StandsAt file.bytes l.cursor.pos (encodeSample block.arbitrary sample))
    (htime : block.arbitrary = false → sample.timestampNs = l.currentTime) :
    l.sample file block = sample := by
  unfold encodeSample at hstands
  have hdata := hstands.right
  rw [length_encodeInts] at hdata
  unfold Loop.sample Block.stampWidths
  cases harbitrary : block.arbitrary with
  | true =>
    rw [harbitrary] at hstands hdata
    have hstamp : intsAt file.bytes [8] l.cursor.pos = [sample.timestampNs.toNat] :=
      intsAt_of_standsAt hstands.left (by
        intro field hfield
        obtain rfl := mem_singleton.mp hfield
        exact sample.timestampNs.toNat_lt)
    have hnumbers : dataAt file (block.type.dataWidths.getD []) (l.cursor.pos + [8].sum) = sample.data :=
      dataAt_of_standsAt h hdata
    have hread : [sample.timestampNs.toNat].getD 0 0 = sample.timestampNs.toNat := rfl
    rw [if_pos rfl, if_pos rfl, hstamp, hnumbers, hread, Nat.toUInt64_eq, UInt64.ofNat_toNat]
  | false =>
    rw [harbitrary] at hdata
    have hnumbers : dataAt file (block.type.dataWidths.getD []) (l.cursor.pos + [].sum) = sample.data :=
      dataAt_of_standsAt h hdata
    rw [if_neg Bool.false_ne_true, if_neg Bool.false_ne_true, hnumbers, ← htime harbitrary]

/-- Samples at equal distances, from a time on. -/
def Paced (period : ℕ) : (time : ℕ) → List Sample → Prop
  | _, [] => True
  | time, sample :: samples => sample.timestampNs.toNat = time ∧ Paced period (time + period) samples

variable {samples : List Sample}

/-- A sum that wraps is not the time of any sample. -/
theorem Paced.wrap {period time : ℕ} (h : Paced period time samples) :
    Paced period (time % 2 ^ 64) samples := by
  cases samples with
  | nil => trivial
  | cons sample samples =>
    have hlt := sample.timestampNs.toNat_lt
    rw [h.1] at hlt
    rwa [Nat.mod_eq_of_lt hlt]

/-- **The loop over the samples decodes what was written**, and is left for the next block. -/
theorem readSamples_decoded {fuel : ℕ} (htype : block.type.dataWidths ≠ none)
    (hdata : ∀ sample ∈ samples, block.type.HasWidth sample.data.length)
    (hstands : StandsAt file.bytes l.cursor.pos (samples.flatMap (encodeSample block.arbitrary)))
    (hroom : block.samplesSize.toNat = l.bytesRead + samples.length * block.stride)
    (htimes : block.arbitrary = false → Paced block.period.toNat l.currentTime.toNat samples)
    (hrange : block.arbitrary = false → overflowChecks = true →
      l.currentTime.toNat + samples.length * block.period.toNat < 2 ^ 64) (hfuel : samples.length < fuel) :
    ∃ l', readSamples overflowChecks file block fuel l = (.next, l') ∧
      l'.cursor.pos = l.cursor.pos + samples.length * block.stride ∧ l'.samples = l.samples ++ samples := by
  have hstride := four_le_stride htype
  induction samples generalizing l fuel with
  | nil =>
    obtain ⟨fuel, rfl⟩ := Nat.exists_eq_succ_of_ne_zero (Nat.ne_of_gt hfuel)
    simp only [length_nil, Nat.zero_mul, Nat.add_zero, append_nil] at hroom ⊢
    exact ⟨l, readSamples_of_exit fuel (if_pos hroom.le), rfl, rfl⟩
  | cons sample samples ih =>
    obtain ⟨fuel, rfl⟩ := Nat.exists_eq_succ_of_ne_zero (Nat.ne_of_gt (Nat.zero_lt_of_lt hfuel))
    rw [length_cons] at hroom hrange hfuel ⊢
    rw [Nat.succ_mul] at hroom ⊢
    rw [flatMap_cons] at hstands
    have hlen := hdata sample (mem_cons_self ..)
    have hwidth := length_encodeSample hlen
    rcases round_decoded (round_cases overflowChecks file block l) htype (by omega)
      fun harbitrary hchecks => by
        have := hrange harbitrary hchecks
        rw [Nat.succ_mul] at this
        omega
      with ⟨l', hround, hsampled⟩ | ⟨l', -, hcut⟩
    · have hsample := sample_of_standsAt hlen hstands.left fun harbitrary =>
        UInt64.toNat_inj.mp (htimes harbitrary).1
      have hbytes := hsampled.bytesRead
      have hpos := hsampled.pos
      have hrest := hstands.right
      rw [hwidth, ← hpos] at hrest
      have htimes' : block.arbitrary = false →
          Paced block.period.toNat l'.currentTime.toNat samples := by
        intro harbitrary
        rw [hsampled.currentTime harbitrary, UInt64.toNat_add]
        exact (htimes harbitrary).2.wrap
      have hrange' : block.arbitrary = false → overflowChecks = true →
          l'.currentTime.toNat + samples.length * block.period.toNat < 2 ^ 64 := by
        intro harbitrary hchecks
        have hrange := hrange harbitrary hchecks
        rw [Nat.succ_mul] at hrange
        rw [hsampled.currentTime harbitrary, UInt64.toNat_add, Nat.mod_eq_of_lt (by omega)]
        omega
      obtain ⟨l'', hrun, hpos', hsamples⟩ :=
        ih (fun other hother => hdata other (mem_cons_of_mem _ hother)) hrest (by omega) htimes'
          hrange' (Nat.lt_of_succ_lt_succ hfuel)
      refine ⟨l'', (readSamples_of_again fuel hround).trans hrun, by omega, ?_⟩
      rw [hsamples, hsampled.samples, hsample, append_assoc, singleton_append]
    · -- the file does not end here
      have hshort := hcut.length_lt
      have hlong := hstands.left.length_le
      omega

theorem length_flatMap_encodeSample (hdata : ∀ sample ∈ samples, block.type.HasWidth sample.data.length) :
    (samples.flatMap (encodeSample block.arbitrary)).length = samples.length * block.stride := by
  induction samples with
  | nil => simp
  | cons sample samples ih =>
    rw [flatMap_cons, length_append, length_cons, Nat.succ_mul,
      length_encodeSample (hdata sample (mem_cons_self ..)),
      ih fun other hother => hdata other (mem_cons_of_mem _ hother), Nat.add_comm]

/-- The samples that the loop makes of numbers at equal distances. -/
def pacedSamples (period : ℕ) : (time : ℕ) → List (List Int32) → List Sample
  | _, [] => []
  | time, data :: rest => ⟨time.toUInt64, data⟩ :: pacedSamples period (time + period) rest

theorem length_pacedSamples (period time : ℕ) (rest : List (List Int32)) :
    (pacedSamples period time rest).length = rest.length := by
  induction rest generalizing time with
  | nil => rfl
  | cons data rest ih => rw [pacedSamples, length_cons, ih, length_cons]

theorem mem_pacedSamples {period time : ℕ} {rest : List (List Int32)}
    (h : sample ∈ pacedSamples period time rest) : sample.data ∈ rest := by
  induction rest generalizing time with
  | nil => cases h
  | cons data rest ih =>
    rcases mem_cons.mp h with rfl | h
    · exact mem_cons_self ..
    · exact mem_cons_of_mem _ (ih h)

theorem flatMap_pacedSamples (period time : ℕ) (rest : List (List Int32)) :
    (pacedSamples period time rest).flatMap (encodeSample false) = rest.flatMap encodeData := by
  induction rest generalizing time with
  | nil => rfl
  | cons data rest ih =>
    rw [pacedSamples, flatMap_cons, ih, flatMap_cons]
    rfl

/-- The time of the sample with number `i` is `time + i * period`. -/
theorem paced_pacedSamples {period : ℕ} (time : ℕ) {rest : List (List Int32)}
    (h : ∀ i < rest.length, time + i * period < 2 ^ 64) :
    Paced period time (pacedSamples period time rest) ∧ (pacedSamples period time rest).map Sample.reading =
        rest.mapIdx fun i data => ⟨time + i * period, data⟩ := by
  induction rest generalizing time with
  | nil => exact ⟨trivial, rfl⟩
  | cons data rest ih =>
    have hfirst : time.toUInt64.toNat = time := by
      have hlt := h 0 (Nat.succ_pos _)
      rw [Nat.zero_mul, Nat.add_zero] at hlt
      exact toNat_ofNat_of_lt' hlt
    obtain ⟨hpaced, hreadings⟩ := ih (time + period) fun i hi => by
      have hlt := h (i + 1) (Nat.succ_lt_succ hi)
      rw [Nat.succ_mul] at hlt
      omega
    refine ⟨⟨hfirst, hpaced⟩, ?_⟩
    rw [pacedSamples, map_cons, hreadings, mapIdx_cons, Sample.reading, hfirst, Nat.zero_mul, Nat.add_zero]
    simp only [Nat.succ_mul, Nat.add_comm period, Nat.add_assoc]

variable {c : Cursor}

/-- The loop from the start of an area to its end. -/
theorem readSamples_written (overflowChecks : Bool) (samples : List Sample)
    (htype : block.type.dataWidths ≠ none)
    (hdata : ∀ sample ∈ samples, block.type.HasWidth sample.data.length)
    (hstands : StandsAt file.bytes c.pos (samples.flatMap (encodeSample block.arbitrary)))
    (hsize : block.samplesSize.toNat = (samples.flatMap (encodeSample block.arbitrary)).length)
    (htimes : block.arbitrary = false → Paced block.period.toNat block.startTime.toNat samples)
    (hrange : block.arbitrary = false → overflowChecks = true →
      block.startTime.toNat + samples.length * block.period.toNat < 2 ^ 64) :
    ∃ l', readSamples overflowChecks file block (file.bytes.length + 1)
        ⟨c, 0, block.startTime, []⟩ = (.next, l') ∧
      l'.cursor.pos = c.pos + block.samplesSize.toNat ∧ l'.samples = samples := by
  have hlength := length_flatMap_encodeSample hdata
  have hinside := hstands.length_le
  rw [hlength] at hsize hinside
  have hcount : samples.length ≤ samples.length * block.stride :=
    Nat.le_mul_of_pos_right _ ((by decide : 0 < 4).trans_le (four_le_stride htype))
  obtain ⟨l', hrun, hpos, hsamples⟩ := readSamples_decoded (l := ⟨c, 0, block.startTime, []⟩) htype hdata
    hstands (hsize.trans (Nat.zero_add _).symm) htimes hrange
    (Nat.lt_succ_of_le (hcount.trans ((Nat.le_add_left _ _).trans hinside)))
  rw [hsize]
  exact ⟨l', hrun, hpos, hsamples⟩

/-! ## Blocks -/

/-- The parser has the recording in front of it, behind the metadata. -/
structure Describes (block : Block) (r : Recording) : Prop where
  arbitrary : block.arbitrary = r.area.period.isNone
  type : block.type = r.type
  startTime : block.startTime = r.startTime
  period : ∀ period, r.area.period = some period → block.period = period
  samplesSize : block.samplesSize.toNat = r.area.bytes.length

variable {r : Recording}

/-- **The samples of a recording are read, whatever their kind.** -/
theorem readSamples_area (c : Cursor) (hwf : r.WellFormed overflowChecks)
    (hblock : Describes block r) (hstands : StandsAt file.bytes c.pos r.area.bytes) :
    ∃ l', readSamples overflowChecks file block (file.bytes.length + 1)
        ⟨c, 0, block.startTime, []⟩ = (.next, l') ∧ l'.cursor.pos = c.pos + block.samplesSize.toNat ∧
      l'.samples.map Sample.reading = r.readings := by
  have hsize := hblock.samplesSize
  have harbitrary := hblock.arbitrary
  have hperiod := hblock.period
  unfold Recording.WellFormed at hwf
  unfold Recording.readings
  cases harea : r.area with
  | stamped samples =>
    rw [harea, ← hblock.type] at hwf
    rw [harea] at hsize harbitrary hstands
    have harbitrary : block.arbitrary = true := harbitrary
    have hfalse : ¬ block.arbitrary = false := by
      rw [harbitrary]
      decide
    obtain ⟨l', hrun, hpos, hsamples⟩ := readSamples_written overflowChecks samples hwf.1 hwf.2
      (by rwa [harbitrary]) (by rwa [harbitrary]) (fun h => absurd h hfalse) fun h => absurd h hfalse
    exact ⟨l', hrun, hpos, by rw [hsamples]⟩
  | paced period samples =>
    rw [harea, ← hblock.type, ← hblock.startTime] at hwf
    rw [harea] at hsize harbitrary hstands hperiod
    obtain ⟨htype, hdata, hrange⟩ := hwf
    have harbitrary : block.arbitrary = false := harbitrary
    have hperiod : block.period = period := hperiod period rfl
    obtain ⟨hpaced, hreadings⟩ := paced_pacedSamples block.startTime.toNat fun i hi => hrange i (.inl hi)
    have hbytes : (pacedSamples period.toNat block.startTime.toNat samples).flatMap
        (encodeSample block.arbitrary) = (Area.paced period samples).bytes := by
      rw [harbitrary, flatMap_pacedSamples, Area.bytes]
    obtain ⟨l', hrun, hpos, hsamples⟩ := readSamples_written overflowChecks
      (pacedSamples period.toNat block.startTime.toNat samples) htype
      (fun sample hsample => hdata _ (mem_pacedSamples hsample)) (hbytes ▸ hstands) (hbytes ▸ hsize)
      (fun _ => hperiod ▸ hpaced) fun _ hchecks => by
        rw [length_pacedSamples, hperiod]
        exact hrange _ (.inr ⟨rfl, hchecks⟩)
    refine ⟨l', hrun, hpos, ?_⟩
    rw [hsamples, hreadings, hblock.startTime]
  | foreign period bytes =>
    rw [harea, ← hblock.type] at hwf
    rw [harea] at hsize harbitrary hstands
    have hinside := hstands.length_le
    have hfile := file.length_lt
    have hroom : block.arbitrary = true →
        block.samplesSize.toNat = 0 ∨ 8 ≤ block.samplesSize.toNat := by
      intro h
      rw [hsize]
      rcases hwf.2 (Option.isNone_iff_eq_none.mp (harbitrary.symm.trans h)) with hnil | hlong
      · left
        rw [hnil]
        rfl
      · exact .inr hlong
    rcases round_foreign (round_cases overflowChecks file block ⟨c, 0, block.startTime, []⟩) hwf.1 rfl
      (by omega) hroom with ⟨l', hround, hskipped⟩ | ⟨l', -, -, hshort⟩
    · exact ⟨l', readSamples_of_exit _ hround, hskipped.pos, by rw [hskipped.samples]; rfl⟩
    · -- the file does not end within the area
      dsimp only at hshort
      omega

/-- What becomes of a block that a recorder wrote. -/
structure Decoded (b : FileBlock) (c : Cursor) (sensors : Sensors) (outcome : Outcome) : Prop where
  flow : outcome.flow = .next
  pos : outcome.cursor.pos = c.pos + b.body.length
  readings : ∀ key, (outcome.sensors.samplesOf key).map Sample.reading =
    (sensors.samplesOf key).map Sample.reading ++ b.readings key

theorem blockType_of_none (h : r.area.period = none) : (FileBlock.samples r).blockType = 0x01 := if_pos h

theorem blockType_of_some {period : UInt64} (h : r.area.period = some period) :
    (FileBlock.samples r).blockType = 0x02 := if_neg (by rw [h]; nofun)

theorem timeWidths_samples (r : Recording) :
    timeWidths (FileBlock.samples r).blockType = some (r.times.map Prod.fst) := by
  unfold FileBlock.blockType Recording.times
  dsimp only
  cases r.area.period <;> rfl

/-- The numbers in front of the metadata: the last one is the size of the metadata. -/
theorem metadataSize_times (r : Recording) (size : ℕ) :
    ((r.times ++ [(8, size)]).map Prod.snd).getD (r.times.map Prod.fst).length 0 = size := by
  unfold Recording.times
  cases r.area.period <;> rfl

theorem fits_times (r : Recording) {size : ℕ} (h : size < 2 ^ 63) :
    ∀ field ∈ r.times ++ [(8, size)], field.2 < 256 ^ field.1 := by
  intro field hfield
  rcases mem_append.mp hfield with hfield | hfield
  · rcases mem_cons.mp hfield with rfl | hfield
    · exact r.startTime.toNat_lt
    · obtain ⟨period, -, rfl⟩ := mem_map.mp hfield
      exact period.toNat_lt
  · obtain rfl := mem_singleton.mp hfield
    exact h.trans (show 2 ^ 63 < 256 ^ 8 by decide)

/-- The parser takes the times of a recording from its header. -/
theorem describes_block (r : Recording) (sampleTypeVal channelId : UInt16) (dataSize size : UInt64)
    (metadataSize : ℕ) (h : size.toNat = r.area.bytes.length) :
    Describes (BlockHeader.block ⟨(FileBlock.samples r).blockType, sampleTypeVal, channelId, dataSize⟩
      r.type ((r.times ++ [(8, metadataSize)]).map Prod.snd) size) r := by
  have hstart : (((r.times ++ [(8, metadataSize)]).map Prod.snd).getD 0 0).toUInt64 = r.startTime :=
    UInt64.ofNat_toNat
  refine ⟨?_, rfl, hstart, fun period hperiod => ?_, h⟩
  · show decide ((FileBlock.samples r).blockType = 0x01) = r.area.period.isNone
    cases hperiod : r.area.period with
    | none =>
      rw [blockType_of_none hperiod]
      rfl
    | some period =>
      rw [blockType_of_some hperiod]
      rfl
  · show (if (FileBlock.samples r).blockType = 0x01 then 0 else
      (((r.times ++ [(8, metadataSize)]).map Prod.snd).getD 1 0).toUInt64) = period
    rw [blockType_of_some hperiod, if_neg (by decide), Recording.times, hperiod]
    exact UInt64.ofNat_toNat

/-- The size of what stands behind a header, as the parser computes it. -/
theorem length_body (r : Recording) :
    r.body.length = (r.times.map Prod.fst).sum + 8 + r.metadata.length + r.area.bytes.length := by
  rw [Recording.body, length_append, length_encodeInts, map_append, sum_append,
    length_append, ← Nat.add_assoc]
  rfl

/-- **A block of samples is decoded.** -/
theorem decoded_parseTimed (sensors : Sensors)
    (hwf : r.WellFormed overflowChecks) (hstands : StandsAt file.bytes c.pos r.body) :
    Decoded (.samples r) c sensors (parseTimed overflowChecks file
        ⟨(FileBlock.samples r).blockType, r.type.toU16, r.channel, r.body.length.toUInt64⟩ r.type
        (r.times.map Prod.fst) c sensors) := by
  have hinside := hstands.length_le
  have hfile := file.length_lt
  have hbody := length_body r
  unfold Recording.body at hstands
  have htimes : intsAt file.bytes (r.times.map Prod.fst ++ [8]) c.pos =
      (r.times ++ [(8, r.metadata.length)]).map Prod.snd := by
    have hints := intsAt_of_standsAt hstands.left (fits_times r (by omega))
    rw [map_append] at hints
    exact hints
  have harea := hstands.right.right
  rw [length_encodeInts, map_append, sum_append] at harea
  have hsmall : ∀ n ≤ r.body.length, n.toUInt64.toNat = n := fun n hn =>
    toNat_ofNat_of_lt' (lt_of_le_of_lt (by omega) (hfile.trans (by decide)))
  have hmetadata := hsmall r.metadata.length (by omega)
  have hsubheader := hsmall (r.times.map Prod.fst).sum (by omega)
  have hdataSize := hsmall r.body.length le_rfl
  -- the numbers in front of the metadata
  obtain ⟨hvalues, hpos⟩ := readInts_of_le file (r.times.map Prod.fst ++ [8]) c
    (by rw [sum_append, sum_singleton]; omega)
  rw [sum_append, sum_singleton] at hpos
  rcases hread : readInts file (r.times.map Prod.fst ++ [8]) c with ⟨values, c₁⟩
  rw [hread] at hvalues hpos
  dsimp only at hvalues hpos
  subst hvalues
  -- the metadata, and the area behind it
  have hinside' : c₁.pos + r.metadata.length.toUInt64.toNat < 2 ^ 63 := by omega
  obtain ⟨hsamples, hlength⟩ := samplesSize_of_le overflowChecks r.body.length.toUInt64
    (r.times.map Prod.fst).sum.toUInt64 r.metadata.length.toUInt64 (by omega)
  have hbehind : StandsAt file.bytes (c₁.pos + r.metadata.length.toUInt64.toNat) r.area.bytes := by
    rw [hpos, hmetadata]
    exact harea
  obtain ⟨l', hrun, hend, hreadings⟩ := readSamples_area
    ⟨c₁.pos + r.metadata.length.toUInt64.toNat, c₁.high⟩ hwf
    (describes_block r r.type.toU16 r.channel r.body.length.toUInt64 _ r.metadata.length
      (hlength.trans (by omega))) hbehind
  have hparse : parseTimed overflowChecks file
      ⟨(FileBlock.samples r).blockType, r.type.toU16, r.channel, r.body.length.toUInt64⟩ r.type
      (r.times.map Prod.fst) c sensors =
      ⟨.next, l'.cursor, sensors.push (r.type, r.channel) l'.samples⟩ := by
    unfold parseTimed
    rw [hread]
    dsimp only
    rw [htimes, metadataSize_times, seekCurrent_of_lt hinside']
    dsimp only
    rw [hsamples]
    dsimp only
    unfold parseSamples
    rw [hrun]
    rfl
  rw [hparse]
  refine ⟨rfl, ?_, fun key => ?_⟩
  · have hend : l'.cursor.pos = c₁.pos + r.metadata.length.toUInt64.toNat +
        (r.body.length.toUInt64 - (r.times.map Prod.fst).sum.toUInt64 - 8 -
          r.metadata.length.toUInt64).toNat := hend
    show l'.cursor.pos = c.pos + r.body.length
    omega
  · rw [Sensors.samplesOf_push, map_append, FileBlock.readings]
    by_cases hkey : key = (r.type, r.channel)
    · rw [if_pos hkey, if_pos hkey, hreadings]
    · rw [if_neg hkey, if_neg hkey, map_nil]

theorem decoded_skipBlock {b : FileBlock} (sensors : Sensors)
    (hreadings : ∀ key, b.readings key = []) (hinside : c.pos + b.body.length ≤ file.bytes.length) :
    Decoded b c sensors (skipBlock b.body.length.toUInt64 c sensors) := by
  have hfile := file.length_lt
  have hsize : b.body.length.toUInt64.toNat = b.body.length :=
    toNat_ofNat_of_lt' (lt_of_le_of_lt (by omega) (hfile.trans (by decide)))
  rw [skipBlock, seekCurrent_of_lt (by omega)]
  refine ⟨rfl, by rw [hsize], fun key => ?_⟩
  rw [hreadings, append_nil]

theorem length_encode (b : FileBlock) : b.encode.length = 13 + b.body.length := by
  rw [FileBlock.encode, length_append, length_append, length_encodeInts, length_encodeInts, ← Nat.add_assoc]
  rfl

/-- The header of a block is read. -/
theorem headerAt_encode {b : FileBlock} {pos : ℕ} (hstands : StandsAt file.bytes pos b.encode) :
    headerAt file pos = ⟨b.blockType, b.sampleType, b.channel, b.body.length.toUInt64⟩ := by
  have hinside := hstands.length_le
  have hfile := file.length_lt
  rw [length_encode] at hinside
  have hsize : b.body.length < 256 ^ 8 := lt_of_le_of_lt (by omega) (hfile.trans (by decide))
  have hkind : intsAt file.bytes [1] pos = [b.blockType.toNat] :=
    intsAt_of_standsAt hstands.left (by
      intro field hfield
      obtain rfl := mem_singleton.mp hfield
      exact b.blockType.toNat_lt)
  have hfields : intsAt file.bytes [2, 2, 8] (pos + 1) =
      [b.sampleType.toNat, b.channel.toNat, b.body.length] :=
    intsAt_of_standsAt hstands.right.left (by
      intro field hfield
      simp only [mem_cons, not_mem_nil, or_false] at hfield
      rcases hfield with rfl | rfl | rfl
      · exact b.sampleType.toNat_lt
      · exact b.channel.toNat_lt
      · exact hsize)
  have hkind' : b.blockType.toNat.toUInt8 = b.blockType := UInt8.ofNat_toNat
  have htype : b.sampleType.toNat.toUInt16 = b.sampleType := UInt16.ofNat_toNat
  have hchannel : b.channel.toNat.toUInt16 = b.channel := UInt16.ofNat_toNat
  rw [headerAt, hkind, hfields]
  simp only [BlockHeader.ofInts, getD_cons_zero, getD_cons_succ, hkind', htype, hchannel]

/-- **A block that a recorder wrote is decoded.** -/
theorem decoded_parseBlock {b : FileBlock} (sensors : Sensors)
    (hwf : b.WellFormed overflowChecks) (hstands : StandsAt file.bytes c.pos b.encode) :
    ∃ c₁, c₁.pos = c.pos + 13 ∧ Decoded b c₁ sensors (parseBlock overflowChecks file c sensors) := by
  have hinside := hstands.length_le
  rw [length_encode] at hinside
  obtain ⟨c₁, hpos, -, heq⟩ := parseBlock_of_le overflowChecks sensors
    (show c.pos + 13 ≤ file.bytes.length by omega)
  refine ⟨c₁, hpos, ?_⟩
  rw [heq, headerAt_encode hstands]
  cases b with
  | samples r =>
    have htype : SampleType.fromU16 (FileBlock.samples r).sampleType = some r.type :=
      SampleType.fromU16_toU16 r.type
    rw [parseBody]
    dsimp only
    rw [htype, timeWidths_samples]
    refine decoded_parseTimed sensors hwf ?_
    rw [hpos]
    exact hstands.right.right
  | skipped blockType sampleType channel body =>
    have hskip : Decoded (.skipped blockType sampleType channel body) c₁ sensors
        (skipBlock body.length.toUInt64 c₁ sensors) :=
      decoded_skipBlock sensors (fun _ => rfl) (show c₁.pos + _ ≤ file.bytes.length by omega)
    have hforeign : SampleType.fromU16 sampleType = none ∨ timeWidths blockType = none := hwf
    rw [parseBody_of_foreign hforeign]
    exact hskip

/-! ## Files -/

/-- The blocks of a file, from the cursor to the end of the file. -/
theorem parseBlocks_decodes {blocks : List FileBlock} (c : Cursor) (sensors : Sensors)
    (hwf : ∀ b ∈ blocks, b.WellFormed overflowChecks)
    (hstands : StandsAt file.bytes c.pos (blocks.flatMap FileBlock.encode))
    (hend : file.bytes.length = c.pos + (blocks.flatMap FileBlock.encode).length) :
    ∃ sensors', (∀ fuel, blocks.length < fuel →
        parseBlocks overflowChecks file fuel c sensors = some (.done, sensors')) ∧
      ∀ key, (sensors'.samplesOf key).map Sample.reading =
        (sensors.samplesOf key).map Sample.reading ++ blocks.flatMap (FileBlock.readings key) := by
  induction blocks generalizing c sensors with
  | nil =>
    -- no type of another block can be read
    have hdone : parseBlock overflowChecks file c sensors =
        ⟨.done, ⟨c.pos + 1, max c.high (c.pos + 1)⟩, sensors⟩ := by
      rw [parseBlock, readInts_cons_of_gt [] (by rw [hend]; exact Nat.lt_succ_self _)]
    refine ⟨sensors, fun fuel hfuel => ?_, fun key => (append_nil _).symm⟩
    obtain ⟨fuel, rfl⟩ := Nat.exists_eq_succ_of_ne_zero (Nat.ne_of_gt hfuel)
    rw [parseBlocks_of_ne_next (by rw [hdone]; nofun), hdone]
  | cons b blocks ih =>
    rw [flatMap_cons] at hstands hend
    obtain ⟨c₁, hpos, hdecoded⟩ :=
      decoded_parseBlock sensors (hwf b (mem_cons_self ..)) hstands.left
    have hnext : (parseBlock overflowChecks file c sensors).cursor.pos = c.pos + b.encode.length := by
      rw [hdecoded.pos, hpos, length_encode, Nat.add_assoc]
    obtain ⟨sensors', hrun, hreadings⟩ := ih (parseBlock overflowChecks file c sensors).cursor
      (parseBlock overflowChecks file c sensors).sensors
      (fun other hother => hwf other (mem_cons_of_mem _ hother)) (by rw [hnext]; exact hstands.right)
      (by rw [hnext, hend, length_append, Nat.add_assoc])
    refine ⟨sensors', fun fuel hfuel => ?_, fun key => ?_⟩
    · obtain ⟨fuel, rfl⟩ := Nat.exists_eq_succ_of_ne_zero (Nat.ne_of_gt (Nat.zero_lt_of_lt hfuel))
      rw [parseBlocks_of_next hdecoded.flow]
      exact hrun fuel (Nat.lt_of_succ_lt_succ hfuel)
    · rw [hreadings, hdecoded.readings, append_assoc, flatMap_cons]

theorem openFile_encode {version : List UInt8} {blocks : List FileBlock}
    (hfile : file.bytes = encodeFile version blocks) (hversion : version.length = 4) :
    ∃ c, openFile file = some c ∧ c.pos = 8 := by
  have hlength : 8 ≤ file.bytes.length := by
    have hfour : magic.length = 4 := rfl
    rw [hfile, encodeFile, length_append, length_append, hversion, hfour]
    omega
  have hmagic : file.bytes.take 4 = magic := by rw [hfile]; rfl
  obtain ⟨hfirst, hpos⟩ := readInts_of_le file [4] ⟨0, 0⟩ (by simp only [sum_singleton]; omega)
  rcases hread : readInts file [4] ⟨0, 0⟩ with ⟨values, c₁⟩
  rw [hread] at hfirst hpos
  simp only [sum_singleton] at hfirst hpos
  obtain ⟨hsecond, hpos'⟩ := readInts_of_le file [1, 3] c₁
    (by simp only [sum_cons, sum_nil]; omega)
  rcases hread' : readInts file [1, 3] c₁ with ⟨values', c₂⟩
  rw [hread'] at hsecond hpos'
  simp only [sum_cons, sum_nil] at hsecond hpos'
  refine ⟨c₂, ?_, by omega⟩
  rw [openFile, hread, hfirst]
  dsimp only
  rw [if_pos hmagic, hread', hsecond]

/-- **The parser finds what was recorded**: it succeeds, and the samples of every sensor are those of its
blocks, in their order. -/
theorem parse_decodes (overflowChecks : Bool) (file : File) (version : List UInt8)
    (blocks : List FileBlock) (hfile : file.bytes = encodeFile version blocks)
    (hversion : version.length = 4) (hwf : ∀ b ∈ blocks, b.WellFormed overflowChecks) :
    ∃ sensors, (∀ fuel, blocks.length < fuel → parse overflowChecks file fuel = some (.done, sensors)) ∧
      ∀ key, (sensors.samplesOf key).map Sample.reading = blocks.flatMap (FileBlock.readings key) := by
  obtain ⟨c, hopen, hpos⟩ := openFile_encode hfile hversion
  have hhead : (magic ++ version).length = c.pos := by
    rw [List.length_append, hversion, hpos]
    rfl
  have hbytes : file.bytes = (magic ++ version) ++ blocks.flatMap FileBlock.encode ++ [] := by
    rw [hfile, encodeFile, List.append_nil, List.append_assoc]
  obtain ⟨sensors, hrun, hreadings⟩ := parseBlocks_decodes c [] hwf
    ⟨_, [], hbytes, hhead⟩ (by rw [hbytes, List.append_nil, List.length_append, hhead])
  refine ⟨sensors, fun fuel hfuel => ?_, hreadings⟩
  rw [parse, hopen]
  exact hrun fuel hfuel

/-- Two blocks with temperatures, one of each kind, and between them a block of an unknown type,
accelerations and a voltage. -/
def recorded : List FileBlock :=
  [.samples ⟨.temperature, 0, 0, [], .stamped [⟨5, [21]⟩, ⟨9, [22]⟩]⟩, .skipped 7 1 0 [1, 2, 3],
    .samples ⟨.acceleration, 2, 100, [0xAA], .paced 10 [[1, 2, 3], [4, 5, 6]]⟩,
    .samples ⟨.voltage, 0, 0, [], .foreign none [0, 0, 0, 0, 0, 0, 0, 0, 1]⟩,
    .samples ⟨.temperature, 0, 50, [], .paced 7 [[23]]⟩]

def recordedFile : File where
  bytes := encodeFile [1, 0, 0, 0] recorded
  length_lt := by decide +kernel

theorem wellFormed_recorded : ∀ b ∈ recorded, b.WellFormed true := by
  simp only [recorded, forall_mem_cons, not_mem_nil, false_imp_iff, implies_true, and_true]
  refine ⟨⟨by decide, ?_⟩, .inr rfl, ⟨by decide, ?_, ?_⟩, ⟨rfl, fun _ => .inr (by decide)⟩,
    by decide, ?_, ?_⟩
  · simp only [forall_mem_cons, not_mem_nil, false_imp_iff, implies_true, and_true]
    exact ⟨⟨_, rfl, rfl⟩, _, rfl, rfl⟩
  · simp only [forall_mem_cons, not_mem_nil, false_imp_iff, implies_true, and_true]
    exact ⟨⟨_, rfl, rfl⟩, _, rfl, rfl⟩
  · intro i hi
    have hlength : i ≤ 2 := by rcases hi with hi | ⟨rfl, -⟩ <;> [exact hi.le; exact le_rfl]
    show 100 + i * 10 < 2 ^ 64
    omega
  · simp only [forall_mem_cons, not_mem_nil, false_imp_iff, implies_true, and_true]
    exact ⟨_, rfl, rfl⟩
  · intro i hi
    have hlength : i ≤ 1 := by rcases hi with hi | ⟨rfl, -⟩ <;> [exact hi.le; exact le_rfl]
    show 50 + i * 7 < 2 ^ 64
    omega

theorem parse_decodes_recorded : ∃ sensors, parse true recordedFile 6 = some (.done, sensors) ∧
      (Sensors.samplesOf sensors (.temperature, 0)).map Sample.reading =
        [⟨5, [21]⟩, ⟨9, [22]⟩, ⟨50, [23]⟩] := by
  obtain ⟨sensors, hrun, hreadings⟩ :=
    parse_decodes true recordedFile [1, 0, 0, 0] recorded rfl rfl wellFormed_recorded
  exact ⟨sensors, hrun 6 (by decide), (hreadings _).trans (by decide +kernel)⟩

end Virtmcu.CyberBridge
