import Virtmcu.CyberBridge.ResdParser

/-! # Does the parser come to an end?

From one block header to the next the parser moves by a seek over the block, or over the metadata and the
samples. Where that leads can be computed from the sizes in the file (`endOf`), and so can be whether
something is out of range on the way (`Overflows`). A size of `2^63` or more is negative as an `i64`. With
the size `2^64 - 13` the parser is back at the header that it has just read, and it never ends
(`not_advances_rewinding`).

The parser ends exactly if every block of the file leads to a place behind its header, or nowhere
(`parse_ends_iff`). The loop over the samples of a block ends in any case (`loopEnd_readSamples`). -/

namespace Virtmcu.CyberBridge

open List Option

variable {checks : Bool} {file : File} {block : Block} {l l' : Loop}

/-! ## A round of the loop over the samples -/

/-- How many bytes a sample has: those of its timestamp, and those of its numbers if they are decoded. -/
def Block.stride (block : Block) : ℕ :=
  block.stampWidths.sum + (block.type.dataWidths.getD []).sum

/-- The numbers of a sample, as they stand at a position. -/
def dataAt (file : File) (widths : List ℕ) (pos : ℕ) : List Int32 :=
  (intsAt file.bytes widths pos).map fun value => value.toUInt32.toInt32

/-- The sample that stands at the cursor. -/
def Loop.sample (file : File) (block : Block) (l : Loop) : Sample where
  timestampNs :=
    if block.arbitrary then ((intsAt file.bytes block.stampWidths l.cursor.pos).getD 0 0).toUInt64
    else l.currentTime
  data := dataAt file (block.type.dataWidths.getD []) (l.cursor.pos + block.stampWidths.sum)

/-- The sample at the cursor has been read. -/
structure Sampled (file : File) (block : Block) (l l' : Loop) : Prop where
  pos : l'.cursor.pos = l.cursor.pos + block.stride
  inside : l'.cursor.pos ≤ file.bytes.length
  high_le : l'.cursor.high ≤ max l.cursor.high (l.cursor.pos + block.stride)
  bytesRead : l'.bytesRead = l.bytesRead + block.stride
  currentTime : block.arbitrary = false → l'.currentTime = l.currentTime + block.period
  samples : l'.samples = l.samples ++ [l.sample file block]

/-- The file ends before the sample does. -/
structure CutOff (file : File) (block : Block) (l l' : Loop) : Prop where
  high_le : l'.cursor.high ≤ max l.cursor.high (l.cursor.pos + block.stride)
  length_lt : file.bytes.length < l.cursor.pos + block.stride
  length_lt_high : file.bytes.length < l'.cursor.high
  stride_pos : 0 < block.stride

/-- What is left of the area, behind the first timestamp, as the parser computes it. -/
def Loop.rest (block : Block) (l : Loop) : UInt64 :=
  block.samplesSize - (l.bytesRead + block.stampWidths.sum).toUInt64

/-- **What a round can do.** -/
inductive RoundCases (checks : Bool) (file : File) (block : Block) (l : Loop) : Round → Prop
  /-- The area is used up. -/
  | full (h : block.samplesSize.toNat ≤ l.bytesRead) : RoundCases checks file block l (.exit .next l)
  | sampled {l' : Loop} (hmore : l.bytesRead < block.samplesSize.toNat)
      (htype : block.type.dataWidths ≠ none) (h : Sampled file block l l')
      (htime : checks = true → block.arbitrary = false →
        l.currentTime.toNat + block.period.toNat < 2 ^ 64) :
      RoundCases checks file block l (.again l')
  | cutOff {l' : Loop} (hmore : l.bytesRead < block.samplesSize.toNat) (h : CutOff file block l l') :
      RoundCases checks file block l (.exit .failed l')
  /-- The time of the next sample is out of range. -/
  | late {l' : Loop} (hchecks : checks = true) (harbitrary : block.arbitrary = false)
      (hmore : l.bytesRead < block.samplesSize.toNat) (htype : block.type.dataWidths ≠ none)
      (hinside : l.cursor.pos + block.stride ≤ file.bytes.length)
      (h : 2 ^ 64 ≤ l.currentTime.toNat + block.period.toNat) :
      RoundCases checks file block l (.exit .panicked l')
  /-- Samples that are not decoded are skipped. -/
  | skipped {l' : Loop} (hmore : l.bytesRead < block.samplesSize.toNat)
      (htype : block.type.dataWidths = none) (hread : block.stampWidths.sum = 0 ∨
        l.cursor.pos + block.stampWidths.sum ≤ file.bytes.length)
      (hroom : checks = true →
        (l.bytesRead + block.stampWidths.sum).toUInt64.toNat ≤ block.samplesSize.toNat)
      (hseek : seekFrom (l.cursor.pos + block.stampWidths.sum) (l.rest block) = some l'.cursor.pos)
      (hhigh : l'.cursor.high ≤ max l.cursor.high (l.cursor.pos + block.stampWidths.sum))
      (hsamples : l'.samples = l.samples) : RoundCases checks file block l (.exit .next l')
  | unseekable {l' : Loop} (hmore : l.bytesRead < block.samplesSize.toNat)
      (htype : block.type.dataWidths = none) (hread : block.stampWidths.sum = 0 ∨
        l.cursor.pos + block.stampWidths.sum ≤ file.bytes.length)
      (hroom : checks = true →
        (l.bytesRead + block.stampWidths.sum).toUInt64.toNat ≤ block.samplesSize.toNat)
      (hseek : seekFrom (l.cursor.pos + block.stampWidths.sum) (l.rest block) = none)
      (hhigh : l'.cursor.high ≤ max l.cursor.high (l.cursor.pos + block.stampWidths.sum)) :
      RoundCases checks file block l (.exit .failed l')
  /-- The timestamp alone is larger than the area. -/
  | tooSmall {l' : Loop} (hchecks : checks = true)
      (hmore : l.bytesRead < block.samplesSize.toNat) (htype : block.type.dataWidths = none)
      (hread : block.stampWidths.sum = 0 ∨
        l.cursor.pos + block.stampWidths.sum ≤ file.bytes.length)
      (h : block.samplesSize.toNat < (l.bytesRead + block.stampWidths.sum).toUInt64.toNat) :
      RoundCases checks file block l (.exit .panicked l')

variable {type : SampleType} {widths : List ℕ}

/-- Every sample that is decoded has at least four bytes. -/
theorem four_le_dataWidths (h : type.dataWidths = some widths) : widths ≠ [] ∧ 4 ≤ widths.sum := by
  cases type <;> simp only [SampleType.dataWidths, Option.some.injEq, reduceCtorEq] at h <;>
    subst h <;> decide

/-- The timestamp in front of a sample, where every sample has one. -/
theorem readInts_stamp {stamp : List ℕ} {c c' : Cursor}
    (h : readInts file block.stampWidths c = (some stamp, c')) :
    stamp = intsAt file.bytes block.stampWidths c.pos ∧ c'.pos = c.pos + block.stampWidths.sum ∧
      (block.stampWidths.sum = 0 ∨ c.pos + block.stampWidths.sum ≤ file.bytes.length) := by
  unfold Block.stampWidths at h ⊢
  by_cases harbitrary : block.arbitrary = true
  · rw [if_pos harbitrary] at h ⊢
    obtain ⟨hle, hstamp, hpos⟩ := readInts_eq_some (by decide) h
    exact ⟨hstamp, hpos, .inr hle⟩
  · rw [if_neg harbitrary] at h ⊢
    obtain ⟨hstamp, rfl⟩ := Prod.mk.inj h
    exact ⟨(Option.some.inj hstamp).symm, rfl, .inl rfl⟩

theorem round_cases (checks : Bool) (file : File) (block : Block) (l : Loop) :
    RoundCases checks file block l (sampleRound checks file block l) := by
  unfold sampleRound
  by_cases hfull : block.samplesSize.toNat ≤ l.bytesRead
  · rw [if_pos hfull]
    exact .full hfull
  rw [if_neg hfull]
  have hmore := Nat.not_le.mp hfull
  have hhigh := high_readInts_le file block.stampWidths l.cursor
  rcases hread : readInts file block.stampWidths l.cursor with ⟨_ | stamp, c⟩
  · rw [hread] at hhigh
    have hstride : block.stampWidths.sum ≤ block.stride := Nat.le_add_right _ _
    have hshort : file.bytes.length < l.cursor.pos + block.stampWidths.sum := by
      by_contra hle
      have hsome := (readInts_of_le file block.stampWidths l.cursor (by omega)).1
      rw [hread] at hsome
      cases hsome
    have hne : block.stampWidths ≠ [] := by
      intro hnil
      rw [hnil] at hread
      cases hread
    have hstamp : 0 < block.stampWidths.sum := by
      unfold Block.stampWidths at hne ⊢
      split
      · decide
      · rename_i harbitrary
        exact absurd (if_neg harbitrary) hne
    have hreach := le_high_readInts file hne l.cursor
    rw [hread] at hreach
    exact .cutOff hmore ⟨hhigh.trans (max_le_max_left _ (Nat.add_le_add_left hstride _)), by omega,
      by dsimp only at hreach ⊢; omega, by omega⟩
  rw [hread] at hhigh
  obtain ⟨rfl, hpos, hinside⟩ := readInts_stamp hread
  dsimp only at hhigh ⊢
  cases htype : block.type.dataWidths with
  | none =>
    dsimp only
    unfold skipSamples
    split
    · rename_i hrest
      obtain ⟨hchecks, hlt⟩ := subU64_eq_none hrest
      exact .tooSmall hchecks hmore htype hinside hlt
    · rename_i rest hrest
      obtain ⟨rfl, hroom⟩ := subU64_eq_some hrest
      rw [seekCurrent_eq, hpos]
      split
      · rename_i hseek
        exact .unseekable hmore htype hinside hroom (Option.map_eq_none_iff.mp hseek) hhigh
      · rename_i c' hseek
        obtain ⟨target, htarget, rfl⟩ := Option.map_eq_some_iff.mp hseek
        exact .skipped hmore htype hinside hroom htarget hhigh rfl
  | some widths =>
    have hstride : block.stride = block.stampWidths.sum + widths.sum := by
      rw [Block.stride, htype, getD_some]
    have hne : block.type.dataWidths ≠ none := by
      rw [htype]
      exact some_ne_none widths
    dsimp only
    unfold readData
    have hhigh' := high_readInts_le file widths c
    dsimp only
    rcases hdata : readInts file widths c with ⟨_ | data, c'⟩
    · rw [hdata] at hhigh'
      have hshort : file.bytes.length < c.pos + widths.sum := by
        by_contra hle
        have hsome := (readInts_of_le file widths c (by omega)).1
        rw [hdata] at hsome
        cases hsome
      have hreach := le_high_readInts file (four_le_dataWidths htype).1 c
      rw [hdata] at hreach
      have hfour := (four_le_dataWidths htype).2
      exact .cutOff hmore ⟨by dsimp only at hhigh' ⊢; omega, by omega, by dsimp only at hreach ⊢; omega,
        by omega⟩
    rw [hdata] at hhigh'
    obtain ⟨hle, rfl, hpos'⟩ := readInts_eq_some (four_le_dataWidths htype).1 hdata
    rw [hpos, Nat.add_assoc, ← hstride] at hle hpos'
    have hsample : (⟨if block.arbitrary then
          ((intsAt file.bytes block.stampWidths l.cursor.pos).getD 0 0).toUInt64 else l.currentTime,
        (intsAt file.bytes widths c.pos).map fun value => value.toUInt32.toInt32⟩ : Sample) =
        l.sample file block := by
      rw [Loop.sample, htype, getD_some, dataAt, hpos]
    dsimp only at hhigh' ⊢
    rw [hsample]
    by_cases harbitrary : block.arbitrary = true
    · rw [if_pos harbitrary]
      refine .sampled hmore hne ⟨hpos', hpos' ▸ hle, by dsimp only; omega, by dsimp only; omega,
        fun h => ?_, rfl⟩ fun _ h => ?_ <;> exact absurd (harbitrary.symm.trans h) (by decide)
    · rw [if_neg harbitrary]
      split
      · rename_i htime
        obtain ⟨hchecks, hover⟩ := addU64_eq_none htime
        exact .late hchecks (eq_false_of_ne_true harbitrary) hmore hne hle hover
      · rename_i time htime
        obtain ⟨rfl, hrange⟩ := addU64_eq_some htime
        exact .sampled hmore hne ⟨hpos', hpos' ▸ hle, by dsimp only; omega, by dsimp only; omega,
          fun _ => rfl, rfl⟩ fun hchecks _ => hrange hchecks

/-- A sample that is decoded has at least four bytes. -/
theorem four_le_stride (h : block.type.dataWidths ≠ none) : 4 ≤ block.stride := by
  obtain ⟨widths, hwidths⟩ := ne_none_iff_exists'.mp h
  rw [Block.stride, hwidths, getD_some]
  exact (four_le_dataWidths hwidths).2.trans (Nat.le_add_left _ _)

/-! ## The loop over the samples -/

/-- How the loop over samples that are decoded ends, where `n` more of them begin in the area. -/
inductive LoopEnd (checks : Bool) (file : File) (block : Block) (n : ℕ) (l : Loop) :
    Flow × Loop → Prop
  | complete {l' : Loop} (hpos : l'.cursor.pos = l.cursor.pos + n * block.stride)
      (hinside : n = 0 ∨ l.cursor.pos + n * block.stride ≤ file.bytes.length)
      (hhigh : l'.cursor.high ≤ max l.cursor.high (l.cursor.pos + n * block.stride))
      (htime : checks = true → block.arbitrary = false →
        l.currentTime.toNat + n * block.period.toNat < 2 ^ 64) :
      LoopEnd checks file block n l (.next, l')
  /-- The file ends in the sample with the number `k`. -/
  | cutOff {l' : Loop} {k : ℕ} (hk : k < n)
      (hshort : file.bytes.length < l.cursor.pos + (k + 1) * block.stride)
      (hhigh : l'.cursor.high ≤ max l.cursor.high (l.cursor.pos + n * block.stride))
      (hlength : file.bytes.length < l'.cursor.high)
      (htime : checks = true → block.arbitrary = false →
        l.currentTime.toNat + k * block.period.toNat < 2 ^ 64) :
      LoopEnd checks file block n l (.failed, l')
  /-- The time behind `k` samples is out of range. -/
  | late {l' : Loop} {k : ℕ} (hchecks : checks = true) (harbitrary : block.arbitrary = false)
      (hk : k ≤ n) (hinside : l.cursor.pos + k * block.stride ≤ file.bytes.length)
      (hlate : 2 ^ 64 ≤ l.currentTime.toNat + k * block.period.toNat) :
      LoopEnd checks file block n l (.panicked, l')

/-- One sample more. -/
theorem LoopEnd.cons {n : ℕ} {result : Flow × Loop} (hsampled : Sampled file block l l')
    (htime : checks = true → block.arbitrary = false →
      l'.currentTime.toNat = l.currentTime.toNat + block.period.toNat)
    (h : LoopEnd checks file block n l' result) : LoopEnd checks file block (n + 1) l result := by
  have hpos := hsampled.pos
  have hinside := hsampled.inside
  have hhigh := hsampled.high_le
  cases h with
  | complete hpos' hinside' hhigh' htime' =>
    refine .complete ?_ (Or.inr ?_) ?_ fun hchecks harbitrary => ?_
    · rw [Nat.succ_mul]
      omega
    · rw [Nat.succ_mul]
      rcases hinside' with rfl | hinside'
      · rw [Nat.zero_mul]
        omega
      · omega
    · rw [Nat.succ_mul]
      omega
    · have hrange := htime' hchecks harbitrary
      rw [Nat.succ_mul]
      rw [htime hchecks harbitrary] at hrange
      omega
  | cutOff hk hshort hhigh' hlength htime' =>
    refine .cutOff (Nat.succ_lt_succ hk) ?_ ?_ hlength fun hchecks harbitrary => ?_
    · rw [Nat.succ_mul]
      omega
    · rw [Nat.succ_mul]
      omega
    · have hrange := htime' hchecks harbitrary
      rw [Nat.succ_mul]
      rw [htime hchecks harbitrary] at hrange
      omega
  | late hchecks harbitrary hk hinside' hlate =>
    refine .late hchecks harbitrary (Nat.succ_le_succ hk) ?_ ?_
    · rw [Nat.succ_mul]
      omega
    · rw [htime hchecks harbitrary] at hlate
      rw [Nat.succ_mul]
      omega

/-- **The loop ends**: each round brings the cursor closer to the end of the file. -/
theorem loopEnd_readSamples {fuel n : ℕ} (htype : block.type.dataWidths ≠ none)
    (hroom : ∀ k, k < n ↔ l.bytesRead + k * block.stride < block.samplesSize.toNat) (hpos : 0 < fuel)
    (hfuel : file.bytes.length < l.cursor.pos + fuel) :
    LoopEnd checks file block n l (readSamples checks file block fuel l) := by
  have hstride := four_le_stride htype
  have hfirst := hroom 0
  rw [Nat.zero_mul, Nat.add_zero] at hfirst
  induction fuel generalizing l n with
  | zero => omega
  | succ fuel ih =>
    have hround := round_cases checks file block l
    unfold readSamples
    generalize sampleRound checks file block l = round at hround ⊢
    cases hround with
    | full hfull =>
      obtain rfl : n = 0 := by omega
      exact .complete (by simp) (Or.inl rfl) (le_max_left _ _) fun _ _ => by
        have := l.currentTime.toNat_lt
        omega
    | @sampled l' hmore _ hsampled htime =>
      obtain ⟨n, rfl⟩ := Nat.exists_eq_succ_of_ne_zero (Nat.ne_of_gt (hfirst.mpr hmore))
      have hmoved := hsampled.pos
      have hinside := hsampled.inside
      have hroom' (k : ℕ) : k < n ↔ l'.bytesRead + k * block.stride < block.samplesSize.toNat := by
        have hnext := hroom (k + 1)
        rw [Nat.succ_mul] at hnext
        rw [hsampled.bytesRead]
        omega
      refine LoopEnd.cons hsampled (fun hchecks harbitrary => ?_) (ih hroom' (by omega) (by omega) ?_)
      · rw [hsampled.currentTime harbitrary, UInt64.toNat_add]
        exact Nat.mod_eq_of_lt (htime hchecks harbitrary)
      · have hzero := hroom' 0
        rwa [Nat.zero_mul, Nat.add_zero] at hzero
    | cutOff hmore hcut =>
      have hhigh := hcut.high_le
      have hone : block.stride ≤ n * block.stride := Nat.le_mul_of_pos_left _ (hfirst.mpr hmore)
      refine .cutOff (hfirst.mpr hmore) ?_ (by omega) hcut.length_lt_high fun _ _ => ?_
      · rw [Nat.zero_add, Nat.one_mul]
        exact hcut.length_lt
      · rw [Nat.zero_mul]
        exact l.currentTime.toNat_lt
    | late hchecks harbitrary hmore _ hinside hlate =>
      refine .late (k := 1) hchecks harbitrary (hfirst.mpr hmore) ?_ ?_
      · rwa [Nat.one_mul]
      · rwa [Nat.one_mul]
    | skipped _ hnone | unseekable _ hnone | tooSmall _ _ hnone => exact absurd hnone htype

/-- How many samples begin in the area. -/
def Block.count (block : Block) : ℕ := (block.samplesSize.toNat + block.stride - 1) / block.stride

theorem lt_count_iff (hstride : 0 < block.stride) (k : ℕ) :
    k < block.count ↔ k * block.stride < block.samplesSize.toNat := by
  rw [Block.count, Nat.lt_iff_add_one_le, Nat.le_div_iff_mul_le hstride, Nat.succ_mul]
  omega

/-- Of the samples that begin in the area, one after the other is read. -/
theorem loopEnd_area (checks : Bool) (file : File) (c : Cursor) (htype : block.type.dataWidths ≠ none) :
    LoopEnd checks file block block.count ⟨c, 0, block.startTime, []⟩
      (readSamples checks file block (file.bytes.length + 1) ⟨c, 0, block.startTime, []⟩) := by
  have hstride := four_le_stride htype
  refine loopEnd_readSamples htype (fun k => ?_) (Nat.succ_pos _) (by dsimp only; omega)
  exact (lt_count_iff (by omega) k).trans (by simp)

/-! ## Where a block leads

By its sizes alone: the samples are counted, not read. -/

/-- Behind the sample area that begins at `pos`, if the parser gets there. -/
def areaEnd (file : File) (block : Block) (pos : ℕ) : Option ℕ :=
  match block.type.dataWidths with
  | some _ =>
      if block.count = 0 ∨ pos + block.count * block.stride ≤ file.bytes.length then
        some (pos + block.count * block.stride)
      else none
  | none =>
      if block.samplesSize.toNat = 0 then some pos
      else if block.stampWidths.sum = 0 ∨ pos + block.stampWidths.sum ≤ file.bytes.length then
        seekFrom (pos + block.stampWidths.sum) (block.samplesSize - block.stampWidths.sum.toUInt64)
      else none

/-- A time, or what is left of the area behind a timestamp, is out of range. -/
def AreaOverflows (file : File) (block : Block) (pos : ℕ) : Prop :=
  match block.type.dataWidths with
  | some _ => block.arbitrary = false ∧ ∃ k ≤ block.count,
      pos + k * block.stride ≤ file.bytes.length ∧
        2 ^ 64 ≤ block.startTime.toNat + k * block.period.toNat
  | none => 0 < block.samplesSize.toNat ∧ block.samplesSize.toNat < block.stampWidths.sum ∧
      pos + block.stampWidths.sum ≤ file.bytes.length

/-- What a part of the parser does, in terms of where it leads and whether it overflows. -/
structure Leads (checks : Bool) (overflows : Prop) (target : Option ℕ) (flow : Flow)
    (c : Cursor) : Prop where
  panicked : flow = .panicked ↔ checks = true ∧ overflows
  next : flow = .next → target = some c.pos
  stops : flow = .done ∨ flow = .failed → target = none
  finished : flow ≠ .unfinished

variable {overflows : Prop} {c : Cursor}

theorem leads_next {target : Option ℕ}
    (hrange : checks = true → ¬ overflows) (htarget : target = some c.pos) :
    Leads checks overflows target .next c :=
  ⟨⟨nofun, fun h => absurd h.2 (hrange h.1)⟩, fun _ => htarget, by simp, by decide⟩

theorem leads_failed {target : Option ℕ} (c : Cursor)
    (hrange : checks = true → ¬ overflows) (htarget : target = none) :
    Leads checks overflows target .failed c :=
  ⟨⟨nofun, fun h => absurd h.2 (hrange h.1)⟩, nofun, fun _ => htarget, by decide⟩

theorem leads_panicked (target : Option ℕ) (c : Cursor)
    (hchecks : checks = true) (hrange : overflows) :
    Leads checks overflows target .panicked c :=
  ⟨⟨fun _ => ⟨hchecks, hrange⟩, fun _ => rfl⟩, nofun, by simp, by decide⟩

variable {pos : ℕ}

/-- It gets where it leads, unless it panics. -/
theorem Leads.of_target {flow : Flow}
    (h : Leads checks overflows (some pos) flow c) (hrange : flow ≠ .panicked) :
    flow = .next ∧ c.pos = pos := by
  have hnext : flow = .next := by
    cases flow with
    | next => rfl
    | done => cases h.stops (Or.inl rfl)
    | failed => cases h.stops (Or.inr rfl)
    | panicked => exact absurd rfl hrange
    | unfinished => exact absurd rfl h.finished
  exact ⟨hnext, (Option.some.inj (h.next hnext)).symm⟩

/-- What the parser computes from the size of the area behind the first timestamp. -/
theorem rest_start (block : Block) (c : Cursor) :
    (Loop.mk c 0 block.startTime []).rest block = block.samplesSize - block.stampWidths.sum.toUInt64 ∧
      (0 + block.stampWidths.sum).toUInt64.toNat = block.stampWidths.sum := by
  refine ⟨by rw [Loop.rest, Nat.zero_add], ?_⟩
  rw [Nat.zero_add, Block.stampWidths]
  split <;> rfl

theorem leads_readSamples (checks : Bool) (file : File) (block : Block) (c : Cursor) :
    Leads checks (AreaOverflows file block c.pos) (areaEnd file block c.pos)
      (readSamples checks file block (file.bytes.length + 1) ⟨c, 0, block.startTime, []⟩).1
      (readSamples checks file block (file.bytes.length + 1) ⟨c, 0, block.startTime, []⟩).2.cursor := by
  unfold AreaOverflows areaEnd
  cases htype : block.type.dataWidths with
  | some widths =>
    have hne : block.type.dataWidths ≠ none := htype ▸ Option.some_ne_none widths
    have hend := loopEnd_area checks file c hne
    generalize readSamples checks file block _ _ = result at hend ⊢
    dsimp only
    cases hend with
    | complete hpos hinside _ htime =>
      rw [if_pos hinside]
      refine leads_next ?_ (congrArg some hpos.symm)
      rintro hchecks ⟨harbitrary, k, hk, -, hlate⟩
      have hle := Nat.mul_le_mul_right block.period.toNat hk
      have hrange := htime hchecks harbitrary
      dsimp only at hrange
      omega
    | @cutOff _ k hk hshort _ _ htime =>
      have hle : (k + 1) * block.stride ≤ block.count * block.stride := Nat.mul_le_mul_right _ hk
      dsimp only at hshort
      rw [if_neg (by omega)]
      refine leads_failed _ ?_ rfl
      rintro hchecks ⟨harbitrary, k', -, hinside, hlate⟩
      have hk' : k' ≤ k := by
        by_contra hlt
        have hle : (k + 1) * block.stride ≤ k' * block.stride :=
          Nat.mul_le_mul_right _ (Nat.not_le.mp hlt)
        omega
      have hle' := Nat.mul_le_mul_right block.period.toNat hk'
      have hrange := htime hchecks harbitrary
      dsimp only at hrange
      omega
    | late hchecks harbitrary hk hinside hlate =>
      exact leads_panicked _ _ hchecks ⟨harbitrary, _, hk, hinside, hlate⟩
  | none =>
    obtain ⟨hrest, hstamp⟩ := rest_start block c
    have hround := round_cases checks file block ⟨c, 0, block.startTime, []⟩
    unfold readSamples
    generalize sampleRound checks file block _ = round at hround ⊢
    dsimp only
    cases hround with
    | full hfull =>
      have hzero : block.samplesSize.toNat = 0 := Nat.le_zero.mp hfull
      rw [if_pos hzero]
      exact leads_next (fun _ h => absurd h.1 (by omega)) rfl
    | sampled _ hdecoded | late _ _ _ hdecoded => exact absurd htype hdecoded
    | cutOff hmore hcut =>
      have hmore : 0 < block.samplesSize.toNat := hmore
      have hstride : block.stride = block.stampWidths.sum := by
        rw [Block.stride, htype]
        rfl
      have hpos := hcut.stride_pos
      have hshort : file.bytes.length < c.pos + block.stride := hcut.length_lt
      rw [if_neg (by omega), if_neg (by omega)]
      exact leads_failed _ (fun _ h => absurd h.2.2 (by omega)) rfl
    | skipped hmore _ hread hroom hseek =>
      have hmore : 0 < block.samplesSize.toNat := hmore
      rw [hrest] at hseek
      rw [if_neg (by omega), if_pos hread]
      refine leads_next (fun hchecks h => ?_) hseek
      have hle := hroom hchecks
      rw [hstamp] at hle
      omega
    | unseekable hmore _ hread hroom hseek =>
      have hmore : 0 < block.samplesSize.toNat := hmore
      rw [hrest] at hseek
      rw [if_neg (by omega), if_pos hread]
      refine leads_failed _ (fun hchecks h => ?_) hseek
      have hle := hroom hchecks
      rw [hstamp] at hle
      omega
    | tooSmall hchecks hmore _ hread hsmall =>
      rw [hstamp] at hsmall
      refine leads_panicked _ _ hchecks ⟨hmore, hsmall, hread.resolve_left ?_⟩
      omega

/-! ## Blocks -/

/-- `data_size - subheader_size - 8 - metadata_size`, where nothing is out of range. -/
theorem samplesSize_of_le (checks : Bool) (dataSize subheaderSize metadataSize : UInt64)
    (h : subheaderSize.toNat + 8 + metadataSize.toNat ≤ dataSize.toNat) :
    samplesSize checks dataSize subheaderSize metadataSize =
        some (dataSize - subheaderSize - 8 - metadataSize) ∧
      (dataSize - subheaderSize - 8 - metadataSize).toNat =
        dataSize.toNat - subheaderSize.toNat - 8 - metadataSize.toNat := by
  have height : (8 : UInt64).toNat = 8 := rfl
  have hfirst : (dataSize - subheaderSize).toNat = dataSize.toNat - subheaderSize.toNat :=
    UInt64.toNat_sub_of_le _ _ (by rw [UInt64.le_iff_toNat_le]; omega)
  have hsecond : (dataSize - subheaderSize - 8).toNat = dataSize.toNat - subheaderSize.toNat - 8 := by
    rw [UInt64.toNat_sub_of_le _ _ (by rw [UInt64.le_iff_toNat_le]; omega), hfirst, height]
  constructor
  · unfold samplesSize
    rw [subU64_of_le (by omega), Option.bind_eq_bind, Option.bind_some, subU64_of_le (by omega),
      Option.bind_some, subU64_of_le (by omega)]
  · rw [UInt64.toNat_sub_of_le _ _ (by rw [UInt64.le_iff_toNat_le]; omega), hsecond]

/-- `data_size - subheader_size - 8 - metadata_size`, whatever the build does about overflow. -/
theorem samplesSize_eq_some {dataSize subheaderSize metadataSize size : UInt64}
    (h : samplesSize checks dataSize subheaderSize metadataSize = some size) :
    size = dataSize - subheaderSize - 8 - metadataSize ∧ (checks = true →
      subheaderSize.toNat + 8 + metadataSize.toNat ≤ dataSize.toNat) := by
  obtain ⟨first, hfirst, h⟩ := bind_eq_some_iff.mp h
  obtain ⟨second, hsecond, h⟩ := bind_eq_some_iff.mp h
  obtain ⟨rfl, hfirst'⟩ := subU64_eq_some hfirst
  obtain ⟨rfl, hsecond'⟩ := subU64_eq_some hsecond
  obtain ⟨rfl, hthird⟩ := subU64_eq_some h
  refine ⟨rfl, fun hchecks => ?_⟩
  have height : (8 : UInt64).toNat = 8 := rfl
  have h₁ := hfirst' hchecks
  have h₂ := hsecond' hchecks
  have h₃ := hthird hchecks
  rw [UInt64.toNat_sub_of_le _ _ (UInt64.le_iff_toNat_le.mpr h₂)] at h₃
  rw [UInt64.toNat_sub_of_le _ _ (UInt64.le_iff_toNat_le.mpr h₁)] at h₂ h₃
  omega

theorem samplesSize_eq_none {dataSize subheaderSize metadataSize : UInt64}
    (h : samplesSize checks dataSize subheaderSize metadataSize = none) :
    checks = true ∧ dataSize.toNat < subheaderSize.toNat + 8 + metadataSize.toNat := by
  constructor
  · cases checks with
    | true => rfl
    | false => simp [samplesSize, subU64] at h
  · by_contra hle
    rw [(samplesSize_of_le checks _ _ _ (Nat.not_lt.mp hle)).1] at h
    cases h

theorem timeWidths_eq_some {blockType : UInt8} (h : timeWidths blockType = some widths) :
    widths = [8] ∨ widths = [8, 8] := by
  unfold timeWidths at h
  split at h
  · exact .inl (Option.some.inj h).symm
  · split at h
    · exact .inr (Option.some.inj h).symm
    · cases h

/-- The header at a position. -/
def headerAt (file : File) (pos : ℕ) : BlockHeader :=
  .ofInts (intsAt file.bytes [1] pos) (intsAt file.bytes [2, 2, 8] (pos + 1))

/-- A header is there. -/
theorem parseBlock_of_le (checks : Bool) (sensors : Sensors) (h : c.pos + 13 ≤ file.bytes.length) :
    ∃ c₁, c₁.pos = c.pos + 13 ∧ c₁.high ≤ max c.high (c.pos + 13) ∧ parseBlock checks file c sensors =
        parseBody checks file (headerAt file c.pos) c₁ sensors := by
  obtain ⟨hkind, hpos⟩ := readInts_of_le file [1] c (by simp; omega)
  have hhigh := high_readInts_le file [1] c
  rcases hread : readInts file [1] c with ⟨kind, c₁⟩
  rw [hread] at hkind hpos hhigh
  dsimp only [sum_cons, sum_nil] at hkind hpos hhigh
  obtain ⟨hfields, hpos'⟩ := readInts_of_le file [2, 2, 8] c₁ (by simp; omega)
  have hhigh' := high_readInts_le file [2, 2, 8] c₁
  rcases hread' : readInts file [2, 2, 8] c₁ with ⟨fields, c₂⟩
  rw [hread'] at hfields hpos' hhigh'
  dsimp only [sum_cons, sum_nil] at hfields hpos' hhigh'
  refine ⟨c₂, by omega, by omega, ?_⟩
  unfold parseBlock
  rw [hread, hkind]
  dsimp only
  rw [hread', hfields, hpos]
  rfl

/-- The file ends before the header does: nothing behind the header is read. -/
theorem parseBlock_of_gt (checks : Bool) (sensors : Sensors) (h : file.bytes.length < c.pos + 13) :
    ((parseBlock checks file c sensors).flow = .done ∨ (parseBlock checks file c sensors).flow = .failed) ∧
      (parseBlock checks file c sensors).cursor.high ≤ max c.high (c.pos + 13) := by
  have hkind := high_readInts_le file [1] c
  unfold parseBlock
  rcases hread : readInts file [1] c with ⟨_ | kind, c₁⟩
  · rw [hread] at hkind
    simp only [sum_cons, sum_nil] at hkind
    exact ⟨.inl rfl, by dsimp only; omega⟩
  · rw [hread] at hkind
    obtain ⟨-, -, hpos⟩ := readInts_eq_some (by decide) hread
    have hfields := high_readInts_le file [2, 2, 8] c₁
    simp only [sum_cons, sum_nil] at hkind hpos hfields
    have hnone : (readInts file [2, 2, 8] c₁).1 = none := by
      refine readInts_of_gt (by decide) ?_
      simp only [sum_cons, sum_nil]
      omega
    dsimp only
    rcases hread' : readInts file [2, 2, 8] c₁ with ⟨_ | fields, c₂⟩
    · rw [hread'] at hfields
      exact ⟨.inr rfl, by dsimp only at hfields ⊢; omega⟩
    · rw [hread'] at hnone
      cases hnone

/-- The numbers in front of the metadata of the block at `pos`. -/
def timesAt (file : File) (pos : ℕ) (widths : List ℕ) : List ℕ :=
  intsAt file.bytes (widths ++ [8]) (pos + 13)

/-- The size of the metadata. -/
def metadataAt (file : File) (pos : ℕ) (widths : List ℕ) : UInt64 :=
  ((timesAt file pos widths).getD widths.length 0).toUInt64

/-- The block of samples that stands there. -/
def blockAt (file : File) (pos : ℕ) (type : SampleType) (widths : List ℕ) : Block :=
  (headerAt file pos).block type (timesAt file pos widths)
    ((headerAt file pos).dataSize - widths.sum.toUInt64 - 8 - metadataAt file pos widths)

/-- Where its sample area begins. -/
def areaStart (file : File) (pos : ℕ) (widths : List ℕ) : Option ℕ :=
  seekFrom (pos + 13 + (widths.sum + 8)) (metadataAt file pos widths)

/-- **What a block of samples can do.** -/
inductive TimedCases (checks : Bool) (file : File) (pos : ℕ) (type : SampleType)
    (widths : List ℕ) (high : ℕ) (sensors : Sensors) : Outcome → Prop
  | short {c : Cursor} (hshort : file.bytes.length < pos + 13 + (widths.sum + 8))
      (hlength : file.bytes.length < c.high) (hhigh : c.high ≤ max high (pos + 13 + (widths.sum + 8))) :
      TimedCases checks file pos type widths high sensors ⟨.failed, c, sensors⟩
  | unseekable {c : Cursor} (hinside : pos + 13 + (widths.sum + 8) ≤ file.bytes.length)
      (hstart : areaStart file pos widths = none) (hreach : pos + 13 + (widths.sum + 8) ≤ c.high)
      (hhigh : c.high ≤ max high (pos + 13 + (widths.sum + 8))) :
      TimedCases checks file pos type widths high sensors ⟨.failed, c, sensors⟩
  | tooSmall {c : Cursor} (hinside : pos + 13 + (widths.sum + 8) ≤ file.bytes.length) {start : ℕ}
      (hstart : areaStart file pos widths = some start) (hchecks : checks = true)
      (hsmall : (headerAt file pos).dataSize.toNat <
        widths.sum + 8 + (metadataAt file pos widths).toNat) :
      TimedCases checks file pos type widths high sensors ⟨.panicked, c, sensors⟩
  | samples {c : Cursor} (hinside : pos + 13 + (widths.sum + 8) ≤ file.bytes.length)
      (hstart : areaStart file pos widths = some c.pos)
      (hroom : checks = true → widths.sum + 8 + (metadataAt file pos widths).toNat ≤
        (headerAt file pos).dataSize.toNat)
      (hhigh : c.high ≤ max high (pos + 13 + (widths.sum + 8))) :
      TimedCases checks file pos type widths high sensors
        (parseSamples checks file (blockAt file pos type widths)
          (headerAt file pos).channelId c sensors)

variable {widths : List ℕ}

theorem timed_cases (checks : Bool) (file : File) (type : SampleType)
    (hwidths : widths = [8] ∨ widths = [8, 8]) (hc : c.pos = pos + 13) (sensors : Sensors) :
    TimedCases checks file pos type widths c.high sensors
      (parseTimed checks file (headerAt file pos) type widths c sensors) := by
  have hne : widths ++ [8] ≠ [] := List.append_ne_nil_of_right_ne_nil _ (by decide)
  have hsum : widths.sum.toUInt64.toNat = widths.sum ∧ (widths ++ [8]).sum = widths.sum + 8 := by
    rcases hwidths with rfl | rfl <;> exact ⟨rfl, rfl⟩
  have hhigh := high_readInts_le file (widths ++ [8]) c
  have hreach := le_high_readInts file hne c
  rw [hsum.2, hc] at hhigh hreach
  unfold parseTimed
  rcases hread : readInts file (widths ++ [8]) c with ⟨_ | times, c₁⟩
  · rw [hread] at hhigh hreach
    have hshort : file.bytes.length < pos + 13 + (widths.sum + 8) := by
      by_contra hle
      have hsome := (readInts_of_le file (widths ++ [8]) c (by omega)).1
      rw [hread] at hsome
      cases hsome
    exact .short hshort (by dsimp only at hreach; omega) hhigh
  · rw [hread] at hhigh hreach
    obtain ⟨hinside, htimes, hpos⟩ := readInts_eq_some hne hread
    rw [hc] at htimes
    rw [hsum.2, hc] at hinside hpos
    dsimp only at hhigh hreach ⊢
    rw [seekCurrent_eq, hpos, show times = timesAt file pos widths from htimes]
    have hfold : areaStart file pos widths = seekFrom (pos + 13 + (widths.sum + 8))
      ((timesAt file pos widths).getD widths.length 0).toUInt64 := rfl
    rw [← hfold]
    cases hstart : areaStart file pos widths with
    | none => exact .unseekable hinside hstart (by omega) hhigh
    | some start =>
      rw [Option.map_some]
      dsimp only
      split
      · rename_i hsize
        obtain ⟨hchecks, hsmall⟩ := samplesSize_eq_none hsize
        rw [hsum.1] at hsmall
        exact .tooSmall hinside hstart hchecks hsmall
      · rename_i size hsize
        obtain ⟨rfl, hroom⟩ := samplesSize_eq_some hsize
        rw [hsum.1] at hroom
        exact .samples (c := { c₁ with pos := start }) hinside hstart hroom hhigh

/-- Behind a block of samples. -/
def timedEnd (file : File) (pos : ℕ) (type : SampleType) (widths : List ℕ) : Option ℕ :=
  if pos + 13 + (widths.sum + 8) ≤ file.bytes.length then
    (areaStart file pos widths).bind (areaEnd file (blockAt file pos type widths))
  else none

/-- The size of the sample area is out of range, or something in it. -/
def TimedOverflows (file : File) (pos : ℕ) (type : SampleType) (widths : List ℕ) : Prop :=
  pos + 13 + (widths.sum + 8) ≤ file.bytes.length ∧ ∃ start, areaStart file pos widths = some start ∧
    ((headerAt file pos).dataSize.toNat < widths.sum + 8 + (metadataAt file pos widths).toNat ∨
      AreaOverflows file (blockAt file pos type widths) start)

theorem leads_parseTimed (checks : Bool) (file : File) (type : SampleType)
    (hwidths : widths = [8] ∨ widths = [8, 8]) (hc : c.pos = pos + 13) (sensors : Sensors) :
    Leads checks (TimedOverflows file pos type widths) (timedEnd file pos type widths)
      (parseTimed checks file (headerAt file pos) type widths c sensors).flow
      (parseTimed checks file (headerAt file pos) type widths c sensors).cursor := by
  have hcases := timed_cases checks file type hwidths hc sensors
  unfold TimedOverflows timedEnd
  generalize parseTimed checks file _ type widths c sensors = outcome at hcases ⊢
  cases hcases with
  | short hshort =>
    exact leads_failed _ (fun _ h => absurd h.1 (by omega)) (if_neg (by omega))
  | unseekable hinside hstart =>
    rw [if_pos hinside, hstart]
    exact leads_failed _ (fun _ ⟨_, start, h, _⟩ => nomatch h) rfl
  | tooSmall hinside hstart hchecks hsmall =>
    exact leads_panicked _ _ hchecks ⟨hinside, _, hstart, Or.inl hsmall⟩
  | @samples c₁ hinside hstart hroom =>
    have hleads := leads_readSamples checks file (blockAt file pos type widths) c₁
    rw [if_pos hinside, hstart, Option.bind_some]
    refine ⟨hleads.panicked.trans (and_congr_right fun hchecks => ?_), hleads.next, hleads.stops,
      hleads.finished⟩
    have hle := hroom hchecks
    constructor
    · exact fun h => ⟨hinside, _, rfl, Or.inr h⟩
    · rintro ⟨-, start, hsame, hsmall | harea⟩
      · omega
      · exact Option.some.inj hsame ▸ harea

/-- **Where the block at `pos` leads**: behind it, or nowhere if the parser returns. -/
def endOf (file : File) (pos : ℕ) : Option ℕ :=
  if pos + 13 ≤ file.bytes.length then
    match SampleType.fromU16 (headerAt file pos).sampleTypeVal, timeWidths (headerAt file pos).blockType with
    | some type, some widths => timedEnd file pos type widths
    | _, _ => seekFrom (pos + 13) (headerAt file pos).dataSize
  else none

/-- Something that the parser computes from the block is out of range. -/
def Overflows (file : File) (pos : ℕ) : Prop :=
  pos + 13 ≤ file.bytes.length ∧ ∃ type widths,
    SampleType.fromU16 (headerAt file pos).sampleTypeVal = some type ∧
      timeWidths (headerAt file pos).blockType = some widths ∧ TimedOverflows file pos type widths

theorem endOf_timed (h : pos + 13 ≤ file.bytes.length) {type : SampleType}
    (htype : SampleType.fromU16 (headerAt file pos).sampleTypeVal = some type)
    (hwidths : timeWidths (headerAt file pos).blockType = some widths) :
    endOf file pos = timedEnd file pos type widths := by
  rw [endOf, if_pos h, htype, hwidths]

theorem endOf_foreign (h : pos + 13 ≤ file.bytes.length)
    (hforeign : SampleType.fromU16 (headerAt file pos).sampleTypeVal = none ∨
      timeWidths (headerAt file pos).blockType = none) :
    endOf file pos = seekFrom (pos + 13) (headerAt file pos).dataSize := by
  rw [endOf, if_pos h]
  rcases hforeign with hnone | hnone <;> rw [hnone]
  cases SampleType.fromU16 (headerAt file pos).sampleTypeVal <;> rfl

/-- A block is skipped, or it is a block of samples. -/
theorem header_cases (header : BlockHeader) :
    (SampleType.fromU16 header.sampleTypeVal = none ∨ timeWidths header.blockType = none) ∨
      ∃ type widths, SampleType.fromU16 header.sampleTypeVal = some type ∧
        timeWidths header.blockType = some widths := by
  cases SampleType.fromU16 header.sampleTypeVal with
  | none => exact Or.inl (Or.inl rfl)
  | some type =>
    cases timeWidths header.blockType with
    | none => exact Or.inl (Or.inr rfl)
    | some widths => exact Or.inr ⟨type, widths, rfl, rfl⟩

/-- **The parser does with a block what its sizes say.** -/
theorem leads_parseBlock (checks : Bool) (file : File) (c : Cursor) (sensors : Sensors) :
    Leads checks (Overflows file c.pos) (endOf file c.pos) (parseBlock checks file c sensors).flow
      (parseBlock checks file c sensors).cursor := by
  by_cases hheader : c.pos + 13 ≤ file.bytes.length
  · obtain ⟨c₁, hpos, -, heq⟩ := parseBlock_of_le checks sensors hheader
    rw [heq]
    rcases header_cases (headerAt file c.pos) with hforeign | ⟨type, widths, htype, hwidths⟩
    · rw [parseBody_of_foreign hforeign, endOf_foreign hheader hforeign, skipBlock, seekCurrent_eq, hpos]
      have hrange : checks = true → ¬ Overflows file c.pos := by
        rintro - ⟨-, type, widths, htype, hwidths, -⟩
        rcases hforeign with hnone | hnone
        · exact absurd (hnone.symm.trans htype) (by simp)
        · exact absurd (hnone.symm.trans hwidths) (by simp)
      cases hseek : seekFrom (c.pos + 13) (headerAt file c.pos).dataSize with
      | none => exact leads_failed _ hrange rfl
      | some target => exact leads_next hrange rfl
    · have hbody : parseBody checks file (headerAt file c.pos) c₁ sensors =
          parseTimed checks file (headerAt file c.pos) type widths c₁ sensors := by
        rw [parseBody, htype, hwidths]
      have hleads := leads_parseTimed checks file type (timeWidths_eq_some hwidths) hpos
        sensors
      rw [hbody, endOf_timed hheader htype hwidths]
      refine ⟨hleads.panicked.trans (and_congr_right fun _ => ?_), hleads.next, hleads.stops,
        hleads.finished⟩
      constructor
      · exact fun h => ⟨hheader, type, widths, htype, hwidths, h⟩
      · rintro ⟨-, type', widths', htype', hwidths', h⟩
        obtain rfl := Option.some.inj (htype.symm.trans htype')
        obtain rfl := Option.some.inj (hwidths.symm.trans hwidths')
        exact h
  · have hnone : endOf file c.pos = none := if_neg hheader
    have hrange : ¬ Overflows file c.pos := fun h => hheader h.1
    rcases (parseBlock_of_gt checks sensors (Nat.not_le.mp hheader)).1 with hflow | hflow
    · rw [hflow]
      exact ⟨⟨nofun, fun h => absurd h.2 hrange⟩, nofun, fun _ => hnone, by decide⟩
    · rw [hflow]
      exact leads_failed _ (fun _ => hrange) hnone

/-! ## The blocks of a file -/

/-- The positions of the headers, as the sizes in the file lead from each to the next. -/
inductive IsHeader (file : File) : ℕ → Prop
  | first {c : Cursor} (h : openFile file = some c) : IsHeader file c.pos
  | next {pos target : ℕ} (h : IsHeader file pos) (hend : endOf file pos = some target) :
      IsHeader file target

variable {sensors : Sensors}

/-- The parser looks for headers only there. -/
theorem Visited.isHeader (h : Visited checks file c sensors) :
    IsHeader file c.pos := by
  induction h with
  | start hopen => exact .first hopen
  | next _ hflow ih => exact .next ih ((leads_parseBlock checks file _ _).next hflow)

/-- If it does not panic, it looks for them everywhere there. -/
theorem IsHeader.visited (h : IsHeader file pos)
    (hrange : ∀ c sensors, Visited checks file c sensors →
      (parseBlock checks file c sensors).flow ≠ .panicked) :
    ∃ c sensors, Visited checks file c sensors ∧ c.pos = pos := by
  induction h with
  | first hopen => exact ⟨_, _, .start hopen, rfl⟩
  | next _ hend ih =>
    obtain ⟨c, sensors, hvisited, rfl⟩ := ih
    have hleads := leads_parseBlock checks file c sensors
    rw [hend] at hleads
    obtain ⟨hnext, hpos⟩ := hleads.of_target (hrange c sensors hvisited)
    exact ⟨_, _, .next hvisited hnext, hpos⟩

/-- Every header is behind the one before. -/
def Advances (checks : Bool) (file : File) : Prop :=
  ∀ c sensors, Visited checks file c sensors →
    (parseBlock checks file c sensors).flow = .next →
      c.pos < (parseBlock checks file c sensors).cursor.pos

/-- The parser returns `Ok` or `Err`. -/
def Returns (checks : Bool) (file : File) : Prop :=
  ∃ fuel result, parse checks file fuel = some result ∧ (result.1 = .done ∨ result.1 = .failed)

theorem parseBlocks_of_next (h : (parseBlock checks file c sensors).flow = .next) :
    parseBlocks checks file (fuel + 1) c sensors =
      parseBlocks checks file fuel (parseBlock checks file c sensors).cursor
        (parseBlock checks file c sensors).sensors := if_pos h

theorem parseBlocks_of_ne_next (h : (parseBlock checks file c sensors).flow ≠ .next) :
    parseBlocks checks file (fuel + 1) c sensors = some ((parseBlock checks file c sensors).flow,
        (parseBlock checks file c sensors).sensors) := if_neg h

/-- The block loop returns once the fuel covers what is left of the file. -/
theorem parseBlocks_ends (h : Advances checks file) (hrange : ∀ c sensors, Visited checks file c sensors →
      (parseBlock checks file c sensors).flow ≠ .panicked)
    {fuel : ℕ} (hvisited : Visited checks file c sensors)
    (hpos : 0 < fuel) (hfuel : file.bytes.length < c.pos + fuel) :
    ∃ result, parseBlocks checks file fuel c sensors = some result ∧
      (result.1 = .done ∨ result.1 = .failed) := by
  induction fuel generalizing c sensors with
  | zero => omega
  | succ fuel ih =>
    by_cases hnext : (parseBlock checks file c sensors).flow = .next
    · rw [parseBlocks_of_next hnext]
      have hmoved := h c sensors hvisited hnext
      have hheader : c.pos + 13 ≤ file.bytes.length := by
        by_contra hgt
        rcases (parseBlock_of_gt checks sensors (Nat.not_le.mp hgt)).1 with hflow | hflow <;>
          rw [hflow] at hnext <;> cases hnext
      exact ih (hvisited.next hnext) (by omega) (by omega)
    · refine ⟨_, parseBlocks_of_ne_next hnext, ?_⟩
      have hleads := leads_parseBlock checks file c sensors
      cases hflow : (parseBlock checks file c sensors).flow with
      | next => exact absurd hflow hnext
      | done => exact Or.inl rfl
      | failed => exact Or.inr rfl
      | panicked => exact absurd hflow (hrange c sensors hvisited)
      | unfinished => exact absurd hflow hleads.finished

/-- More fuel does not change what was returned. -/
theorem parseBlocks_add {fuel : ℕ} {result : Flow × Sensors}
    (h : parseBlocks checks file fuel c sensors = some result) (more : ℕ) :
    parseBlocks checks file (fuel + more) c sensors = some result := by
  induction fuel generalizing c sensors with
  | zero => cases h
  | succ fuel ih =>
    rw [Nat.succ_add]
    by_cases hnext : (parseBlock checks file c sensors).flow = .next
    · rw [parseBlocks_of_next hnext] at h
      exact (parseBlocks_of_next hnext).trans (ih h)
    · rw [parseBlocks_of_ne_next hnext] at h
      exact (parseBlocks_of_ne_next hnext).trans h

/-- What the parser returns is decided at every header that it comes to. -/
theorem Visited.parse_eq (h : Visited checks file c sensors) :
    ∃ rounds, ∀ fuel, parse checks file (rounds + fuel) = parseBlocks checks file fuel c sensors := by
  induction h with
  | start hopen =>
    refine ⟨0, fun fuel => ?_⟩
    rw [Nat.zero_add, parse, hopen]
  | next _ hflow ih =>
    obtain ⟨rounds, hrounds⟩ := ih
    refine ⟨rounds + 1, fun fuel => ?_⟩
    rw [Nat.add_assoc, Nat.add_comm 1 fuel, hrounds, parseBlocks_of_next hflow]

/-- A parser that returns does not panic anywhere. -/
theorem Returns.ne_panicked (h : Returns checks file)
    (hvisited : Visited checks file c sensors) : (parseBlock checks file c sensors).flow ≠ .panicked := by
  intro hflow
  obtain ⟨fuel, result, hparse, hresult⟩ := h
  obtain ⟨rounds, hrounds⟩ := hvisited.parse_eq
  have hpanics : parse checks file (rounds + (fuel + 1)) =
      some (.panicked, (parseBlock checks file c sensors).sensors) := by
    rw [hrounds, parseBlocks_of_ne_next (by rw [hflow]; decide), hflow]
  have hsame : parse checks file (rounds + (fuel + 1)) = some result := by
    rw [show rounds + (fuel + 1) = fuel + (rounds + 1) by omega]
    unfold parse at hparse ⊢
    cases hopen : openFile file with
    | none => rwa [hopen] at hparse
    | some c₀ =>
      rw [hopen] at hparse
      exact parseBlocks_add hparse _
  obtain rfl := Option.some.inj (hpanics.symm.trans hsame)
  rcases hresult with h | h <;> cases h

/-- **When the parser ends**: every header is behind the one before and the parser returns exactly if every
block of the file leads to a place behind its header, or nowhere, and in a build that checks for overflow
nothing in a block is out of range. -/
theorem parse_ends_iff (checks : Bool) (file : File) : Advances checks file ∧ Returns checks file ↔
      ∀ pos, IsHeader file pos → (checks = true → ¬ Overflows file pos) ∧
        ∀ target, endOf file pos = some target → pos < target := by
  constructor
  · rintro ⟨hadvances, hreturns⟩ pos hpos
    obtain ⟨c, sensors, hvisited, rfl⟩ := hpos.visited fun _ _ hvisited => hreturns.ne_panicked hvisited
    have hleads := leads_parseBlock checks file c sensors
    refine ⟨fun hchecks h => hreturns.ne_panicked hvisited (hleads.panicked.mpr ⟨hchecks, h⟩),
      fun target htarget => ?_⟩
    rw [htarget] at hleads
    obtain ⟨hnext, rfl⟩ := hleads.of_target (hreturns.ne_panicked hvisited)
    exact hadvances c sensors hvisited hnext
  · intro h
    have hadvances : Advances checks file := fun c sensors hvisited hflow =>
      (h _ hvisited.isHeader).2 _ ((leads_parseBlock checks file c sensors).next hflow)
    refine ⟨hadvances, file.bytes.length + 1, ?_⟩
    unfold parse
    cases hopen : openFile file with
    | none => exact ⟨_, rfl, Or.inr rfl⟩
    | some c =>
      refine parseBlocks_ends hadvances (fun c sensors hvisited hflow => ?_) (.start hopen) (by omega)
        (by omega)
      obtain ⟨hchecks, hover⟩ := (leads_parseBlock checks file c sensors).panicked.mp hflow
      exact (h _ hvisited.isHeader).1 hchecks hover

/-! ### A size that leads back

The block has a type that is not known, and its size is `2^64 - 13`. -/

def rewinding : File where
  bytes := magic ++ [1, 0, 0, 0] ++
    [0x01] ++ [0xFF, 0xFF] ++ [0, 0] ++ [0xF3, 0xFF, 0xFF, 0xFF, 0xFF, 0xFF, 0xFF, 0xFF]
  length_lt := by decide

theorem openFile_rewinding : openFile rewinding = some ⟨8, 8⟩ := by decide +kernel

/-- Behind the block there is the block again. -/
theorem parseBlock_rewinding (checks : Bool) (sensors : Sensors) (h : c.pos = 8) :
    (parseBlock checks rewinding c sensors).flow = .next ∧
      (parseBlock checks rewinding c sensors).cursor.pos = 8 := by
  have hlength : c.pos + 13 ≤ rewinding.bytes.length := by
    rw [h]
    decide
  obtain ⟨c₁, hpos, -, heq⟩ := parseBlock_of_le checks sensors hlength
  have hheader : headerAt rewinding 8 = ⟨0x01, 0xFFFF, 0, 0xFFFFFFFFFFFFFFF3⟩ := by decide +kernel
  rw [heq, h, hheader]
  have hsize : (0xFFFFFFFFFFFFFFF3 : UInt64).toInt64.toInt = -13 := by decide +kernel
  rw [parseBody_of_foreign (.inl rfl), skipBlock, Cursor.seekCurrent, hsize, hpos, h]
  exact ⟨rfl, rfl⟩

theorem parseBlocks_rewinding (checks : Bool) (fuel : ℕ) (sensors : Sensors)
    (h : c.pos = 8) : parseBlocks checks rewinding fuel c sensors = none := by
  induction fuel generalizing c sensors with
  | zero => rfl
  | succ fuel ih =>
    obtain ⟨hflow, hpos⟩ := parseBlock_rewinding checks sensors h
    rw [parseBlocks_of_next hflow]
    exact ih _ hpos

theorem not_returns_rewinding (checks : Bool) : ¬ Returns checks rewinding := by
  rintro ⟨fuel, result, hparse, -⟩
  rw [parse, openFile_rewinding] at hparse
  dsimp only at hparse
  rw [parseBlocks_rewinding checks fuel [] rfl] at hparse
  cases hparse

/-- **The parser does not end**, in either build: it is back at the same header. -/
theorem not_advances_rewinding :
    ¬ Advances false rewinding ∧ ¬ Returns false rewinding ∧ ¬ Returns true rewinding := by
  refine ⟨fun h => ?_, not_returns_rewinding false, not_returns_rewinding true⟩
  obtain ⟨hflow, hpos⟩ := parseBlock_rewinding false (c := ⟨8, 8⟩) [] rfl
  have hmoved := h ⟨8, 8⟩ [] (.start openFile_rewinding) hflow
  rw [hpos] at hmoved
  exact lt_irrefl _ hmoved

end Virtmcu.CyberBridge
