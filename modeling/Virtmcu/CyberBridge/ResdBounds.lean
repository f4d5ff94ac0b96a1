import Virtmcu.CyberBridge.ResdProgress

/-! # The bounds of a block

A header declares how many bytes its block has. Inside there are further sizes: the times, the metadata and
the samples. The parser computes the size of the sample area from them without a check, and it reads samples
as long as the area is not used up, without looking whether the last one still fits.

The parser keeps to the bounds of the blocks exactly if the sizes in every block agree (`Consistent`,
`parse_inBounds_iff`). A file need not be like that: `tooSmall` declares a block that is too small for its
own times (`not_inBounds_tooSmall`). -/

namespace Virtmcu.CyberBridge

open Option

variable {checks : Bool} {file : File} {block : Block} {l : Loop}

/-! ## Samples -/

/-- A round reads a sample that is decoded, or the file ends before the sample does. -/
theorem round_decoded {round : Round} (h : RoundCases checks file block l round)
    (htype : block.type.dataWidths ≠ none) (hmore : l.bytesRead < block.samplesSize.toNat)
    (htime : block.arbitrary = false → checks = true → l.currentTime.toNat + block.period.toNat < 2 ^ 64) :
    (∃ l', round = .again l' ∧ Sampled file block l l') ∨
      ∃ l', round = .exit .failed l' ∧ CutOff file block l l' := by
  cases h with
  | full hfull => omega
  | sampled _ _ hsampled => exact .inl ⟨_, rfl, hsampled⟩
  | cutOff _ hcut => exact .inr ⟨_, rfl, hcut⟩
  | late hchecks harbitrary _ _ _ hlate => exact absurd (htime harbitrary hchecks) (Nat.not_lt.mpr hlate)
  | skipped _ hnone | unseekable _ hnone | tooSmall _ _ hnone => exact absurd hnone htype

/-- The area has been skipped. -/
structure Skipped (block : Block) (l l' : Loop) : Prop where
  pos : l'.cursor.pos = l.cursor.pos + block.samplesSize.toNat
  high_le : l'.cursor.high ≤ max l.cursor.high (l.cursor.pos + block.samplesSize.toNat)
  samples : l'.samples = l.samples

theorem stamp_le_samplesSize (hmore : 0 < block.samplesSize.toNat)
    (hroom : block.arbitrary = true → block.samplesSize.toNat = 0 ∨ 8 ≤ block.samplesSize.toNat) :
    block.stampWidths.sum ≤ block.samplesSize.toNat := by
  unfold Block.stampWidths
  by_cases harbitrary : block.arbitrary = true
  · rw [if_pos harbitrary, List.sum_singleton]
    exact (hroom harbitrary).resolve_left hmore.ne'
  · rw [if_neg harbitrary]
    exact Nat.zero_le _

/-- Samples that cannot be decoded are skipped, behind the timestamp of the first, or the file ends before
they do. -/
theorem round_foreign {round : Round} (h : RoundCases checks file block l round)
    (htype : block.type.dataWidths = none) (hstart : l.bytesRead = 0)
    (hsize : block.samplesSize.toNat < 2 ^ 63)
    (hroom : block.arbitrary = true → block.samplesSize.toNat = 0 ∨ 8 ≤ block.samplesSize.toNat) :
    (∃ l', round = .exit .next l' ∧ Skipped block l l') ∨ ∃ l', round = .exit .failed l' ∧
        l'.cursor.high ≤ max l.cursor.high (l.cursor.pos + block.samplesSize.toNat) ∧
        file.bytes.length < l.cursor.pos + block.samplesSize.toNat := by
  by_cases hfull : block.samplesSize.toNat = 0
  · cases h with
    | full => exact .inl ⟨l, rfl, by omega, le_max_left _ _, rfl⟩
    | _ => omega
  have hstamp := stamp_le_samplesSize (Nat.pos_of_ne_zero hfull) hroom
  have hstride : block.stride = block.stampWidths.sum := by
    rw [Block.stride, htype]
    rfl
  have hcount : (l.bytesRead + block.stampWidths.sum).toUInt64.toNat = block.stampWidths.sum := by
    rw [hstart, Nat.zero_add]
    exact UInt64.toNat_ofNat_of_lt' ((lt_of_le_of_lt hstamp hsize).trans (by decide))
  have hrest : (l.rest block).toInt64.toInt = block.samplesSize.toNat - block.stampWidths.sum := by
    rw [Loop.rest, toInt_toInt64,
      UInt64.toNat_sub_of_le _ _ (by rw [UInt64.le_iff_toNat_le]; omega), hcount, if_pos (by omega)]
    omega
  have hfile := file.length_lt
  cases h with
  | full h => omega
  | sampled _ hdecoded | late _ _ _ hdecoded => exact absurd htype hdecoded
  | tooSmall _ _ _ _ hsmall => omega
  | cutOff _ hcut =>
    have hhigh := hcut.high_le
    have hshort := hcut.length_lt
    exact Or.inr ⟨_, rfl, by omega, by omega⟩
  | skipped _ _ _ _ hseek hhigh hsamples =>
    have hpos := (seekFrom_eq_some hseek).1
    exact Or.inl ⟨_, rfl, by omega, by omega, hsamples⟩
  | unseekable _ _ _ _ hseek hhigh =>
    have hpos := seekFrom_eq_none hseek
    exact Or.inr ⟨_, rfl, by omega, by omega⟩

/-- The samples fill their area. Those that the parser cannot decode only need to have room for the
timestamp of the first. -/
def Block.AreaFits (block : Block) : Prop :=
  match block.type.dataWidths with
  | none => block.samplesSize.toNat = 0 ∨ block.stampWidths.sum ≤ block.samplesSize.toNat
  | some _ => block.stride ∣ block.samplesSize.toNat

variable (checks : Bool)

/-- **When the loop over the samples stays in the sample area**, if nothing is out of range and it does not
lead elsewhere. -/
theorem high_readSamples_le_iff (file : File) (block : Block) {c : Cursor}
    (hrange : ¬ AreaOverflows file block c.pos) (hend : ∀ target, areaEnd file block c.pos = some target →
      target = c.pos + block.samplesSize.toNat) (hhigh : c.high ≤ c.pos + block.samplesSize.toNat)
    (hfile : c.pos + block.samplesSize.toNat < file.bytes.length) :
    (readSamples checks file block (file.bytes.length + 1)
        ⟨c, 0, block.startTime, []⟩).2.cursor.high ≤ c.pos + block.samplesSize.toNat ↔ block.AreaFits := by
  have hleads := leads_readSamples checks file block c
  unfold Block.AreaFits
  cases htype : block.type.dataWidths with
  | some widths =>
    have hne : block.type.dataWidths ≠ none := htype ▸ Option.some_ne_none widths
    have hstride := four_le_stride hne
    have hloop := loopEnd_area checks file c hne
    generalize readSamples checks file block _ _ = result at hloop hleads ⊢
    dsimp only
    cases hloop with
    | complete hpos _ hhigh' =>
      have hsize := hend _ (hleads.next rfl)
      dsimp only at hsize hpos hhigh'
      refine ⟨fun _ => ⟨block.count, ?_⟩, fun _ => by dsimp only; omega⟩
      rw [Nat.mul_comm]
      omega
    | @cutOff _ k hk hshort _ hlength =>
      refine ⟨fun h => absurd h (by dsimp only; omega), fun ⟨n, hn⟩ => ?_⟩
      have hcount : block.count ≤ n := by
        by_contra hlt
        have hmore := (lt_count_iff (by omega) n).mp (Nat.not_le.mp hlt)
        rw [hn, Nat.mul_comm] at hmore
        omega
      have hle : (k + 1) * block.stride ≤ n * block.stride :=
        Nat.mul_le_mul_right _ (Nat.succ_le_of_lt (hk.trans_le hcount))
      rw [Nat.mul_comm n, ← hn] at hle
      dsimp only at hshort
      omega
    | late hchecks harbitrary hk hinside hlate =>
      exact absurd (hleads.panicked.mp rfl).2 hrange
  | none =>
    have hstamp := (rest_start block c).2
    have hround := round_cases checks file block ⟨c, 0, block.startTime, []⟩
    have hroom (hmore : 0 < block.samplesSize.toNat) (hread : block.stampWidths.sum = 0 ∨
        c.pos + block.stampWidths.sum ≤ file.bytes.length) :
        block.stampWidths.sum ≤ block.samplesSize.toNat := by
      by_contra hlt
      unfold AreaOverflows at hrange
      rw [htype] at hrange
      exact hrange ⟨hmore, Nat.not_le.mp hlt, hread.resolve_left (by omega)⟩
    unfold readSamples at hleads ⊢
    generalize sampleRound checks file block _ = round at hround hleads ⊢
    dsimp only
    cases hround with
    | full hfull => exact ⟨fun _ => Or.inl (Nat.le_zero.mp hfull), fun _ => hhigh⟩
    | sampled _ hdecoded | late _ _ _ hdecoded => exact absurd htype hdecoded
    | cutOff hmore hcut =>
      have hmore : 0 < block.samplesSize.toNat := hmore
      have hshort : file.bytes.length < c.pos + block.stride := hcut.length_lt
      have hlength := hcut.length_lt_high
      have hstride : block.stride = block.stampWidths.sum := by
        rw [Block.stride, htype]
        rfl
      refine ⟨fun h => absurd h (by dsimp only; omega), fun h => ?_⟩
      omega
    | skipped hmore _ hread _ _ hhigh' | unseekable hmore _ hread _ _ hhigh' =>
      have hle := hroom hmore hread
      dsimp only at hhigh'
      exact ⟨fun _ => Or.inr hle, fun _ => by dsimp only; omega⟩
    | tooSmall => exact absurd (hleads.panicked.mp rfl).2 hrange

/-! ## Blocks -/

/-- Where the header at `pos` says that its block ends. -/
def declaredEnd (file : File) (pos : ℕ) : ℕ := pos + 13 + (headerAt file pos).dataSize.toNat

/-- What is asked of the parser at a header: nothing is out of range, so that a build that checks does not
panic; no byte behind the declared end is consumed; and the next header is there. -/
structure InBounds (checks : Bool) (file : File) (c : Cursor) (sensors : Sensors) : Prop where
  inRange : (parseBlock true file c sensors).flow ≠ .panicked
  consumed : min (parseBlock checks file { c with high := 0 } sensors).cursor.high
    file.bytes.length ≤ declaredEnd file c.pos
  next : (parseBlock checks file c sensors).flow = .next →
    (parseBlock checks file c sensors).cursor.pos = declaredEnd file c.pos

/-- The sizes in a block of samples agree: what stands in front of the samples fits into the block, and the
samples do. -/
def Agrees (file : File) (pos : ℕ) (type : SampleType) (widths : List ℕ) : Prop :=
  widths.sum + 8 ≤ (headerAt file pos).dataSize.toNat ∧
    (areaStart file pos widths ≠ none → (blockAt file pos type widths).AreaFits)

/-- The sizes at a header agree: nothing is out of range, they lead to the declared end or nowhere, and if
the file goes on behind that end, the block has room for its samples. -/
structure Consistent (file : File) (pos : ℕ) : Prop where
  inRange : ¬ Overflows file pos
  ends : ∀ target, endOf file pos = some target → target = declaredEnd file pos
  room : declaredEnd file pos < file.bytes.length → ∀ type widths,
    SampleType.fromU16 (headerAt file pos).sampleTypeVal = some type →
      timeWidths (headerAt file pos).blockType = some widths → Agrees file pos type widths

theorem consumed_parseTimed_iff {pos : ℕ} {type : SampleType} {widths : List ℕ}
    (hwidths : widths = [8] ∨ widths = [8, 8]) {c : Cursor} (hc : c.pos = pos + 13)
    (hhigh : c.high ≤ pos + 13) (sensors : Sensors) (hrange : ¬ TimedOverflows file pos type widths)
    (hend : ∀ target, timedEnd file pos type widths = some target → target = declaredEnd file pos) :
    min (parseTimed checks file (headerAt file pos) type widths c sensors).cursor.high
        file.bytes.length ≤ declaredEnd file pos ↔
      (declaredEnd file pos < file.bytes.length → Agrees file pos type widths) := by
  have hcases := timed_cases checks file type hwidths hc sensors
  generalize parseTimed checks file _ type widths c sensors = outcome at hcases ⊢
  unfold Agrees
  unfold declaredEnd at hend ⊢
  cases hcases with
  | short hshort hlength =>
    refine ⟨fun h hlt => absurd h (by dsimp only; omega), fun h => ?_⟩
    by_contra hgt
    have hroom := (h (by omega)).1
    omega
  | unseekable hinside hstart hreach hhigh' =>
    refine ⟨fun h _ => ⟨by dsimp only at h; omega, fun hne => absurd hstart hne⟩, fun h => ?_⟩
    by_cases hlt : pos + 13 + (headerAt file pos).dataSize.toNat < file.bytes.length
    · have hroom := (h hlt).1
      dsimp only
      omega
    · omega
  | tooSmall hinside hstart hchecks hsmall => exact absurd ⟨hinside, _, hstart, Or.inl hsmall⟩ hrange
  | @samples c₁ hinside hstart hroom hhigh' =>
    by_cases hlt : pos + 13 + (headerAt file pos).dataSize.toNat < file.bytes.length
    · have hsum : widths.sum.toUInt64.toNat = widths.sum := by
        rcases hwidths with rfl | rfl <;> rfl
      have hle : widths.sum + 8 + (metadataAt file pos widths).toNat ≤
          (headerAt file pos).dataSize.toNat := by
        by_contra hsmall
        exact hrange ⟨hinside, _, hstart, Or.inl (Nat.not_le.mp hsmall)⟩
      have hsize : (blockAt file pos type widths).samplesSize.toNat = (headerAt file pos).dataSize.toNat -
          widths.sum - 8 - (metadataAt file pos widths).toNat := by
        rw [← hsum]
        exact (samplesSize_of_le true _ _ _ (by omega)).2
      have hpos := (seekFrom_eq_some hstart).1
      have hfile := file.length_lt
      rw [toInt_toInt64, if_pos (by omega)] at hpos
      have hlimit : c₁.pos + (blockAt file pos type widths).samplesSize.toNat =
          pos + 13 + (headerAt file pos).dataSize.toNat := by omega
      have hstays := high_readSamples_le_iff checks file (blockAt file pos type widths)
        (c := c₁) (fun h => hrange ⟨hinside, _, hstart, Or.inr h⟩)
        (fun target htarget => by
          rw [hlimit]
          refine hend target ?_
          rw [timedEnd, if_pos hinside, hstart, Option.bind_some, htarget])
        (by omega) (by omega)
      rw [hlimit] at hstays
      refine ⟨fun h _ => ⟨by omega, fun _ => hstays.mp ?_⟩, fun h => ?_⟩
      · exact (min_le_iff.mp h).resolve_right (Nat.not_le.mpr hlt)
      · exact min_le_of_left_le (hstays.mpr ((h hlt).2 (by simp [hstart])))
    · exact ⟨fun _ h => absurd h hlt, fun _ => (min_le_right _ _).trans (Nat.not_lt.mp hlt)⟩

theorem consumed_parseBlock_iff {c : Cursor}
    (hheader : c.pos + 13 ≤ file.bytes.length) (sensors : Sensors) (hrange : ¬ Overflows file c.pos)
    (hend : ∀ target, endOf file c.pos = some target → target = declaredEnd file c.pos) :
    min (parseBlock checks file { c with high := 0 } sensors).cursor.high
        file.bytes.length ≤ declaredEnd file c.pos ↔
      (declaredEnd file c.pos < file.bytes.length → ∀ type widths,
        SampleType.fromU16 (headerAt file c.pos).sampleTypeVal = some type →
          timeWidths (headerAt file c.pos).blockType = some widths → Agrees file c.pos type widths) := by
  obtain ⟨c₁, hpos, hhigh, heq⟩ :=
    parseBlock_of_le (c := { c with high := 0 }) checks sensors hheader
  dsimp only at hpos hhigh heq
  rw [heq]
  rcases header_cases (headerAt file c.pos) with hforeign | ⟨type, widths, htype, hwidths⟩
  · constructor
    · intro _ _ type widths htype hwidths
      rcases hforeign with hnone | hnone
      · exact absurd (hnone.symm.trans htype) (by simp)
      · exact absurd (hnone.symm.trans hwidths) (by simp)
    · -- nothing but the header is read
      intro _
      refine min_le_of_left_le ?_
      rw [parseBody_of_foreign hforeign, skipBlock, seekCurrent_eq]
      unfold declaredEnd
      cases seekFrom c₁.pos (headerAt file c.pos).dataSize <;> dsimp only [Option.map] <;> omega
  · have hbody : parseBody checks file (headerAt file c.pos) c₁ sensors =
        parseTimed checks file (headerAt file c.pos) type widths c₁ sensors := by
      rw [parseBody, htype, hwidths]
    rw [hbody, consumed_parseTimed_iff checks (timeWidths_eq_some hwidths) hpos (by omega) sensors
      (fun h => hrange ⟨hheader, type, widths, htype, hwidths, h⟩)
      (fun target h => hend target (by rw [endOf_timed hheader htype hwidths, h]))]
    refine ⟨fun h hlt type' widths' htype' hwidths' => ?_, fun h hlt => h hlt type widths htype hwidths⟩
    obtain rfl := Option.some.inj (htype.symm.trans htype')
    obtain rfl := Option.some.inj (hwidths.symm.trans hwidths')
    exact h hlt

/-- **When the parser keeps to the bounds of a block.** -/
theorem inBounds_iff (file : File) (c : Cursor) (sensors : Sensors) :
    InBounds checks file c sensors ↔ (c.pos + 13 ≤ file.bytes.length → Consistent file c.pos) := by
  have hleads := leads_parseBlock checks file c sensors
  have hchecked := leads_parseBlock true file c sensors
  by_cases hheader : c.pos + 13 ≤ file.bytes.length
  · have hconsumed (hrange : ¬ Overflows file c.pos)
        (hend : ∀ target, endOf file c.pos = some target → target = declaredEnd file c.pos) :=
      consumed_parseBlock_iff checks hheader sensors hrange hend
    constructor
    · rintro ⟨hinRange, hbytes, hnext⟩ -
      have hrange : ¬ Overflows file c.pos := fun h => hinRange (hchecked.panicked.mpr ⟨rfl, h⟩)
      have hend : ∀ target, endOf file c.pos = some target → target = declaredEnd file c.pos := by
        intro target htarget
        rw [htarget] at hleads
        obtain ⟨hflow, rfl⟩ := hleads.of_target fun h => hrange (hleads.panicked.mp h).2
        exact hnext hflow
      exact ⟨hrange, hend, (hconsumed hrange hend).mp hbytes⟩
    · intro h
      obtain ⟨hrange, hend, hroom⟩ := h hheader
      exact ⟨fun hflow => hrange (hchecked.panicked.mp hflow).2, (hconsumed hrange hend).mpr hroom,
        fun hflow => hend _ (hleads.next hflow)⟩
  · -- there is no header
    refine ⟨fun _ h => absurd h hheader, fun _ => ⟨fun hflow => ?_, ?_, fun hflow => ?_⟩⟩
    · exact hheader (hchecked.panicked.mp hflow).2.1
    · refine (min_le_right _ _).trans ?_
      unfold declaredEnd
      omega
    · have hnone : endOf file c.pos = none := if_neg hheader
      exact absurd (hnone.symm.trans (hleads.next hflow)) (by simp)

/-- The parser keeps to the bounds of every block that it comes to. -/
def StaysInBounds (checks : Bool) (file : File) : Prop :=
  ∀ c sensors, Visited checks file c sensors → InBounds checks file c sensors

/-- **When the parser keeps to the bounds of the blocks**: exactly if the sizes in every block of the file
agree. -/
theorem parse_inBounds_iff (checks : Bool) (file : File) : StaysInBounds checks file ↔
      ∀ pos, IsHeader file pos → pos + 13 ≤ file.bytes.length → Consistent file pos := by
  constructor
  · intro h pos hpos
    have hrange : ∀ c sensors, Visited checks file c sensors →
        (parseBlock checks file c sensors).flow ≠ .panicked := by
      intro c sensors hvisited hflow
      obtain ⟨rfl, -⟩ := (leads_parseBlock checks file c sensors).panicked.mp hflow
      exact (h c sensors hvisited).inRange hflow
    obtain ⟨c, sensors, hvisited, rfl⟩ := hpos.visited hrange
    exact (inBounds_iff checks file c sensors).mp (h c sensors hvisited)
  · exact fun h c sensors hvisited =>
      (inBounds_iff checks file c sensors).mpr (h c.pos hvisited.isHeader)

/-- Temperatures with timestamps in a block of size 0. -/
def tooSmall : File where
  bytes := magic ++ [1, 0, 0, 0] ++
    [0x01] ++ [1, 0] ++ [0, 0] ++ [0, 0, 0, 0, 0, 0, 0, 0] ++
    [0, 0, 0, 0, 0, 0, 0, 0] ++ [0, 0, 0, 0, 0, 0, 0, 0] ++
    [5, 0, 0, 0, 0, 0, 0, 0] ++ [21, 0, 0, 0]
  length_lt := by decide

/-- **The size of the sample area is `0 - 8 - 8`**: a build that checks for overflow panics, and one that
does not reads on behind the block. -/
theorem not_inBounds_tooSmall : ¬ StaysInBounds true tooSmall ∧ ¬ StaysInBounds false tooSmall := by
  have hstart : openFile tooSmall = some ⟨8, 8⟩ := by decide +kernel
  constructor
  · intro h
    exact (h _ _ (.start hstart)).inRange (by decide +kernel)
  · intro h
    exact absurd (h _ _ (.start hstart)).consumed (by decide +kernel)

end Virtmcu.CyberBridge
