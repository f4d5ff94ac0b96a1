import Mathlib.Algebra.GroupWithZero.Nat
import Virtmcu.DeterministicCoordinator.Wire

/-! # The batch codec

`decode_batch` reads an announced number of records one behind the other. This module says what a
complete record is (`IsRecord`) without the reader, and what one round of the reader does with any
bytes at all (`decodeRecord_cases`). From these two follow:

* `decodeBatch_encodeMessage`: a well-formed batch is read back, whatever stands behind it;
* `decodeBatch_maximal`: any other bytes yield their longest run of complete records;
* `decodeBatch_cost_iff`: how often the loop runs and how much payload storage it asks for. -/

namespace Virtmcu.DeterministicCoordinator

open List

/-! ## Reads and the bytes they take

A read takes its bytes from the front or, when there are too few, takes what is left: the bytes behind
the cursor are dropped in both cases. -/

theorem readExact_append {len : Nat} {bytes : List UInt8} (hlen : bytes.length = len)
    (rest : List UInt8) : readExact len (bytes ++ rest) = (some bytes, rest) := by
  subst hlen
  simp [readExact]

variable {rest : List UInt8}

theorem readExact_short {len : Nat} (h : rest.length < len) : readExact len rest = (none, []) := by
  rw [readExact, if_neg (Nat.not_le.mpr h)]

theorem readU8_append (value : UInt8) (rest : List UInt8) :
    readU8 (value :: rest) = (some value, rest) := by
  have hread : readExact 1 (value :: rest) = (some [value], rest) :=
    readExact_append (rfl : [value].length = 1) rest
  rw [readU8, hread]
  simp [leNat]

theorem readU32_append (value : UInt32) (rest : List UInt8) :
    readU32 (leBytes 4 value.toNat ++ rest) = (some value, rest) := by
  rw [readU32, readExact_append (length_leBytes _ _)]
  simp [toUInt32_leNat_leBytes]

theorem readU64_append (value : UInt64) (rest : List UInt8) :
    readU64 (leBytes 8 value.toNat ++ rest) = (some value, rest) := by
  rw [readU64, readExact_append (length_leBytes _ _)]
  simp [toUInt64_leNat_leBytes]

theorem readExact_snd (len : Nat) (rest : List UInt8) : (readExact len rest).2 = rest.drop len := by
  unfold readExact
  split
  · rfl
  · next h => exact (drop_eq_nil_of_le (Nat.le_of_not_le h)).symm

theorem readU8_snd (rest : List UInt8) : (readU8 rest).2 = rest.drop 1 :=
  readExact_snd 1 rest

theorem readU32_snd (rest : List UInt8) : (readU32 rest).2 = rest.drop 4 :=
  readExact_snd 4 rest

theorem readU64_snd (rest : List UInt8) : (readU64 rest).2 = rest.drop 8 :=
  readExact_snd 8 rest

theorem readU32_short (h : rest.length < 4) : readU32 rest = (none, []) := by
  rw [readU32, readExact_short h]
  rfl

/-- Enough bytes for a `u32` are a `u32` and what follows. -/
theorem exists_u32_append (h : 4 ≤ rest.length) :
    ∃ value : UInt32, rest = leBytes 4 value.toNat ++ rest.drop 4 := by
  obtain ⟨value, hlt, hrest⟩ := exists_leBytes_append h
  have hnat : value.toUInt32.toNat = value := UInt32.toNat_ofNat_of_lt' hlt
  exact ⟨value.toUInt32, by rwa [hnat]⟩

/-- Enough bytes for a `u64` are a `u64` and what follows. -/
theorem exists_u64_append (h : 8 ≤ rest.length) :
    ∃ value : UInt64, rest = leBytes 8 value.toNat ++ rest.drop 8 := by
  obtain ⟨value, hlt, hrest⟩ := exists_leBytes_append h
  have hnat : value.toUInt64.toNat = value := UInt64.toNat_ofNat_of_lt' hlt
  exact ⟨value.toUInt64, by rwa [hnat]⟩

/-! ## The header of a record -/

/-- The six fields in front of a record's payload. -/
structure RecordHeader where
  src : UInt32
  dst : UInt32
  vtime : UInt64
  seq : UInt64
  proto : UInt8
  len : UInt32
  deriving DecidableEq, Repr

namespace RecordHeader

/-- The 29 bytes of a header. -/
def bytes (h : RecordHeader) : List UInt8 :=
  leBytes 4 h.src.toNat ++ leBytes 4 h.dst.toNat ++ leBytes 8 h.vtime.toNat ++
    leBytes 8 h.seq.toNat ++ [h.proto] ++ leBytes 4 h.len.toNat

/-- The message of a header and its payload. -/
def message (h : RecordHeader) (data : List UInt8) : CoordMessage :=
  ⟨h.src, h.dst, h.vtime, h.seq, parseProtocol h.proto, data, none⟩

/-- 29 bytes are a header. -/
theorem exists_bytes_append (hlen : 29 ≤ rest.length) :
    ∃ h : RecordHeader, rest = h.bytes ++ rest.drop 29 := by
  -- field after field, from the front
  obtain ⟨src, hsrc⟩ := exists_u32_append (show 4 ≤ rest.length by omega)
  obtain ⟨dst, hdst⟩ := exists_u32_append (show 4 ≤ (rest.drop 4).length by simp; omega)
  obtain ⟨vtime, hvtime⟩ := exists_u64_append (show 8 ≤ (rest.drop 8).length by simp; omega)
  obtain ⟨seq, hseq⟩ := exists_u64_append (show 8 ≤ (rest.drop 16).length by simp; omega)
  have hproto : rest.drop 24 = rest.get ⟨24, by omega⟩ :: rest.drop 25 :=
    drop_eq_getElem_cons (by omega)
  obtain ⟨len, hlen'⟩ := exists_u32_append (show 4 ≤ (rest.drop 25).length by simp; omega)
  refine ⟨⟨src, dst, vtime, seq, rest.get ⟨24, by omega⟩, len⟩, ?_⟩
  simp only [drop_drop, Nat.reduceAdd] at hdst hvtime hseq hlen'
  calc rest = leBytes 4 src.toNat ++ (leBytes 4 dst.toNat ++ (leBytes 8 vtime.toNat ++
        (leBytes 8 seq.toNat ++ (rest.get ⟨24, by omega⟩ ::
          (leBytes 4 len.toNat ++ rest.drop 29))))) := by
        rw [← hlen', ← hproto, ← hseq, ← hvtime, ← hdst, ← hsrc]
    _ = _ := by
        simp only [bytes, append_assoc, cons_append, nil_append]

end RecordHeader

/-- 29 bytes are a header, and fewer are none. -/
theorem header_cases (rest : List UInt8) :
    (∃ (h : RecordHeader) (rest' : List UInt8), rest = h.bytes ++ rest') ∨ rest.length < 29 := by
  rcases Nat.lt_or_ge rest.length 29 with hlt | hge
  · exact .inr hlt
  · obtain ⟨h, hrest⟩ := RecordHeader.exists_bytes_append hge
    exact .inl ⟨h, _, hrest⟩

/-! ## One round of the reader -/

/-- Behind a header the announced payload is read. -/
theorem decodeRecord_append (h : RecordHeader) (rest : List UInt8) : decodeRecord (h.bytes ++ rest) =
      ((readExact h.len.toNat rest).1.map h.message, (readExact h.len.toNat rest).2) := by
  simp only [decodeRecord, RecordHeader.bytes, append_assoc, cons_append,
    nil_append, readU32_append, readU64_append, readU8_append]
  rfl

/-- Without a whole header the round fails and nothing is left to read. -/
theorem decodeRecord_short (h : rest.length < 29) : decodeRecord rest = (none, []) := by
  -- whatever the first five reads find, the sixth finds fewer than four bytes
  have hlast : readU32 (rest.drop 25) = (none, []) :=
    readU32_short (by rw [length_drop]; omega)
  simp only [decodeRecord, readU32_snd, readU64_snd, readU8_snd, drop_drop, Nat.reduceAdd, hlast]
  split
  · next hlen => cases hlen
  · rfl

/-- `bytes` is a complete record of the message `m`: a header and the payload it announces. -/
def IsRecord (bytes : List UInt8) (m : CoordMessage) : Prop :=
  ∃ (h : RecordHeader) (data : List UInt8),
    data.length = h.len.toNat ∧ m = h.message data ∧ bytes = h.bytes ++ data

/-- A complete record at the front is read, up to its end. -/
theorem decodeRecord_of_isRecord {bytes : List UInt8} {m : CoordMessage} (hrec : IsRecord bytes m)
    (rest : List UInt8) : decodeRecord (bytes ++ rest) = (some m, rest) := by
  obtain ⟨h, data, hdata, rfl, rfl⟩ := hrec
  rw [append_assoc, decodeRecord_append, readExact_append hdata]
  rfl

/-- **What a round does with any bytes.** It takes a complete record from the front, or it yields
nothing and leaves nothing: there is no third case in which it would go on inside a payload. -/
theorem decodeRecord_cases (rest : List UInt8) :
    (∃ (bytes : List UInt8) (m : CoordMessage) (rest' : List UInt8),
      rest = bytes ++ rest' ∧ IsRecord bytes m ∧ decodeRecord rest = (some m, rest')) ∨
    decodeRecord rest = (none, []) := by
  rcases header_cases rest with ⟨h, rest, rfl⟩ | hshort
  · rcases Nat.lt_or_ge rest.length h.len.toNat with hlt | hge
    · right
      rw [decodeRecord_append, readExact_short hlt]
      rfl
    · left
      have hrec : IsRecord (h.bytes ++ rest.take h.len.toNat) (h.message (rest.take h.len.toNat)) :=
        ⟨h, rest.take h.len.toNat, length_take_of_le hge, rfl, rfl⟩
      have hsplit : h.bytes ++ rest =
          (h.bytes ++ rest.take h.len.toNat) ++ rest.drop h.len.toNat := by
        rw [append_assoc, take_append_drop]
      refine ⟨_, _, _, hsplit, hrec, ?_⟩
      rw [hsplit, decodeRecord_of_isRecord hrec]
  · exact .inr (decodeRecord_short hshort)

/-- When the bytes have run out, the remaining rounds yield nothing. -/
theorem decodeRecords_nil (numMsgs : Nat) : decodeRecords numMsgs [] = [] := by
  induction numMsgs with
  | zero => rfl
  | succ numMsgs ih =>
    have hround : decodeRecord [] = (none, []) := decodeRecord_short (by simp)
    simp only [decodeRecords, hround, ih]
    rfl

/-- The count in front of a batch is read, and then that many rounds are made. -/
theorem decodeBatch_append (count : UInt32) (rest : List UInt8) :
    decodeBatch (leBytes 4 count.toNat ++ rest) = decodeRecords count.toNat rest := by
  simp only [decodeBatch, readU32_append]

theorem decodeBatch_short {payload : List UInt8} (h : payload.length < 4) : decodeBatch payload = [] := by
  simp only [decodeBatch, readU32_short h]

/-! ## Well-formed batches -/

/-- The two protocol tables are inverse, but for `Control`. -/
theorem parseProtocol_serializeProtocol {p : Protocol} (h : p ≠ .control) :
    parseProtocol (serializeProtocol p) = p := by
  cases p with
  | control => exact absurd rfl h
  | _ => rfl

/-- What `encode_message` writes is a record of its message. -/
theorem isRecord_encodeMessage {m : CoordMessage} (hpayload : m.payload.length < 2 ^ 32)
    (hbase : m.baseTopic = none) (hprotocol : m.protocol ≠ .control) : IsRecord (encodeMessage m) m := by
  have hlen : m.payload.length.toUInt32.toNat = m.payload.length :=
    UInt32.toNat_ofNat_of_lt' hpayload
  refine ⟨⟨m.srcNodeId, m.dstNodeId, m.deliveryVtimeNs, m.sequenceNumber,
    serializeProtocol m.protocol, m.payload.length.toUInt32⟩, m.payload, hlen.symm, ?_, ?_⟩
  · simp only [RecordHeader.message, parseProtocol_serializeProtocol hprotocol, ← hbase]
  · simp only [encodeMessage, RecordHeader.bytes, hlen]

/-- Records one behind the other are read in order, one a round. -/
theorem decodeRecords_flatMap {encode : CoordMessage → List UInt8} {msgs : List CoordMessage}
    (hrec : ∀ m ∈ msgs, IsRecord (encode m) m) (trailing : List UInt8) :
    decodeRecords msgs.length (msgs.flatMap encode ++ trailing) = msgs := by
  induction msgs with
  | nil => rfl
  | cons m msgs ih =>
    have hm : IsRecord (encode m) m := hrec m mem_cons_self
    have hmsgs : ∀ m' ∈ msgs, IsRecord (encode m') m' := fun m' h =>
      hrec m' (mem_cons_of_mem m h)
    rw [flatMap_cons, append_assoc, length_cons, decodeRecords, decodeRecord_of_isRecord hm]
    simp only [Option.toList_some, ih hmsgs, singleton_append]

/-- **A batch is read back.** The count and the encodings of that many messages decode to these
messages in their order, whatever bytes follow. -/
theorem decodeBatch_encodeMessage (msgs : List CoordMessage) (count : UInt32)
    (trailing : List UInt8) (hcount : count.toNat = msgs.length)
    (hpayload : ∀ m ∈ msgs, m.payload.length < 2 ^ 32) (hbase : ∀ m ∈ msgs, m.baseTopic = none)
    (hprotocol : ∀ m ∈ msgs, m.protocol ≠ .control) :
    decodeBatch (leBytes 4 count.toNat ++ msgs.flatMap encodeMessage ++ trailing) = msgs := by
  have hrec : ∀ m ∈ msgs, IsRecord (encodeMessage m) m := fun m hm =>
    isRecord_encodeMessage (hpayload m hm) (hbase m hm) (hprotocol m hm)
  rw [List.append_assoc, decodeBatch_append, hcount, decodeRecords_flatMap hrec]

/-- Two messages, the second without payload, and a byte behind them. -/
theorem decodeBatch_encodeMessage_two : decodeBatch (leBytes 4 (2 : UInt32).toNat ++
        [(⟨1, 2, 10, 0, .uart, [7, 8], none⟩ : CoordMessage), ⟨2, 1, 11, 5, .rfHci, [], none⟩].flatMap
          encodeMessage ++ [255]) =
      [⟨1, 2, 10, 0, .uart, [7, 8], none⟩, ⟨2, 1, 11, 5, .rfHci, [], none⟩] :=
  decodeBatch_encodeMessage _ 2 [255] rfl (by decide) (by decide) (by decide)

/-! ## Damaged batches -/

/-- The rounds take complete records from the front, in order and without gaps, until as many are read
as were announced or what is left does not start with a complete record. -/
theorem decodeRecords_maximal (numMsgs : Nat) (rest : List UInt8) :
    ∃ (records : List (List UInt8)) (left : List UInt8), rest = records.flatten ++ left ∧
      List.Forall₂ IsRecord records (decodeRecords numMsgs rest) ∧ records.length ≤ numMsgs ∧
      (records.length < numMsgs → ∀ bytes m rest', IsRecord bytes m → left ≠ bytes ++ rest') := by
  induction numMsgs generalizing rest with
  | zero => exact ⟨[], rest, rfl, .nil, Nat.le_refl 0, fun h => absurd h (Nat.lt_irrefl 0)⟩
  | succ numMsgs ih =>
    rcases decodeRecord_cases rest with ⟨bytes, m, rest', hrest, hrec, hround⟩ | hround
    · obtain ⟨records, left, hsplit, hmatch, hle, hend⟩ := ih rest'
      refine ⟨bytes :: records, left, ?_, ?_, ?_, ?_⟩
      · rw [flatten_cons, append_assoc, ← hsplit, hrest]
      · simp only [decodeRecords, hround, Option.toList_some, singleton_append]
        exact .cons hrec hmatch
      · rw [length_cons]
        omega
      · intro hlt
        exact hend (by rw [length_cons] at hlt; omega)
    · -- the failed round has used up the bytes, so no later round finds a record in them
      refine ⟨[], rest, rfl, ?_, Nat.zero_le _, ?_⟩
      · simp only [decodeRecords, hround, decodeRecords_nil]
        exact .nil
      · intro _ bytes m rest' hrec hrest
        rw [hrest, decodeRecord_of_isRecord hrec] at hround
        cases hround

/-- **Damaged batches yield no forged message.** Without a whole count nothing is returned. Behind the
count the returned messages are those of complete records that stand one directly behind the other,
starting at the first byte; there are no more of them than announced, and when there are fewer, what
follows the last one does not start with a complete record. -/
theorem decodeBatch_maximal (payload : List UInt8) : (payload.length < 4 ∧ decodeBatch payload = []) ∨
    ∃ (count : UInt32) (records : List (List UInt8)) (left : List UInt8),
      payload = leBytes 4 count.toNat ++ records.flatten ++ left ∧
      List.Forall₂ IsRecord records (decodeBatch payload) ∧ records.length ≤ count.toNat ∧
      (records.length < count.toNat → ∀ bytes m rest, IsRecord bytes m → left ≠ bytes ++ rest) := by
  rcases Nat.lt_or_ge payload.length 4 with hlt | hge
  · exact Or.inl ⟨hlt, decodeBatch_short hlt⟩
  · obtain ⟨count, hpayload⟩ := exists_u32_append hge
    obtain ⟨records, left, hsplit, hmatch, hle, hend⟩ :=
      decodeRecords_maximal count.toNat (payload.drop 4)
    refine Or.inr ⟨count, records, left, ?_, ?_, hle, hend⟩
    · rw [List.append_assoc, ← hsplit]
      exact hpayload
    · rw [hpayload, decodeBatch_append]
      exact hmatch

/-! ## What decoding costs -/

/-- The header reads of a round: the length decides how large a buffer is allocated. -/
def readHeader : CursorRead RecordHeader := fun rest =>
  let (src, rest) := readU32 rest
  let (dst, rest) := readU32 rest
  let (vtime, rest) := readU64 rest
  let (seq, rest) := readU64 rest
  let (proto, rest) := readU8 rest
  let (len, rest) := readU32 rest
  match src, dst, vtime, seq, proto, len with
  | some src, some dst, some vtime, some seq, some proto, some len =>
      (some ⟨src, dst, vtime, seq, proto, len⟩, rest)
  | _, _, _, _, _, _ => (none, rest)

theorem readHeader_append (h : RecordHeader) (rest : List UInt8) :
    readHeader (h.bytes ++ rest) = (some h, rest) := by
  simp only [readHeader, RecordHeader.bytes, append_assoc, cons_append, nil_append,
    readU32_append, readU64_append, readU8_append]

theorem readHeader_short (h : rest.length < 29) : readHeader rest = (none, []) := by
  have hlast : readU32 (rest.drop 25) = (none, []) :=
    readU32_short (by rw [length_drop]; omega)
  simp only [readHeader, readU32_snd, readU64_snd, readU8_snd, drop_drop, Nat.reduceAdd, hlast]
  split
  · next hlen => cases hlen
  · rfl

/-- The bytes of `vec![0u8; len as usize]` in a round: allocated once the header is read, before it is
known whether the payload is there. -/
def payloadAllocation (rest : List UInt8) : Nat :=
  match (readHeader rest).1 with
  | some h => h.len.toNat
  | none => 0

theorem payloadAllocation_append (h : RecordHeader) (rest : List UInt8) :
    payloadAllocation (h.bytes ++ rest) = h.len.toNat := by
  delta payloadAllocation
  rw [readHeader_append]

theorem payloadAllocation_short (h : rest.length < 29) : payloadAllocation rest = 0 := by
  delta payloadAllocation
  rw [readHeader_short h]

/-- What a call of `decode_batch` has used. -/
structure DecodeCost where
  iterations : Nat
  payloadBytes : Nat
  deriving DecidableEq, Repr

/-- The loop of `decode_batch` with its costs counted along. -/
def decodeRecordsCost : (numMsgs : Nat) → List UInt8 → List CoordMessage × DecodeCost
  | 0, _ => ([], ⟨0, 0⟩)
  | numMsgs + 1, rest =>
      let (msg, rest') := decodeRecord rest
      let (msgs, cost) := decodeRecordsCost numMsgs rest'
      (msg.toList ++ msgs, ⟨cost.iterations + 1, payloadAllocation rest + cost.payloadBytes⟩)

/-- `decode_batch` with its costs counted along. -/
def decodeBatchCost (payload : List UInt8) : List CoordMessage × DecodeCost :=
  match readU32 payload with
  | (some numMsgs, rest) => decodeRecordsCost numMsgs.toNat rest
  | (none, _) => ([], ⟨0, 0⟩)

/-- Counting does not change what is decoded. -/
theorem decodeRecordsCost_fst (numMsgs : Nat) (rest : List UInt8) :
    (decodeRecordsCost numMsgs rest).1 = decodeRecords numMsgs rest := by
  induction numMsgs generalizing rest with
  | zero => rfl
  | succ numMsgs ih => simp only [decodeRecordsCost, decodeRecords, ih]

theorem decodeBatchCost_fst (payload : List UInt8) : (decodeBatchCost payload).1 = decodeBatch payload := by
  rcases hread : readU32 payload with ⟨_ | numMsgs, rest⟩
  · simp only [decodeBatchCost, decodeBatch, hread]
  · simp only [decodeBatchCost, decodeBatch, hread, decodeRecordsCost_fst]

/-- The loop makes all announced rounds. -/
theorem decodeRecordsCost_iterations (numMsgs : Nat) (rest : List UInt8) :
    (decodeRecordsCost numMsgs rest).2.iterations = numMsgs := by
  induction numMsgs generalizing rest with
  | zero => rfl
  | succ numMsgs ih => simp only [decodeRecordsCost, ih]

theorem decodeBatchCost_append (count : UInt32) (rest : List UInt8) :
    decodeBatchCost (leBytes 4 count.toNat ++ rest) = decodeRecordsCost count.toNat rest := by
  simp only [decodeBatchCost, readU32_append]

/-! ## What the bytes announce -/

/-- A header is read in one way only. -/
theorem RecordHeader.bytes_append_inj {h h' : RecordHeader} {rest rest' : List UInt8}
    (heq : h.bytes ++ rest = h'.bytes ++ rest') : h = h' ∧ rest = rest' := by
  have hread := congrArg readHeader heq
  rw [readHeader_append, readHeader_append, Prod.mk.injEq, Option.some.injEq] at hread
  exact hread

/-- The first incomplete record, if there is one among the first `count`, and the records before it announce
at most `bound` bytes. A record is a header and the payload that it announces. -/
def Announces (bound count : Nat) (rest : List UInt8) : Prop :=
  ∀ (records : List (RecordHeader × List UInt8)) (h : RecordHeader) (tail : List UInt8),
    records.length < count → (∀ r ∈ records, r.2.length = r.1.len.toNat) →
    rest = (records.flatMap fun r => r.1.bytes ++ r.2) ++ (h.bytes ++ tail) → tail.length < h.len.toNat →
    (records.map fun r => r.2.length).sum + h.len.toNat ≤ bound

variable {bound count : Nat} {h : RecordHeader} {rest data tail : List UInt8}

theorem announces_short (hshort : rest.length < 29) : Announces bound count rest := by
  rintro records h tail - - rfl -
  simp only [List.length_append, RecordHeader.bytes, length_leBytes, List.length_singleton] at hshort
  omega

theorem announces_incomplete (htail : tail.length < h.len.toNat) :
    Announces bound (count + 1) (h.bytes ++ tail) ↔ h.len.toNat ≤ bound := by
  constructor
  · intro hall
    simpa using hall [] h tail (Nat.succ_pos _) (by simp) rfl htail
  · rintro hle (_ | ⟨r, records⟩) h' tail' - hcomplete hrest -
    · obtain ⟨rfl, -⟩ := RecordHeader.bytes_append_inj hrest
      simpa using hle
    · -- the first header announces what is not there
      rw [List.flatMap_cons, List.append_assoc, List.append_assoc] at hrest
      obtain ⟨rfl, rfl⟩ := RecordHeader.bytes_append_inj hrest
      have hdata := hcomplete r List.mem_cons_self
      rw [List.length_append] at htail
      omega

theorem announces_complete (hdata : data.length = h.len.toNat) (hle : h.len.toNat ≤ bound) :
    Announces bound (count + 1) (h.bytes ++ (data ++ rest)) ↔
      Announces (bound - h.len.toNat) count rest := by
  constructor
  · intro hall records h' tail hcount hcomplete hrest htail
    have hsum := hall ((h, data) :: records) h' tail (Nat.succ_lt_succ hcount)
      (List.forall_mem_cons.mpr ⟨hdata, hcomplete⟩) (by simp [hrest]) htail
    rw [List.map_cons, List.sum_cons, hdata] at hsum
    omega
  · rintro hall (_ | ⟨r, records⟩) h' tail hcount hcomplete hrest htail
    · obtain ⟨rfl, rfl⟩ := RecordHeader.bytes_append_inj hrest
      rw [List.length_append] at htail
      omega
    · rw [List.flatMap_cons, List.append_assoc, List.append_assoc] at hrest
      obtain ⟨rfl, hbehind⟩ := RecordHeader.bytes_append_inj hrest
      obtain ⟨hfirst, hcomplete⟩ := List.forall_mem_cons.mp hcomplete
      obtain ⟨-, hrest⟩ := List.append_inj hbehind (hdata.trans hfirst.symm)
      have hsum := hall records h' tail (Nat.lt_of_succ_lt_succ hcount) hcomplete hrest htail
      rw [List.map_cons, List.sum_cons]
      omega

theorem decodeRecordsCost_nil (numMsgs : Nat) : (decodeRecordsCost numMsgs []).2.payloadBytes = 0 := by
  have hshort : ([] : List UInt8).length < 29 := by decide
  induction numMsgs with
  | zero => rfl
  | succ numMsgs ih => simp only [decodeRecordsCost, payloadAllocation_short hshort, decodeRecord_short hshort, ih]

/-- The rounds allocate what the records announce up to the first that is not complete. -/
theorem decodeRecordsCost_payloadBytes_le_iff (numMsgs : Nat) (rest : List UInt8) (hrest : rest.length ≤ bound) :
    (decodeRecordsCost numMsgs rest).2.payloadBytes ≤ bound ↔ Announces bound numMsgs rest := by
  induction numMsgs generalizing rest bound with
  | zero => exact iff_of_true (Nat.zero_le _) fun _ _ _ hcount => absurd hcount (Nat.not_lt_zero _)
  | succ numMsgs ih =>
    simp only [decodeRecordsCost]
    rcases header_cases rest with ⟨h, tail, rfl⟩ | hshort
    · rw [payloadAllocation_append, decodeRecord_append]
      rcases Nat.lt_or_ge tail.length h.len.toNat with hlt | hge
      · rw [readExact_short hlt, decodeRecordsCost_nil, announces_incomplete hlt, Nat.add_zero]
      · have hdata := List.length_take_of_le hge
        rw [List.length_append] at hrest
        rw [readExact_snd, ← List.take_append_drop h.len.toNat tail,
          announces_complete hdata (by omega), ← ih, List.drop_left' hdata]
        · omega
        · rw [List.length_drop]
          omega
    · rw [payloadAllocation_short hshort, decodeRecord_short hshort, decodeRecordsCost_nil]
      exact iff_of_true (Nat.zero_le _) (announces_short hshort)

/-- **When decoding costs no more than the input is worth.** For every factor, the rounds of the loop and the
bytes that it allocates for payloads are bounded by the length of the input exactly if the count is, and what
the records announce up to the first incomplete one. -/
theorem decodeBatch_cost_iff (c : Nat) (payload : List UInt8) :
    (decodeBatchCost payload).1 = decodeBatch payload ∧
    ((decodeBatchCost payload).2.iterations ≤ (c + 1) * (payload.length + 1) ∧
        (decodeBatchCost payload).2.payloadBytes ≤ (c + 1) * (payload.length + 1) ↔
      ∀ (count : UInt32) (rest : List UInt8), payload = leBytes 4 count.toNat ++ rest →
        count.toNat ≤ (c + 1) * (payload.length + 1) ∧
          Announces ((c + 1) * (payload.length + 1)) count.toNat rest) := by
  refine ⟨decodeBatchCost_fst payload, ?_⟩
  rcases Nat.lt_or_ge payload.length 4 with hlt | hge
  · simp only [decodeBatchCost, readU32_short hlt]
    refine iff_of_true ⟨Nat.zero_le _, Nat.zero_le _⟩ ?_
    rintro count rest rfl
    rw [List.length_append, length_leBytes] at hlt
    omega
  · obtain ⟨count, hpayload⟩ := exists_u32_append hge
    generalize payload.drop 4 = rest at hpayload
    have hle : rest.length ≤ (c + 1) * (payload.length + 1) := by
      rw [hpayload, List.length_append]
      exact Nat.le_trans (by omega) (Nat.le_mul_of_pos_left _ (Nat.succ_pos c))
    generalize (c + 1) * (payload.length + 1) = bound at hle ⊢
    subst hpayload
    rw [decodeBatchCost_append, decodeRecordsCost_iterations, decodeRecordsCost_payloadBytes_le_iff _ _ hle]
    constructor
    · rintro hboth count' rest' heq
      have hread := congrArg readU32 heq
      rw [readU32_append, readU32_append, Prod.mk.injEq, Option.some.injEq] at hread
      obtain ⟨rfl, rfl⟩ := hread
      exact hboth
    · intro hall
      exact hall count rest rfl

/-- A record of no payload bytes that announces all it can. -/
def hugeRecord : RecordHeader := ⟨0, 0, 0, 0, 0, 0xFFFFFFFF⟩

/-- Four bytes keep the loop going for `2 ^ 32 - 1` rounds, and 33 bytes allocate 4 GiB. -/
theorem decodeBatch_cost_huge : (decodeBatchCost [255, 255, 255, 255]).2.iterations = 2 ^ 32 - 1 ∧
    (leBytes 4 1 ++ hugeRecord.bytes).length = 33 ∧
    (decodeBatchCost (leBytes 4 1 ++ hugeRecord.bytes)).2.payloadBytes = 2 ^ 32 - 1 := by
  refine ⟨?_, by decide, by decide +kernel⟩
  have hbytes : [255, 255, 255, 255] = leBytes 4 (0xFFFFFFFF : UInt32).toNat ++ [] := by decide
  rw [hbytes, decodeBatchCost_append, decodeRecordsCost_iterations]
  rfl

end Virtmcu.DeterministicCoordinator
