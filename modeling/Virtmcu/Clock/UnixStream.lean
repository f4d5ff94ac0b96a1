import Virtmcu.Clock.System
import Virtmcu.Foundations.LittleEndian

/-! # Does the Unix clock stream stay in frame?

`UnixSocketClockTransport::recv_advance` reads one request of 24 bytes with `read_exact`. The buffer is a
local variable: when the read timeout strikes in the middle of a request, the bytes that were read are
gone, and the next call starts to read where the request continues.

The stream is a machine whose inputs are the outcomes of the `read` calls inside `read_exact`: any
segmentation and any placement of timeouts is a list of such outcomes. As long as no timeout strikes
within a request, the requests returned are those that were sent, in order
(`returned_isPrefix_of_wholeTimeouts`). -/

namespace Virtmcu.Clock

open List

/-! ## Requests as bytes -/

/-- `size_of::<ClockAdvanceReq>()`. -/
def clockAdvanceReqSize : ℕ := 24

/-- The bytes of a request. -/
def ClockAdvanceReq.pack (req : ClockAdvanceReq) : List UInt8 :=
  leBytes 8 req.deltaNs.toNat ++ (leBytes 8 req.absoluteVtimeNs.toNat ++
    leBytes 8 req.quantumNumber.toNat)

/-- `ClockAdvanceReq::unpack_slice`. -/
def ClockAdvanceReq.unpackSlice (b : List UInt8) : Option ClockAdvanceReq :=
  if b.length < clockAdvanceReqSize then none
  else some ⟨(leNat (b.take 8)).toUInt64, (leNat ((b.drop 8).take 8)).toUInt64,
    (leNat ((b.drop 16).take 8)).toUInt64⟩

theorem ClockAdvanceReq.length_pack (req : ClockAdvanceReq) : req.pack.length = clockAdvanceReqSize := by
  simp [pack, clockAdvanceReqSize]

/-- A request is read back. -/
theorem ClockAdvanceReq.unpackSlice_pack (req : ClockAdvanceReq) : unpackSlice req.pack = some req := by
  have hlast : (leBytes 8 req.quantumNumber.toNat).take 8 = leBytes 8 req.quantumNumber.toNat :=
    take_of_length_le (Nat.le_of_eq (length_leBytes 8 _))
  rw [unpackSlice, if_neg (by rw [length_pack]; exact Nat.lt_irrefl _), pack]
  simp (disch := decide) only [drop_leBytes_append_of_le, take_leBytes_append, Nat.reduceSub,
    drop_zero, hlast, toUInt64_leNat_leBytes]

/-! ## The stream -/

/-- The outcome of a `read` call inside `read_exact`. -/
inductive ReadOutcome
  /-- Up to `n` bytes have arrived; no more than fit into the buffer are taken. -/
  | data (n : ℕ)
  /-- The call was interrupted, and `read_exact` repeats it. -/
  | interrupted
  /-- The read timeout has passed. `read_exact` fails, and so does `recv_advance`. -/
  | timeout
  deriving DecidableEq, Repr

/-- A connection, seen from the node. -/
structure UnixStream where
  /-- What the time authority has written and the node has not read. -/
  wire : List UInt8
  /-- What the present call of `read_exact` has read so far. -/
  buf : List UInt8
  /-- The requests returned so far. -/
  returned : List ClockAdvanceReq
  buf_lt : buf.length < clockAdvanceReqSize
  deriving DecidableEq

namespace UnixStream

/-- A new connection on which the requests are written back to back. -/
def connect (sent : List ClockAdvanceReq) : UnixStream where
  wire := (sent.map ClockAdvanceReq.pack).flatten
  buf := []
  returned := []
  buf_lt := by decide

/-- The buffer after a read of up to `n` bytes. -/
def filled (s : UnixStream) (n : ℕ) : List UInt8 :=
  s.buf ++ s.wire.take (min n (clockAdvanceReqSize - s.buf.length))

theorem length_filled_le (s : UnixStream) (n : ℕ) : (s.filled n).length ≤ clockAdvanceReqSize := by
  have hlt := s.buf_lt
  rw [filled, length_append, length_take]
  omega

/-- One `read` call. A full buffer ends the call of `recv_advance` with a request, a timeout ends it
with nothing; in both cases the next call starts with an empty buffer. -/
def read (s : UnixStream) : ReadOutcome → UnixStream
  | .data n =>
      let wire := s.wire.drop (min n (clockAdvanceReqSize - s.buf.length))
      if h : (s.filled n).length = clockAdvanceReqSize then
        { wire, buf := [], buf_lt := by decide
          returned := s.returned ++ (ClockAdvanceReq.unpackSlice (s.filled n)).toList }
      else
        { s with wire, buf := s.filled n, buf_lt := Nat.lt_of_le_of_ne (s.length_filled_le n) h }
  | .interrupted => s
  -- the bytes in the buffer are not put back
  | .timeout => { s with buf := [], buf_lt := by decide }

/-- The timeout does not strike within a request. -/
def IsWholeTimeout (s : UnixStream) : ReadOutcome → Prop
  | .timeout => s.buf = []
  | _ => True

instance (s : UnixStream) : (r : ReadOutcome) → Decidable (s.IsWholeTimeout r)
  | .timeout => inferInstanceAs (Decidable (s.buf = []))
  | .data _ => inferInstanceAs (Decidable True)
  | .interrupted => inferInstanceAs (Decidable True)

/-- The stream is in frame: what is in the buffer and on the wire spells the requests that have not been
returned. -/
def InFrame (sent : List ClockAdvanceReq) (s : UnixStream) : Prop :=
  ∃ later, sent = s.returned ++ later ∧ s.buf ++ s.wire = (later.map ClockAdvanceReq.pack).flatten

theorem inFrame_connect (sent : List ClockAdvanceReq) : InFrame sent (connect sent) :=
  ⟨sent, rfl, rfl⟩

variable {sent : List ClockAdvanceReq} {s : UnixStream}

/-- Reading moves bytes from the wire to the buffer. -/
theorem filled_append_drop (n : ℕ) :
    s.filled n ++ s.wire.drop (min n (clockAdvanceReqSize - s.buf.length)) = s.buf ++ s.wire := by
  rw [filled, append_assoc, take_append_drop]

/-- **A read keeps the stream in frame** unless it times out within a request. -/
theorem InFrame.read (hs : InFrame sent s) {r : ReadOutcome} (hr : s.IsWholeTimeout r) :
    InFrame sent (s.read r) := by
  obtain ⟨later, hsent, hbytes⟩ := hs
  cases r with
  | interrupted => exact ⟨later, hsent, hbytes⟩
  | timeout =>
    have hempty : s.buf = [] := hr
    rw [hempty] at hbytes
    exact ⟨later, hsent, hbytes⟩
  | data n =>
    unfold UnixStream.read
    by_cases hfull : (s.filled n).length = clockAdvanceReqSize
    · -- the full buffer is the first of the requests that are left
      simp only [dif_pos hfull]
      rw [← filled_append_drop n] at hbytes
      cases later with
      | nil =>
        have hnil := (append_eq_nil_iff.mp hbytes).1
        rw [hnil] at hfull
        exact absurd hfull (by decide)
      | cons req later =>
        rw [map_cons, flatten_cons] at hbytes
        obtain ⟨hreq, hrest⟩ := append_inj hbytes (hfull.trans req.length_pack.symm)
        refine ⟨later, ?_, hrest⟩
        rw [hreq, ClockAdvanceReq.unpackSlice_pack, Option.toList_some, append_assoc]
        exact hsent
    · simp only [dif_neg hfull]
      exact ⟨later, hsent, (filled_append_drop n).trans hbytes⟩

/-- **The stream stays in frame** over every segmentation, as long as no timeout strikes within a
request: the requests returned are a prefix of those sent. -/
theorem returned_isPrefix_of_wholeTimeouts (sent : List ClockAdvanceReq) (reads : List ReadOutcome)
    (h : passes UnixStream.read (fun s r => decide (s.IsWholeTimeout r)) (connect sent) reads = true) :
    (reads.foldl UnixStream.read (connect sent)).returned <+: sent := by
  have hpath := steps_of_passes UnixStream.read _ h
  have hframe : InFrame sent (reads.foldl UnixStream.read (connect sent)) := by
    refine steps_invariant ?_ hpath (inFrame_connect sent)
    rintro s _ ⟨r, hr, rfl⟩ hs
    exact hs.read (of_decide_eq_true hr)
  obtain ⟨later, hsent, -⟩ := hframe
  exact ⟨later, hsent.symm⟩

/-- Two requests. -/
def twoRequests : List ClockAdvanceReq := [⟨1, 2, 3⟩, ⟨4, 5, 6⟩]

/-- The stream is cut into pieces that are not requests, and a timeout strikes between two of them. -/
theorem returned_isPrefix_segmented :
    ([.data 5, .data 30, .timeout, .data 20, .interrupted, .data 4].foldl UnixStream.read
      (connect twoRequests)).returned = twoRequests ∧
    ([.data 5, .data 30, .timeout, .data 20, .interrupted, .data 4].foldl UnixStream.read
      (connect twoRequests)).returned <+: twoRequests :=
  ⟨by decide +kernel, returned_isPrefix_of_wholeTimeouts twoRequests _ (by decide +kernel)⟩

/-- The timeout strikes after the first eight bytes of the first request: the next call returns a request
that was never sent. -/
theorem not_isPrefix_splitRequest :
    ([.data 8, .timeout, .data 24].foldl UnixStream.read (connect twoRequests)).returned = [⟨2, 3, 4⟩] ∧
    ¬ ([.data 8, .timeout, .data 24].foldl UnixStream.read (connect twoRequests)).returned <+:
      twoRequests := by
  have hreturned : ([.data 8, .timeout, .data 24].foldl UnixStream.read
      (connect twoRequests)).returned = [⟨2, 3, 4⟩] := by decide +kernel
  refine ⟨hreturned, ?_⟩
  rw [hreturned]
  decide

end UnixStream

end Virtmcu.Clock
