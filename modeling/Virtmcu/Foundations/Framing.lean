import Mathlib.Data.List.Basic

/-! # Packets in a byte stream

A stream carries packets that begin with a header of fixed size, and the header says how long the
packet is. `Framing.next` takes the first packet off a receive buffer once all of it has arrived.
A receiver that has kept its place in the stream sees the packets that were sent, one by one, however
the stream was cut into reads (`Framing.next_eq_some`). A complete file is read back packet by packet
(`Framing.packets_flatten`).

Every stream has one split into whole packets and an unfinished rest (`Framing.IsSplit`), and it takes
the most packets that any reading of the stream can (`Framing.IsSplit.longest`). A buffer that is split
as the stream grows gives the split of the whole stream (`Framing.IsSplit.append`). -/

namespace Virtmcu

open List

variable {α : Type*}

/-- How the header of a packet gives its length. -/
structure Framing (α : Type*) where
  /-- The size of the header. -/
  headerLen : ℕ
  /-- The length of the whole packet, from its header. -/
  packetLen : List α → ℕ
  headerLen_pos : 0 < headerLen

namespace Framing

variable (F : Framing α)

/-- The list is one whole packet. -/
def IsPacket (packet : List α) : Prop :=
  F.headerLen ≤ packet.length ∧ F.packetLen (packet.take F.headerLen) = packet.length

instance (packet : List α) : Decidable (F.IsPacket packet) :=
  inferInstanceAs (Decidable (_ ∧ _))

/-- The first packet of a buffer and what is behind it; nothing while a part of it is missing. -/
def next (buf : List α) : Option (List α × List α) :=
  if buf.length < F.headerLen then none
  else
    let len := F.packetLen (buf.take F.headerLen)
    if buf.length < len then none else some (buf.take len, buf.drop len)

/-- A buffer that holds the header waits for the length that the header gives. -/
theorem next_of_header {buf : List α} (h : F.headerLen ≤ buf.length) : F.next buf =
      if buf.length < F.packetLen (buf.take F.headerLen) then none
      else some (buf.take (F.packetLen (buf.take F.headerLen)),
        buf.drop (F.packetLen (buf.take F.headerLen))) :=
  if_neg (Nat.not_lt.mpr h)

/-- The packet that is taken off is the front of the buffer, and it is whole. -/
theorem next_cases {buf packet rest : List α} (h : F.next buf = some (packet, rest)) :
    buf = packet ++ rest ∧ F.headerLen ≤ buf.length ∧
      packet.length = F.packetLen (buf.take F.headerLen) := by
  unfold next at h
  by_cases hheader : buf.length < F.headerLen
  · rw [if_pos hheader] at h
    cases h
  rw [if_neg hheader] at h
  by_cases hlen : buf.length < F.packetLen (buf.take F.headerLen)
  · simp only [if_pos hlen] at h
    cases h
  simp only [if_neg hlen, Option.some.injEq, Prod.mk.injEq] at h
  obtain ⟨rfl, rfl⟩ := h
  refine ⟨(take_append_drop _ _).symm, Nat.not_lt.mp hheader, ?_⟩
  rw [length_take, Nat.min_eq_left (Nat.not_lt.mp hlen)]

/-- **The receiver keeps its place.** If the buffer and what is still to come spell whole packets,
then the packet taken off is the first of them and the others are left. -/
theorem next_eq_some {buf rest packet wire : List α} {packets : List (List α)}
    (hpackets : ∀ p ∈ packets, F.IsPacket p) (hstream : buf ++ wire = packets.flatten)
    (h : F.next buf = some (packet, rest)) :
    ∃ later, packets = packet :: later ∧ rest ++ wire = later.flatten := by
  obtain ⟨rfl, hheader, hlen⟩ := F.next_cases h
  cases packets with
  | nil =>
    have hempty : packet ++ rest = [] := (append_eq_nil_iff.mp hstream).1
    rw [hempty] at hheader
    exact absurd hheader (Nat.not_le.mpr F.headerLen_pos)
  | cons first later =>
    obtain ⟨hfirst, hfirstLen⟩ := hpackets first mem_cons_self
    rw [flatten_cons] at hstream
    -- both begin with the same header, so they agree on the length
    have hsame : (packet ++ rest).take F.headerLen = first.take F.headerLen := by
      have htake := congrArg (List.take F.headerLen) hstream
      rwa [take_append_of_le_length hheader, take_append_of_le_length hfirst] at htake
    rw [hsame, hfirstLen] at hlen
    rw [append_assoc] at hstream
    obtain ⟨rfl, hrest⟩ := append_inj hstream hlen
    exact ⟨later, rfl, hrest⟩

/-! ## Complete files -/

/-- A whole packet at the front is taken off. -/
theorem next_append {packet : List α} (h : F.IsPacket packet) (rest : List α) :
    F.next (packet ++ rest) = some (packet, rest) := by
  obtain ⟨hheader, hlen⟩ := h
  have hlong : ¬ (packet ++ rest).length < F.headerLen := by
    rw [length_append]
    omega
  unfold next
  rw [if_neg hlong, take_append_of_le_length hheader]
  simp only [hlen]
  rw [if_neg (by rw [length_append]; omega), take_left, drop_left]

/-- The packets of a file, at most `fuel` of them; a file that ends within a packet has none. -/
def packetsUpTo : (fuel : ℕ) → List α → Option (List (List α))
  | _, [] => some []
  | 0, _ :: _ => none
  | fuel + 1, a :: file =>
      match F.next (a :: file) with
      | none => none
      | some (packet, rest) => (packetsUpTo fuel rest).map (packet :: ·)

/-- The packets of a file: it does not hold more of them than elements. -/
def packets (file : List α) : Option (List (List α)) := F.packetsUpTo file.length file

theorem packetsUpTo_flatten {ps : List (List α)} (h : ∀ p ∈ ps, F.IsPacket p) {fuel : ℕ}
    (hfuel : ps.length ≤ fuel) : F.packetsUpTo fuel ps.flatten = some ps := by
  induction ps generalizing fuel with
  | nil => cases fuel <;> rfl
  | cons p ps ih =>
    have hp := h p mem_cons_self
    obtain ⟨fuel, rfl⟩ := Nat.exists_eq_succ_of_ne_zero (Nat.ne_of_gt (Nat.lt_of_lt_of_le
      (Nat.succ_pos _) hfuel))
    have hrest := ih (fun q hq => h q (mem_cons_of_mem p hq)) (Nat.le_of_succ_le_succ hfuel)
    rw [flatten_cons]
    -- a packet is not empty, so the file is not
    obtain ⟨a, p', rfl⟩ := exists_cons_of_length_pos (Nat.lt_of_lt_of_le F.headerLen_pos hp.1)
    have hnext := F.next_append hp ps.flatten
    rw [cons_append] at hnext ⊢
    rw [packetsUpTo, hnext]
    simp only [hrest, Option.map_some]

/-- Packets are not empty, so there are no more of them than elements. -/
theorem length_le_flatten {ps : List (List α)} (h : ∀ p ∈ ps, F.IsPacket p) :
    ps.length ≤ ps.flatten.length := by
  induction ps with
  | nil => exact Nat.le_refl 0
  | cons p ps ih =>
    have hp := (h p mem_cons_self).1
    have hpos := F.headerLen_pos
    have hrest := ih fun q hq => h q (mem_cons_of_mem p hq)
    rw [length_cons, flatten_cons, length_append]
    omega

/-- **A file of whole packets is read back.** -/
theorem packets_flatten {ps : List (List α)} (h : ∀ p ∈ ps, F.IsPacket p) :
    F.packets ps.flatten = some ps :=
  F.packetsUpTo_flatten h (F.length_le_flatten h)

/-! ## The split of a stream -/

/-- The stream is these packets and a rest in which the next packet is not complete. -/
structure IsSplit (stream : List α) (packets : List (List α)) (rest : List α) : Prop where
  isPacket : ∀ p ∈ packets, F.IsPacket p
  flatten_append : packets.flatten ++ rest = stream
  next_rest : F.next rest = none

variable {F}

theorem IsSplit.nil {stream : List α} (h : F.next stream = none) : F.IsSplit stream [] stream :=
  ⟨fun _ hp => absurd hp not_mem_nil, rfl, h⟩

theorem IsSplit.cons {stream packet rest : List α} {packets : List (List α)}
    (hpacket : F.IsPacket packet) (h : F.IsSplit stream packets rest) :
    F.IsSplit (packet ++ stream) (packet :: packets) rest where
  isPacket := forall_mem_cons.mpr ⟨hpacket, h.isPacket⟩
  flatten_append := by rw [flatten_cons, append_assoc, h.flatten_append]
  next_rest := h.next_rest

/-- **The split takes the most packets**: whole packets that the stream begins with are the first of
the split. -/
theorem IsSplit.longest {stream rest : List α} {packets ps : List (List α)}
    (h : F.IsSplit stream packets rest) (hps : ∀ p ∈ ps, F.IsPacket p)
    (hstream : ps.flatten <+: stream) : ps <+: packets := by
  induction ps generalizing stream packets with
  | nil => exact nil_prefix
  | cons p ps ih =>
    obtain ⟨more, hmore⟩ := hstream
    have hp := hps p mem_cons_self
    have hsplit := h.flatten_append
    rw [← hmore, flatten_cons, append_assoc] at hsplit
    cases packets with
    | nil =>
      -- the rest would begin with a whole packet
      have hrest := h.next_rest
      rw [flatten_nil, nil_append] at hsplit
      rw [hsplit, F.next_append hp] at hrest
      cases hrest
    | cons q packets =>
      have hq := h.isPacket q mem_cons_self
      rw [flatten_cons, append_assoc] at hsplit
      have hnext := F.next_append hq (packets.flatten ++ rest)
      rw [hsplit, F.next_append hp, Option.some.injEq, Prod.mk.injEq] at hnext
      obtain ⟨rfl, hbehind⟩ := hnext
      have hlater : F.IsSplit (ps.flatten ++ more) packets rest :=
        ⟨fun r hr => h.isPacket r (mem_cons_of_mem p hr), hbehind.symm, h.next_rest⟩
      refine (prefix_cons_inj p).mpr ?_
      exact ih hlater (fun r hr => hps r (mem_cons_of_mem p hr)) (prefix_append _ _)

theorem IsSplit.length_le {stream rest : List α} {packets : List (List α)}
    (h : F.IsSplit stream packets rest) : packets.length ≤ stream.length := by
  rw [← h.flatten_append, length_append]
  exact Nat.le_trans (F.length_le_flatten h.isPacket) (Nat.le_add_right _ _)

/-- A stream has one split. -/
theorem IsSplit.unique {stream rest rest' : List α} {packets packets' : List (List α)}
    (h : F.IsSplit stream packets rest) (h' : F.IsSplit stream packets' rest') :
    packets = packets' ∧ rest = rest' := by
  have hle := h'.longest h.isPacket ⟨rest, h.flatten_append⟩
  have hge := h.longest h'.isPacket ⟨rest', h'.flatten_append⟩
  have hpackets : packets = packets' := hle.eq_of_length_le hge.length_le
  have hflat := h.flatten_append.trans h'.flatten_append.symm
  rw [hpackets] at hflat
  exact ⟨hpackets, append_cancel_left hflat⟩

/-- **A stream may be split as it grows**: what is left waits for more. -/
theorem IsSplit.append {buf more rest rest' : List α} {packets packets' : List (List α)}
    (h : F.IsSplit buf packets rest) (h' : F.IsSplit (rest ++ more) packets' rest') :
    F.IsSplit (buf ++ more) (packets ++ packets') rest' where
  isPacket p hp := (List.mem_append.mp hp).elim (h.isPacket p) (h'.isPacket p)
  flatten_append := by
    rw [List.flatten_append, List.append_assoc, h'.flatten_append, ← List.append_assoc, h.flatten_append]
  next_rest := h'.next_rest

variable (F)

/-- Takes packets off the front, at most `fuel` of them: the packets and what is left. -/
def splitUpTo : (fuel : ℕ) → List α → List (List α) × List α
  | 0, buf => ([], buf)
  | fuel + 1, buf =>
      match F.next buf with
      | none => ([], buf)
      | some (packet, rest) => ((packet :: (splitUpTo fuel rest).1), (splitUpTo fuel rest).2)

/-- The packets at the front of a stream and what is behind them. -/
def split (stream : List α) : List (List α) × List α := F.splitUpTo stream.length stream

variable {F}

/-- A packet that is taken off is whole when no packet is shorter than its header. -/
theorem isPacket_of_next (hF : ∀ header, F.headerLen ≤ F.packetLen header)
    {buf packet rest : List α} (h : F.next buf = some (packet, rest)) : F.IsPacket packet := by
  obtain ⟨rfl, hheader, hlen⟩ := F.next_cases h
  have hlong : F.headerLen ≤ packet.length := hlen ▸ hF _
  rw [take_append_of_le_length hlong] at hlen
  exact ⟨hlong, hlen.symm⟩

/-- A file that is read is made of the packets that are read. -/
theorem packetsUpTo_eq_some (hF : ∀ header, F.headerLen ≤ F.packetLen header) {fuel : ℕ}
    {file : List α} {ps : List (List α)} (h : F.packetsUpTo fuel file = some ps) :
    (∀ p ∈ ps, F.IsPacket p) ∧ ps.flatten = file := by
  induction fuel generalizing file ps with
  | zero =>
    cases file with
    | nil => cases h; simp
    | cons a file => cases h
  | succ fuel ih =>
    cases file with
    | nil => cases h; simp
    | cons a file =>
      rw [packetsUpTo] at h
      split at h
      · cases h
      · rename_i packet rest hnext
        obtain ⟨ps, hps, rfl⟩ := Option.map_eq_some_iff.mp h
        obtain ⟨hpackets, hflat⟩ := ih hps
        refine ⟨List.forall_mem_cons.mpr ⟨isPacket_of_next hF hnext, hpackets⟩, ?_⟩
        rw [List.flatten_cons, hflat, (F.next_cases hnext).1]

theorem isSplit_splitUpTo (hF : ∀ header, F.headerLen ≤ F.packetLen header) {fuel : ℕ}
    {stream : List α} (hfuel : stream.length ≤ fuel) :
    F.IsSplit stream (F.splitUpTo fuel stream).1 (F.splitUpTo fuel stream).2 := by
  induction fuel generalizing stream with
  | zero =>
    have hpos := F.headerLen_pos
    refine IsSplit.nil (if_pos ?_)
    omega
  | succ fuel ih =>
    unfold splitUpTo
    cases hnext : F.next stream with
    | none => exact IsSplit.nil hnext
    | some taken =>
      obtain ⟨packet, rest⟩ := taken
      have hpacket := isPacket_of_next hF hnext
      have hpos := F.headerLen_pos
      have hheader := hpacket.1
      obtain ⟨rfl, -, -⟩ := F.next_cases hnext
      rw [length_append] at hfuel
      exact (ih (by omega)).cons hpacket

theorem isSplit_split (hF : ∀ header, F.headerLen ≤ F.packetLen header) (stream : List α) :
    F.IsSplit stream (F.split stream).1 (F.split stream).2 :=
  isSplit_splitUpTo hF (Nat.le_refl _)

/-! ## A buffer that outlives its stream -/

variable (F)

/-- The packets of one stream after another when what a stream leaves behind is not thrown away. -/
def splitCarrying : (buf : List α) → (streams : List (List α)) → List (List (List α))
  | _, [] => []
  | buf, stream :: streams =>
      (F.split (buf ++ stream)).1 :: splitCarrying (F.split (buf ++ stream)).2 streams

variable {F}

/-- Streams that end behind a packet do not get in the way of each other. -/
theorem splitCarrying_eq_map {streams : List (List α)}
    (h : ∀ stream ∈ streams.dropLast, (F.split stream).2 = []) :
    F.splitCarrying [] streams = streams.map fun stream => (F.split stream).1 := by
  induction streams with
  | nil => rfl
  | cons stream streams ih =>
    rw [splitCarrying, nil_append, map_cons]
    cases streams with
    | nil => rfl
    | cons next later =>
      rw [dropLast_cons_cons, forall_mem_cons] at h
      rw [h.1, ih h.2]

end Framing

end Virtmcu
