import Virtmcu.Foundations.CanonicalSort

/-! # Coordinator messages and their canonical order

`CoordMessage` of `barrier.rs` with its `Ord` instance: seven fields compared in turn, delivery time
first. The comparator is a total order that identifies no two different messages, so the sorted form
of a batch depends on nothing but its contents (`sort_eq_of_perm`). -/

namespace Virtmcu.DeterministicCoordinator

/-- The inter-node communication protocols, in declaration order (which is their `Ord` order). -/
inductive Protocol
  | ethernet
  | uart
  | spi
  | canFd
  | flexRay
  | lin
  | rf802154
  | rfHci
  | control
  deriving DecidableEq, Repr, Ord

/-- The two radio protocols. -/
def Protocol.isWireless : Protocol → Bool
  | .rf802154 | .rfHci => true
  | _ => false

/-- The derived comparison is the comparison of declaration positions. -/
theorem Protocol.compare_eq (p q : Protocol) : compare p q = compare p.ctorIdx q.ctorIdx := by
  cases p <;> cases q <;> rfl

theorem Protocol.ctorIdx_injective : Function.Injective Protocol.ctorIdx := by
  intro p q h
  cases p <;> cases q <;> first | rfl | exact absurd h (by decide)

instance : Std.TransOrd Protocol := transOrd_of_key Protocol.compare_eq

instance : Std.LawfulEqOrd Protocol := lawfulEqOrd_of_key Protocol.compare_eq Protocol.ctorIdx_injective

/-- A message on its way through the coordinator. -/
structure CoordMessage where
  srcNodeId : UInt32
  dstNodeId : UInt32
  deliveryVtimeNs : UInt64
  sequenceNumber : UInt64
  protocol : Protocol
  payload : List UInt8
  baseTopic : Option String
  deriving DecidableEq, Repr

/-- The destination `u32::MAX`, read by the router as "everybody". -/
def broadcast : UInt32 := 0xFFFFFFFF

namespace CoordMessage

/-- `CoordMessage::cmp`: delivery time, source, **destination**, sequence number, protocol, base topic
and payload, each deciding only when all before it are equal. -/
def cmp (m m' : CoordMessage) : Ordering :=
  (compare m.deliveryVtimeNs m'.deliveryVtimeNs).then <|
  (compare m.srcNodeId m'.srcNodeId).then <|
  (compare m.dstNodeId m'.dstNodeId).then <|
  (compare m.sequenceNumber m'.sequenceNumber).then <|
  (compare m.protocol m'.protocol).then <|
  (compare m.baseTopic m'.baseTopic).then <|
  compare m.payload m'.payload

/-- The comparison chain as a lexicographic product of the field comparisons. -/
theorem cmp_eq_compareLex : cmp = compareLex (compareOn deliveryVtimeNs) (compareLex (compareOn srcNodeId)
      (compareLex (compareOn dstNodeId) (compareLex (compareOn sequenceNumber)
        (compareLex (compareOn protocol) (compareLex (compareOn baseTopic) (compareOn payload)))))) := rfl

instance : Std.TransCmp cmp := by
  rw [cmp_eq_compareLex]
  infer_instance

/-- Messages that compare equal agree in every field. -/
instance : Std.LawfulEqCmp cmp where
  eq_of_compare {m m'} h := by
    simp only [cmp, Ordering.then_eq_eq, Std.LawfulEqOrd.compare_eq_iff_eq] at h
    cases m
    cases m'
    simp_all

end CoordMessage

/-- `messages.sort()`. -/
def sort (messages : List CoordMessage) : List CoordMessage := sortBy CoordMessage.cmp messages

@[simp] theorem mem_sort {l : List CoordMessage} {m : CoordMessage} : m ∈ sort l ↔ m ∈ l :=
  mem_sortBy _

theorem pairwise_sort (l : List CoordMessage) :
    (sort l).Pairwise (CmpLe CoordMessage.cmp) := pairwise_sortBy _ l

/-- Sorting forgets the order of arrival. -/
theorem sort_eq_of_perm {l l' : List CoordMessage} (h : l.Perm l') : sort l = sort l' :=
  sortBy_eq_of_perm _ h

/-- `messages.sort()` followed by `messages.truncate(cap)`: the part of a submission the barrier
keeps. Sorting comes first, so which messages survive does not depend on the order of sending. -/
def sortTruncate (cap : Nat) (messages : List CoordMessage) : List CoordMessage :=
  (sort messages).take cap

theorem sortTruncate_eq_of_perm (cap : Nat) {l l' : List CoordMessage} (h : l.Perm l') :
    sortTruncate cap l = sortTruncate cap l' := by
  rw [sortTruncate, sortTruncate, sort_eq_of_perm h]

theorem length_sortTruncate_le (cap : Nat) (messages : List CoordMessage) :
    (sortTruncate cap messages).length ≤ cap :=
  List.length_take_le _ _

end Virtmcu.DeterministicCoordinator
