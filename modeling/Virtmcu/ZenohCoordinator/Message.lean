import Virtmcu.Foundations.CanonicalSort

/-! # Messages of the Zenoh coordinator

`CoordMessage` of the Zenoh coordinator's `barrier.rs`. It names nodes by free-form strings, and its
order differs from that of the deterministic coordinator: the base topic is always present and is
compared before the protocol. The order is total and tells different messages apart, so a sorted
batch depends on its contents only. -/

namespace Virtmcu.ZenohCoordinator

/-- `Protocol` of `topology.rs`, in declaration order (which is its `Ord` order). -/
inductive Protocol
  | ethernet
  | uart
  | spi
  | canFd
  | flexRay
  | lin
  | rf802154
  | rfHci
  deriving DecidableEq, Repr, Ord

/-- The derived comparison is the comparison of declaration positions. -/
theorem Protocol.compare_eq (p q : Protocol) : compare p q = compare p.ctorIdx q.ctorIdx := by
  cases p <;> cases q <;> rfl

theorem Protocol.ctorIdx_injective : Function.Injective Protocol.ctorIdx := by
  intro p q h
  cases p <;> cases q <;> first | rfl | exact absurd h (by decide)

instance : Std.TransOrd Protocol := transOrd_of_key Protocol.compare_eq

instance : Std.LawfulEqOrd Protocol := lawfulEqOrd_of_key Protocol.compare_eq Protocol.ctorIdx_injective

/-- A message on its way through the coordinator. -/
structure CoordMessage where
  srcNodeId : String
  dstNodeId : String
  baseTopic : String
  deliveryVtimeNs : UInt64
  sequenceNumber : UInt64
  protocol : Protocol
  payload : List UInt8
  deriving DecidableEq, Repr

namespace CoordMessage

/-- `CoordMessage::cmp`: delivery time, source, destination, sequence number, **base topic**, protocol
and payload, each deciding only when all before it are equal. -/
def cmp (m m' : CoordMessage) : Ordering :=
  (compare m.deliveryVtimeNs m'.deliveryVtimeNs).then <|
  (compare m.srcNodeId m'.srcNodeId).then <|
  (compare m.dstNodeId m'.dstNodeId).then <|
  (compare m.sequenceNumber m'.sequenceNumber).then <|
  (compare m.baseTopic m'.baseTopic).then <|
  (compare m.protocol m'.protocol).then <|
  compare m.payload m'.payload

/-- The comparison chain as a lexicographic product of the field comparisons. -/
theorem cmp_eq_compareLex : cmp = compareLex (compareOn deliveryVtimeNs) (compareLex (compareOn srcNodeId)
      (compareLex (compareOn dstNodeId) (compareLex (compareOn sequenceNumber)
        (compareLex (compareOn baseTopic) (compareLex (compareOn protocol) (compareOn payload)))))) := rfl

instance : Std.TransCmp cmp := by
  rw [cmp_eq_compareLex]
  infer_instance

/-- Messages that compare equal agree in every field. -/
instance : Std.LawfulEqCmp cmp where
  eq_of_compare {m m'} h := by
    simp only [cmp, Ordering.then_eq_eq, Std.LawfulEqOrd.compare_eq_iff_eq] at h
    cases m
    cases m'
    simp_all

end CoordMessage

/-- `messages.sort()`. -/
def sort (messages : List CoordMessage) : List CoordMessage := sortBy CoordMessage.cmp messages

/-- Sorting forgets the order of arrival. -/
theorem sort_eq_of_perm {l l' : List CoordMessage} (h : l.Perm l') : sort l = sort l' :=
  sortBy_eq_of_perm _ h

/-- `messages.sort()`, and `messages.truncate(cap)` if there are more than `cap`: the part of a
submission the barrier keeps. -/
def sortTruncate (cap : Nat) (messages : List CoordMessage) : List CoordMessage :=
  (sort messages).take cap

end Virtmcu.ZenohCoordinator
