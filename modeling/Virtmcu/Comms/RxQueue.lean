import Mathlib.Data.Prod.Lex
import Virtmcu.Foundations.PriorityQueue

/-! # Receive queues of the devices

The network card, the CAN host and the character device receive alike: the subscription puts a packet
into a channel, a timer callback moves it on into a heap that is ordered by delivery time, and takes it
off there when its time has come. The heap is Rust's `BinaryHeap`, of which a device uses what every
priority queue promises. -/

namespace Virtmcu.Comms

/-- `OrderedPacket` of `netdev` and `chardev`, `OrderedCanFrame` of `canfd`. -/
structure Ordered (β : Type) where
  vtime : UInt64
  sequence : UInt64
  body : β
  deriving DecidableEq, Repr

variable {β : Type}

/-- `Ord` of the packets: earlier delivery first, then the smaller sequence number. The source turns the
order around because `BinaryHeap` pops the greatest. -/
def Ordered.key (p : Ordered β) : ℕ ×ₗ ℕ := toLex (p.vtime.toNat, p.sequence.toNat)

/-- `BinaryHeap` of packets. -/
abbrev Heap (β : Type) := PriorityQueue (Ordered β) Ordered.key

/-- The packet may be delivered: `packet.vtime <= now`. -/
def Ordered.isDue (now : ℕ) (p : Ordered β) : Bool := decide (p.vtime.toNat ≤ now)

@[simp] theorem Ordered.isDue_iff {now : ℕ} {p : Ordered β} :
    p.isDue now = true ↔ p.vtime.toNat ≤ now :=
  decide_eq_true_iff

@[simp] theorem Ordered.isDue_eq_false_iff {now : ℕ} {p : Ordered β} :
    p.isDue now = false ↔ now < p.vtime.toNat := by
  rw [Ordered.isDue, decide_eq_false_iff_not, not_le]

theorem Ordered.vtime_le_of_key_le {p q : Ordered β} (h : p.key ≤ q.key) :
    p.vtime.toNat ≤ q.vtime.toNat := by
  rcases Prod.Lex.toLex_le_toLex.mp h with hlt | ⟨heq, -⟩
  · exact le_of_lt hlt
  · exact le_of_eq heq

/-- Packets that are due stand before those that are not. -/
theorem Ordered.isDue_of_key_le (now : ℕ) (p q : Ordered β) (h : p.key ≤ q.key)
    (hq : q.isDue now = true) : p.isDue now = true :=
  Ordered.isDue_iff.mpr ((Ordered.vtime_le_of_key_le h).trans (Ordered.isDue_iff.mp hq))

/-- The expiry that `mod_ns(vtime as i64)` sets. QEMU takes a negative one for zero. -/
def expiryOf (vtime : UInt64) : ℕ := vtime.toInt64.toInt.toNat

/-- A time below `2^63` is its own expiry. -/
theorem expiryOf_of_lt {vtime : UInt64} (h : vtime.toNat < 2 ^ 63) : expiryOf vtime = vtime.toNat := by
  unfold expiryOf
  rw [← Int64.toInt_toBitVec, UInt64.toBitVec_toInt64, BitVec.toInt_eq_toNat_of_lt]
  · rfl
  · have hnat : vtime.toBitVec.toNat = vtime.toNat := rfl
    omega

/-- The cast never leads to a later time. -/
theorem expiryOf_le (vtime : UInt64) : expiryOf vtime ≤ vtime.toNat := by
  unfold expiryOf
  have hnat : vtime.toBitVec.toNat = vtime.toNat := rfl
  rw [← Int64.toInt_toBitVec, UInt64.toBitVec_toInt64, BitVec.toInt_eq_toNat_cond, hnat]
  split <;> omega

/-- An expiry is a time that the clock can reach. -/
theorem expiryOf_lt (vtime : UInt64) : expiryOf vtime < 2 ^ 63 := by
  unfold expiryOf
  have hlt := vtime.toInt64.toInt_lt
  omega

/-- What a timer is left armed for by a loop that stops at the first packet that is not due. -/
def nextExpiry (H : Heap β) (heap : H.Carrier) (timer : Option ℕ) : Option ℕ :=
  match H.pop heap with
  | none => timer
  | some (p, _) => some (expiryOf p.vtime)

/-- The data of a frame. The model remembers with it which of the received frames it was and when it
arrived; no code reads that. -/
structure Arrived (β : Type) where
  data : β
  number : ℕ
  time : ℕ
  deriving DecidableEq, Repr

/-- `u64::MAX`, the value of `earliest_vtime` when nothing is pending. -/
def maxVtime : UInt64 := 0xFFFFFFFFFFFFFFFF

/-- The timer is armed for this time or an earlier one. -/
def isExpired (timer : Option ℕ) (now : ℕ) : Bool := timer.any (· ≤ now)

theorem isExpired_iff {timer : Option ℕ} {now : ℕ} :
    isExpired timer now = true ↔ ∃ expiry, timer = some expiry ∧ expiry ≤ now := by
  cases timer <;> simp [isExpired]

end Virtmcu.Comms
