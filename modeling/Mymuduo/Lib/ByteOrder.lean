import Mathlib.Data.List.Induction
import Mymuduo.Lib.CString

/-!
# Byte order

The bytes of unsigned integers. `bigEndian k n` is the number on the network, and `value` reads it
back. In memory a host keeps its integers in its own `Order`: `memory` and `load` are what copying
an integer to bytes and back does, and `htobe` and `betoh` are the conversions of `endian.h`.
`memory_htobe` and `betoh_load` say that these two make every host speak big-endian.
-/

namespace ByteOrder

open CString

/-- The `k` bytes of `n`, the most significant first. -/
def bigEndian : Nat → Nat → Bytes
  | 0, _ => []
  | k + 1, n => bigEndian k (n / 256) ++ [(n % 256).toUInt8]

/-- The number that the bytes spell, the most significant first. -/
def value (bs : Bytes) : Nat := bs.foldl (fun v b => 256 * v + b.toNat) 0

/-- How a host orders the bytes of an integer in its memory. -/
inductive Order
  | little
  | big
  deriving DecidableEq, Repr

namespace Order

/-- The memory of an integer of `k` bytes. -/
def memory (host : Order) (k n : Nat) : Bytes :=
  match host with
  | little => (bigEndian k n).reverse
  | big => bigEndian k n

/-- The integer that bytes of memory are. -/
def load (host : Order) (bs : Bytes) : Nat :=
  match host with
  | little => value bs.reverse
  | big => value bs

/-- `htobe16`, `htobe32` and `htobe64`: a little-endian host reverses the bytes. -/
def htobe (host : Order) (k n : Nat) : Nat :=
  match host with
  | little => value (bigEndian k n).reverse
  | big => n

/-- `be16toh`, `be32toh` and `be64toh`. -/
def betoh (host : Order) (k n : Nat) : Nat := host.htobe k n

end Order

@[simp] theorem length_bigEndian (k n : Nat) : (bigEndian k n).length = k := by
  induction k generalizing n with
  | zero => rfl
  | succ k ih => simp [bigEndian, ih]

theorem value_append (bs : Bytes) (b : UInt8) : value (bs ++ [b]) = 256 * value bs + b.toNat := by
  simp [value]

theorem value_bigEndian (k n : Nat) : value (bigEndian k n) = n % 256 ^ k := by
  induction k generalizing n with
  | zero => simp [bigEndian, value, Nat.mod_one]
  | succ k ih =>
    have hbyte : (n % 256).toUInt8.toNat = n % 256 := by
      rw [Nat.toUInt8, UInt8.toNat_ofNat']
      exact Nat.mod_eq_of_lt (Nat.mod_lt n (by decide))
    rw [bigEndian, value_append, ih, hbyte, Nat.pow_succ', Nat.mod_mul, Nat.add_comm]

theorem value_lt (bs : Bytes) : value bs < 256 ^ bs.length := by
  induction bs using List.reverseRecOn with
  | nil => decide
  | append_singleton bs b ih =>
    rw [value_append, List.length_append, List.length_singleton, Nat.pow_succ]
    have hb := b.toNat_lt
    omega

theorem bigEndian_value (bs : Bytes) : bigEndian bs.length (value bs) = bs := by
  induction bs using List.reverseRecOn with
  | nil => rfl
  | append_singleton bs b ih =>
    have hb : b.toNat < 256 := b.toNat_lt
    have hdiv : (256 * value bs + b.toNat) / 256 = value bs := by omega
    have hmod : (256 * value bs + b.toNat) % 256 = b.toNat := by omega
    rw [List.length_append, List.length_singleton, bigEndian, value_append, hdiv, hmod, ih]
    simp [Nat.toUInt8]

/-- A converted integer lies in memory as on the network. -/
theorem memory_htobe (host : Order) (k n : Nat) :
    host.memory k (host.htobe k n) = bigEndian k n := by
  cases host with
  | big => rfl
  | little =>
    have hback := bigEndian_value (bigEndian k n).reverse
    rw [List.length_reverse, length_bigEndian] at hback
    show (bigEndian k (value (bigEndian k n).reverse)).reverse = bigEndian k n
    rw [hback, List.reverse_reverse]

/-- What comes from the network is read as the number it spells there. -/
theorem betoh_load (host : Order) {k : Nat} {bs : Bytes} (h : bs.length = k) :
    host.betoh k (host.load bs) = value bs := by
  cases host with
  | big => rfl
  | little =>
    have hback := bigEndian_value bs.reverse
    rw [List.length_reverse, h] at hback
    show value (bigEndian k (value bs.reverse)).reverse = value bs
    rw [hback, List.reverse_reverse]

theorem htobe_lt (host : Order) {k n : Nat} (h : n < 256 ^ k) : host.htobe k n < 256 ^ k := by
  cases host with
  | big => exact h
  | little =>
    have hlt := value_lt (bigEndian k n).reverse
    rwa [List.length_reverse, length_bigEndian] at hlt

theorem load_lt (host : Order) {k : Nat} {bs : Bytes} (h : bs.length = k) :
    host.load bs < 256 ^ k := by
  cases host with
  | big => exact h ▸ value_lt bs
  | little =>
    have hlt := value_lt bs.reverse
    rwa [List.length_reverse, h] at hlt

end ByteOrder
