import Mymuduo.Lib.ByteOrder
import Mymuduo.Net.Buffer

/-!
# The integers of `net/Buffer` and `net/Endian`

An integer of a fixed width is its bits, and its signed reading is `toInt`, so that the passage
through the unsigned types of `Endian.h` changes nothing. Every function takes the byte order of
the host. A reading function returns `none` where its assertion fails.

`typed_ints_survive`: whatever the storage went through in between, integers come out of the buffer
as they went in.
-/

namespace Mymuduo

open CString ByteOrder

/-- The types of the integers, by their width in bytes. -/
inductive IntType
  | int8
  | int16
  | int32
  | int64
  deriving DecidableEq, Repr

def IntType.size : IntType → Nat
  | int8 => 1
  | int16 => 2
  | int32 => 4
  | int64 => 8

/-- An integer of the type, in two's complement. -/
abbrev IntType.Value (t : IntType) : Type := BitVec (8 * t.size)

/-- An integer with its type. -/
abbrev TypedInt : Type := (t : IntType) × t.Value

/-- The big-endian bytes of the two's complement of a signed value. -/
def encoding (v : TypedInt) : Bytes :=
  bigEndian v.1.size (v.2.toInt % 256 ^ v.1.size).toNat

/-! ## `Endian.h` -/

section
variable (host : Order)

def hostToNetwork64 (host64 : BitVec 64) : BitVec 64 := .ofNat 64 (host.htobe 8 host64.toNat)
def hostToNetwork32 (host32 : BitVec 32) : BitVec 32 := .ofNat 32 (host.htobe 4 host32.toNat)
def hostToNetwork16 (host16 : BitVec 16) : BitVec 16 := .ofNat 16 (host.htobe 2 host16.toNat)
def networkToHost64 (net64 : BitVec 64) : BitVec 64 := .ofNat 64 (host.betoh 8 net64.toNat)
def networkToHost32 (net32 : BitVec 32) : BitVec 32 := .ofNat 32 (host.betoh 4 net32.toNat)
def networkToHost16 (net16 : BitVec 16) : BitVec 16 := .ofNat 16 (host.betoh 2 net16.toNat)

/-! ## `Buffer.h` -/

/-- What lies in memory at the address that `appendIntN` and `prependIntN` pass on. -/
def converted : TypedInt → Bytes
  | ⟨.int64, x⟩ => host.memory 8 (hostToNetwork64 host x).toNat
  | ⟨.int32, x⟩ => host.memory 4 (hostToNetwork32 host x).toNat
  | ⟨.int16, x⟩ => host.memory 2 (hostToNetwork16 host x).toNat
  | ⟨.int8, x⟩ => host.memory 1 x.toNat

/-- What `peekIntN` makes of the bytes at `peek()`. -/
def fromNetwork : (t : IntType) → Bytes → t.Value
  | .int64, bs => networkToHost64 host (.ofNat 64 (host.load bs))
  | .int32, bs => networkToHost32 host (.ofNat 32 (host.load bs))
  | .int16, bs => networkToHost16 host (.ofNat 16 (host.load bs))
  | .int8, bs => .ofNat 8 (host.load bs)

namespace Buffer

/-- `appendInt8` to `appendInt64`. -/
def appendInt (b : Buffer) (v : TypedInt) : Buffer := b.append (converted host v)

/-- `peekInt8` to `peekInt64`. -/
def peekInt (b : Buffer) (t : IntType) : Option t.Value :=
  if t.size ≤ b.readableBytes then (b.peekRange t.size).map (fromNetwork host t) else none

/-- `readInt8` to `readInt64`: the value, and the buffer after `retrieveIntN`. -/
def readInt (b : Buffer) (t : IntType) : Option (t.Value × Buffer) :=
  (b.peekInt host t).map fun result => (result, b.retrieve t.size)

/-- `prependInt8` to `prependInt64`. -/
def prependInt (b : Buffer) (v : TypedInt) : Option Buffer :=
  if h : (converted host v).length ≤ b.prependableBytes then some (b.prepend _ h) else none

/-- `readIntN` for one type after the other. -/
def readInts (b : Buffer) : List IntType → Option (List TypedInt × Buffer)
  | [] => some ([], b)
  | t :: ts => do
    let (v, b) ← b.readInt host t
    let (vs, b) ← readInts b ts
    return (⟨t, v⟩ :: vs, b)

end Buffer

end

/-! ## The bytes of an integer -/

theorem encoding_eq (t : IntType) (x : t.Value) : encoding ⟨t, x⟩ = bigEndian t.size x.toNat := by
  have hpow : (256 : Int) ^ t.size = ((2 ^ (8 * t.size) : Nat) : Int) := by
    rw [Nat.pow_mul, Int.natCast_pow]
    rfl
  have hlt : x.toNat < 2 ^ (8 * t.size) := x.isLt
  have hemod : x.toInt % ((2 ^ (8 * t.size) : Nat) : Int) = x.toNat := by
    rw [BitVec.toInt_eq_toNat_bmod, Int.bmod_emod, ← Int.natCast_emod, Nat.mod_eq_of_lt hlt]
  unfold encoding
  dsimp only
  rw [hpow, hemod, Int.toNat_natCast]

@[simp] theorem length_encoding (v : TypedInt) : (encoding v).length = v.1.size :=
  length_bigEndian _ _

/-- The conversion of a number by a function of `Endian.h` keeps all of its bits. -/
theorem toNat_htobe (host : Order) (k : Nat) (x : BitVec (8 * k)) :
    (BitVec.ofNat (8 * k) (host.htobe k x.toNat)).toNat = host.htobe k x.toNat := by
  have hpow : 256 ^ k = 2 ^ (8 * k) := by rw [Nat.pow_mul]
  rw [BitVec.toNat_ofNat]
  exact Nat.mod_eq_of_lt (hpow ▸ htobe_lt host (hpow ▸ x.isLt))

theorem converted_eq (host : Order) (v : TypedInt) : converted host v = encoding v := by
  obtain ⟨t, x⟩ := v
  rw [encoding_eq]
  cases t with
  | int64 => exact (congrArg (host.memory 8) (toNat_htobe host 8 x)).trans (memory_htobe host 8 _)
  | int32 => exact (congrArg (host.memory 4) (toNat_htobe host 4 x)).trans (memory_htobe host 4 _)
  | int16 => exact (congrArg (host.memory 2) (toNat_htobe host 2 x)).trans (memory_htobe host 2 _)
  | int8 => cases host <;> rfl

/-- A number read from the network is the one whose bytes these are. -/
theorem networkToHost_eq (host : Order) {k : Nat} (x : BitVec (8 * k)) :
    BitVec.ofNat (8 * k) (host.betoh k
      (BitVec.ofNat (8 * k) (host.load (bigEndian k x.toNat))).toNat) = x := by
  have hpow : 256 ^ k = 2 ^ (8 * k) := by rw [Nat.pow_mul]
  have hlen := length_bigEndian k x.toNat
  apply BitVec.eq_of_toNat_eq
  rw [BitVec.toNat_ofNat, BitVec.toNat_ofNat, ← hpow, Nat.mod_eq_of_lt (load_lt host hlen),
    betoh_load host hlen, value_bigEndian, Nat.mod_mod, hpow]
  exact Nat.mod_eq_of_lt x.isLt

theorem fromNetwork_encoding (host : Order) (t : IntType) (x : t.Value) :
    fromNetwork host t (encoding ⟨t, x⟩) = x := by
  rw [encoding_eq]
  cases t with
  | int64 => exact networkToHost_eq (k := 8) host x
  | int32 => exact networkToHost_eq (k := 4) host x
  | int16 => exact networkToHost_eq (k := 2) host x
  | int8 =>
    have hbyte : host.load (bigEndian 1 x.toNat) = x.toNat := by
      have hvalue : value (bigEndian 1 x.toNat) = x.toNat := by
        rw [value_bigEndian]
        exact Nat.mod_eq_of_lt x.isLt
      cases host with
      | little => exact hvalue
      | big => exact hvalue
    show BitVec.ofNat 8 (host.load (bigEndian 1 x.toNat)) = x
    rw [hbyte]
    exact BitVec.eq_of_toNat_eq (Nat.mod_eq_of_lt x.isLt)

namespace Buffer

theorem readable_appendInt (host : Order) (b : Buffer) (v : TypedInt) :
    (b.appendInt host v).readable = b.readable ++ encoding v := by
  rw [appendInt, readable_append, converted_eq]

/-- Reading an integer takes its bytes off the front. -/
theorem readInt_of_readable (host : Order) {b : Buffer} {v : TypedInt} {rest : Bytes}
    (h : b.readable = encoding v ++ rest) :
    ∃ b', b.readInt host v.1 = some (v.2, b') ∧ b'.readable = rest := by
  have hsize : v.1.size ≤ b.readableBytes := by
    rw [← length_readable, h, List.length_append, length_encoding]
    exact Nat.le_add_right _ _
  refine ⟨b.retrieve v.1.size, ?_, ?_⟩
  · have htake : b.readable.take v.1.size = encoding v := by
      rw [h, List.take_left' (length_encoding v)]
    rw [readInt, peekInt, if_pos hsize, peekRange_of_le hsize, htake]
    exact congrArg (fun x => some (x, _)) (fromNetwork_encoding host v.1 v.2)
  · rw [readable_retrieve, h, List.drop_left' (length_encoding v)]

/-- Reading integers one after the other, from a buffer that begins with their bytes. -/
theorem readInts_of_readable (host : Order) (vs : List TypedInt) {b : Buffer} {rest : Bytes}
    (h : b.readable = vs.flatMap encoding ++ rest) :
    ∃ b', b.readInts host (vs.map (·.1)) = some (vs, b') ∧ b'.readable = rest := by
  induction vs generalizing b with
  | nil => exact ⟨b, rfl, h⟩
  | cons v vs ih =>
    rw [List.flatMap_cons, List.append_assoc] at h
    obtain ⟨b₁, hread, hrest⟩ := readInt_of_readable host h
    obtain ⟨b₂, hreads, hrest'⟩ := ih hrest
    refine ⟨b₂, ?_, hrest'⟩
    simp only [List.map_cons, readInts, hread, hreads, Option.bind_eq_bind, Option.bind_some]
    rfl

/-! ## Appending while the earlier content is retrieved -/

/-- One call before the reading begins. -/
inductive Filling
  | appendInt (v : TypedInt)
  | retrieve (len : Nat)

namespace Filling

/-- The integers appended. -/
def appended : List Filling → List TypedInt
  | [] => []
  | appendInt v :: es => v :: appended es
  | retrieve _ :: es => appended es

/-- How much is retrieved. -/
def retrieved : List Filling → Nat
  | [] => 0
  | appendInt _ :: es => retrieved es
  | retrieve len :: es => len + retrieved es

end Filling

/-- The calls one after the other; `none` once the assertion of `retrieve` fails. -/
def fill (host : Order) (b : Buffer) : List Filling → Option Buffer
  | [] => some b
  | .appendInt v :: es => fill host (b.appendInt host v) es
  | .retrieve len :: es => if len ≤ b.readableBytes then fill host (b.retrieve len) es else none

theorem fill_eq (host : Order) (es : List Filling) {b : Buffer}
    (h : Filling.retrieved es ≤ b.readableBytes) :
    ∃ b', b.fill host es = some b' ∧ b'.readable =
      b.readable.drop (Filling.retrieved es) ++ (Filling.appended es).flatMap encoding := by
  induction es generalizing b with
  | nil => exact ⟨b, rfl, (List.append_nil _).symm⟩
  | cons e es ih =>
    cases e with
    | appendInt v =>
      have hle : Filling.retrieved es ≤ b.readable.length := by rwa [length_readable]
      have hnext : Filling.retrieved es ≤ (b.appendInt host v).readableBytes := by
        rw [← length_readable, readable_appendInt, List.length_append]
        exact Nat.le_add_right_of_le hle
      obtain ⟨b', hfill, hread⟩ := ih hnext
      refine ⟨b', hfill, ?_⟩
      rw [hread, readable_appendInt, List.drop_append_of_le_length hle, List.append_assoc]
      rfl
    | retrieve len =>
      have h : len + Filling.retrieved es ≤ b.readableBytes := h
      have hnext : Filling.retrieved es ≤ (b.retrieve len).readableBytes := by
        rw [← length_readable, readable_retrieve, List.length_drop, length_readable]
        exact Nat.le_sub_of_add_le' h
      obtain ⟨b', hfill, hread⟩ := ih hnext
      refine ⟨b', ?_, ?_⟩
      · rw [fill, if_pos (Nat.le_of_add_right_le h)]
        exact hfill
      · rw [hread, readable_retrieve, List.drop_drop]
        rfl

/-- Integers appended are read back in their order, as the same signed values, once all that was in
the buffer has been retrieved, be that after the appending or in the course of it; and an integer
prepended is read back with the buffer as it was. -/
theorem typed_ints_survive (host : Order) :
    (∀ (b : Buffer) (es : List Filling), Filling.retrieved es = b.readableBytes →
      ∃ b', b.fill host es = some b' ∧ b'.readable = (Filling.appended es).flatMap encoding ∧
        ∃ b'', b'.readInts host ((Filling.appended es).map (·.1)) =
          some (Filling.appended es, b'') ∧ b''.readable = []) ∧
    ∀ (b : Buffer) (v : TypedInt), v.1.size ≤ b.prependableBytes →
      ∃ b', b.prependInt host v = some b' ∧ b'.readable = encoding v ++ b.readable ∧
        ∃ b'', b'.readInt host v.1 = some (v.2, b'') ∧ b''.readable = b.readable := by
  refine ⟨fun b es h => ?_, fun b v h => ?_⟩
  · obtain ⟨b', hfill, hread⟩ := fill_eq host es h.le
    rw [h, ← length_readable, List.drop_length, List.nil_append] at hread
    obtain ⟨b'', hreads, hrest⟩ := readInts_of_readable host (Filling.appended es)
      (hread.trans (List.append_nil _).symm)
    exact ⟨b', hfill, hread, b'', hreads, hrest⟩
  · have hlen : (converted host v).length ≤ b.prependableBytes := by
      rwa [converted_eq, length_encoding]
    have hread : (b.prepend _ hlen).readable = encoding v ++ b.readable := by
      rw [readable_prepend, converted_eq]
    obtain ⟨b'', hreads, hrest⟩ := readInt_of_readable host hread
    exact ⟨_, dif_pos hlen, hread, b'', hreads, hrest⟩

end Buffer

end Mymuduo
