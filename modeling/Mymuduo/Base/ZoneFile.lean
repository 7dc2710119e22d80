import Mymuduo.Lib.CInt
import Mymuduo.Lib.ByteOrder
import Mymuduo.Lib.Reading

/-!
# Reading a zone file

`detail::File` and `readTimeZoneFile` of `base/TimeZone.cc`. The tables of a `TimeZone::Data` are
filled while the file is read. A `logic_error` ends the reading and is caught, with the tables as
they are by then, and `true` is returned all the same. Where a table is indexed outside, or an array
of negative length is made, there is no result.

* `readTables_gives`: which contents are read to the end, and what the tables hold then.
* `abbreviation_of_error`: otherwise there is no abbreviation.
-/

namespace Mymuduo

open CString ByteOrder CInt Reading

namespace detail

/-- The times of a change, and the entry of `Data::localtimes` that holds from it on. -/
structure Transition where
  gmttime : Int
  localtime : Int
  localtimeIdx : Nat
  deriving DecidableEq, Repr

structure Localtime where
  gmtOffset : Int
  isDst : Bool
  arrbIdx : Nat
  deriving DecidableEq, Repr

end detail

open detail

/-- `TimeZone::Data` -/
structure TimeZone.Data where
  transitions : List Transition := []
  localtimes : List Localtime := []
  abbreviation : Bytes := []
  deriving DecidableEq, Repr

/-- How the reading ends early. -/
inductive ReadError
  | logic_error (what : Bytes)
  /-- behaviour that is not defined -/
  | undefined
  deriving DecidableEq, Repr

namespace detail

/-- What a function does to the file and the tables. -/
abbrev FileReading := Reading ReadError UInt8 TimeZone.Data

/-! ## `File` -/

/-- `char buf[n]`, `fread`. -/
def readBytes (n : Int) : FileReading Bytes :=
  if 0 ≤ n then do
    let buf ← next n.toNat
    if buf.length = n.toNat then return buf
    else throw (.logic_error (ascii "no enough data"))
  else throw .undefined

def readInt32 (host : Order) : FileReading Int := do
  let x ← next 4
  if x.length = 4 then return toInt (host.betoh 4 (host.load x))
  else throw (.logic_error (ascii "bad int32_t data"))

def readUInt8 : FileReading UInt8 := do
  let x ← next 1
  if x.length = 1 then return x.headD 0
  else throw (.logic_error (ascii "bad uint8_t data"))

/-! ## `readTimeZoneFile` -/

/-- The sizes that are used. -/
structure Sizes where
  timecnt : Int
  typecnt : Int
  charcnt : Int
  deriving DecidableEq, Repr

def readHead : FileReading Unit := do
  let head ← readBytes 4
  if head = ascii "TZif" then return ()
  else throw (.logic_error (ascii "bad head"))

/-- From the version to the last size. -/
def readSizes (host : Order) : FileReading Sizes := do
  let _version ← readBytes 1
  let _ ← readBytes 15
  let _isgmtcnt ← readInt32 host
  let _isstdcnt ← readInt32 host
  let _leapcnt ← readInt32 host
  let timecnt ← readInt32 host
  let typecnt ← readInt32 host
  let charcnt ← readInt32 host
  return ⟨timecnt, typecnt, charcnt⟩

/-- `reserve` of a vector, whose `length_error` is a `logic_error`. -/
def reserve (n : Int) : FileReading Unit :=
  if 0 ≤ n then return () else throw (.logic_error (ascii "vector::reserve"))

def readTrans (host : Order) (timecnt : Nat) : FileReading (List Int) :=
  loop (fun _ trans => do
    let t ← readInt32 host
    return trans ++ [t]) timecnt []

/-- The loop that fills the variable `localtimes`. -/
def readLocaltimes (timecnt : Nat) : FileReading (List UInt8) :=
  loop (fun _ localtimes => do
    let i ← readUInt8
    return localtimes ++ [i]) timecnt []

/-- A `Localtime`, as the file has it. -/
def readLocaltime (host : Order) : FileReading Localtime := do
  let gmtoff ← readInt32 host
  let isdst ← readUInt8
  let abbrind ← readUInt8
  return ⟨gmtoff, isdst != 0, abbrind.toNat⟩

def pushLocaltime (l : Localtime) (data : TimeZone.Data) : TimeZone.Data :=
  { data with localtimes := data.localtimes ++ [l] }

def pushTransition (t : Transition) (data : TimeZone.Data) : TimeZone.Data :=
  { data with transitions := data.transitions ++ [t] }

def readTypes (host : Order) (typecnt : Nat) : FileReading Unit :=
  loop (fun _ _ => do
    let l ← readLocaltime host
    update (pushLocaltime l)) typecnt ()

/-- `v[i]` -/
def index {α : Type} (v : List α) (i : Nat) : FileReading α :=
  match v[i]? with
  | some a => return a
  | none => throw .undefined

/-- One turn of the loop that fills `data->transitions`. -/
def addTransition (trans : List Int) (localtimes : List UInt8) (i : Nat) : FileReading Unit := do
  let localIdx ← index localtimes i
  let t ← index trans i
  let data ← filled
  let l ← index data.localtimes localIdx.toNat
  update (pushTransition ⟨t, t + l.gmtOffset, localIdx.toNat⟩)

/-- What comes after the sizes. The loop over the leap seconds is empty. -/
def readContents (host : Order) (n : Sizes) : FileReading Unit := do
  reserve n.timecnt
  let trans ← readTrans host n.timecnt.toNat
  let localtimes ← readLocaltimes n.timecnt.toNat
  readTypes host n.typecnt.toNat
  loop (fun i _ => addTransition trans localtimes i) n.timecnt.toNat ()
  let abbreviation ← readBytes n.charcnt
  update fun data => { data with abbreviation }

/-- The `try` block. -/
def readTables (host : Order) : FileReading Unit := do
  readHead
  let n ← readSizes host
  readContents host n

/-- `readTimeZoneFile`, of a file that cannot be opened or of its content. -/
def readTimeZoneFile (host : Order) (file : Option Bytes) (data : TimeZone.Data) :
    Option (Bool × TimeZone.Data) :=
  match file with
  | none => some (true, data)
  | some content =>
    match readTables host ⟨content, data⟩ with
    | .ok _ s => some (true, s.data)
    | .error (.logic_error _) s => some (true, s.data)
    | .error .undefined _ => none

end detail

/-! ## The layout of a file -/

namespace ZoneFile

/-- The number of four bytes, signed. -/
def int32At (bs : Bytes) : Int := toInt (value (bs.take 4))

def byteAt (bs : Bytes) : UInt8 := bs.headD 0

/-- The type that the bytes begin with. -/
def localtimeAt (bs : Bytes) : Localtime :=
  ⟨int32At bs, byteAt (bs.drop 4) != 0, (byteAt (bs.drop 5)).toNat⟩

def sizes (bs : Bytes) : Sizes :=
  ⟨int32At (bs.drop 32), int32At (bs.drop 36), int32At (bs.drop 40)⟩

/-- Where the types after the transitions are, where the types begin, and where the abbreviations
do. -/
def indices (n : Sizes) : Nat := 44 + 4 * n.timecnt.toNat
def types (n : Sizes) : Nat := indices n + n.timecnt.toNat
def abbreviations (n : Sizes) : Nat := types n + 6 * n.typecnt.toNat

variable (n : Sizes) (bs : Bytes)

/-! The tables of a file with the sizes `n`. -/

def time (i : Nat) : Int := int32At (bs.drop (44 + 4 * i))

def typeIndex (i : Nat) : UInt8 := byteAt (bs.drop (indices n + i))

def localtime (i : Nat) : Localtime := localtimeAt (bs.drop (types n + 6 * i))

def transition (i : Nat) : Transition :=
  ⟨time bs i, time bs i + (localtime n bs (typeIndex n bs i).toNat).gmtOffset,
    (typeIndex n bs i).toNat⟩

def data : TimeZone.Data where
  transitions := (List.range n.timecnt.toNat).map (transition n bs)
  localtimes := (List.range n.typecnt.toNat).map (localtime n bs)
  abbreviation := (bs.drop (abbreviations n)).take n.charcnt.toNat

/-- The file is as long as the sizes say, and every index of a transition is one of a type. -/
structure Complete : Prop where
  header : 44 ≤ bs.length
  magic : bs.take 4 = ascii "TZif"
  times : 0 ≤ n.timecnt
  chars : 0 ≤ n.charcnt
  length : abbreviations n + n.charcnt.toNat ≤ bs.length
  indexed : ∀ i < n.timecnt.toNat, (typeIndex n bs i).toNat < n.typecnt.toNat

/-- A file that can be used: there is a type, and every type has an abbreviation. -/
structure WellFormed : Prop extends Complete n bs where
  types : 0 < n.typecnt
  abbrinds : ∀ i < n.typecnt.toNat, (localtime n bs i).arrbIdx < n.charcnt.toNat

end ZoneFile

namespace detail

open ZoneFile

/-! ## The elementary functions -/

/-- `fread` of `n` bytes, checked, and what is made of them. -/
theorem checked_record {α : Type} (n : Nat) (e : ReadError) (f : Bytes → α) :
    IsRecord (do
      let x ← (next n : FileReading Bytes)
      if x.length = n then return f x else throw e) n fun bs => f (bs.take n) := fun s => by
  refine ((Gives.next n s).bind (.check (fun _ => .pure _ _) e)).congr ?_ fun _ => ⟨rfl, rfl⟩
  rw [true_and, and_true, List.length_take]
  omega

theorem readBytes_gives (n : Int) (s : Cursor UInt8 TimeZone.Data) :
    Gives (readBytes n) s (0 ≤ n ∧ n.toNat ≤ s.rest.length) (s.rest.take n.toNat)
      { s with rest := s.rest.drop n.toNat } :=
  .check (fun _ => checked_record n.toNat _ (fun x => x) s) _

theorem readBytes_record (n : Nat) : IsRecord (readBytes n) n fun bs => bs.take n := fun s =>
  (readBytes_gives n s).congr (and_iff_right (Int.natCast_nonneg n)) fun _ => ⟨rfl, rfl⟩

theorem readInt32_record (host : Order) : IsRecord (readInt32 host) 4 int32At :=
  (checked_record 4 _ fun x => toInt (host.betoh 4 (host.load x))).congr fun bs hbs => by
    rw [betoh_load host (List.length_take_of_le hbs)]
    rfl

theorem readUInt8_record : IsRecord readUInt8 1 byteAt :=
  (checked_record 1 _ fun x => x.headD 0).congr fun bs _ => by
    cases bs with
    | nil => rfl
    | cons b bs => rfl

theorem readHead_gives (s : Cursor UInt8 TimeZone.Data) :
    Gives readHead s (4 ≤ s.rest.length ∧ s.rest.take 4 = ascii "TZif") ()
      { s with rest := s.rest.drop 4 } :=
  ((readBytes_record 4 s).bind (.check (fun _ => .pure () _) _)).congr (by rw [and_true])
    fun _ => ⟨rfl, rfl⟩

theorem readSizes_record (host : Order) : IsRecord (readSizes host) 40 fun bs =>
    ⟨int32At (bs.drop 28), int32At (bs.drop 32), int32At (bs.drop 36)⟩ := by
  have hint := readInt32_record host
  have hsizes := (readBytes_record 1).bind fun _ => (readBytes_record 15).bind fun _ =>
    hint.bind fun _ => hint.bind fun _ => hint.bind fun _ => hint.bind fun timecnt =>
    hint.bind fun typecnt => hint.bind fun charcnt =>
      IsRecord.pure (Sizes.mk timecnt typecnt charcnt)
  simp only [List.drop_drop] at hsizes
  exact hsizes

theorem reserve_gives (n : Int) (s : Cursor UInt8 TimeZone.Data) :
    Gives (reserve n) s (0 ≤ n) () s :=
  (Gives.check (fun _ => .pure () s) _).congr (and_iff_left trivial) fun _ => ⟨rfl, rfl⟩

theorem readLocaltime_record (host : Order) : IsRecord (readLocaltime host) 6 localtimeAt := by
  have hrecord := (readInt32_record host).bind fun gmtoff => readUInt8_record.bind fun isdst =>
    readUInt8_record.bind fun abbrind =>
      IsRecord.pure (Localtime.mk gmtoff (isdst != 0) abbrind.toNat)
  simp only [List.drop_drop] at hrecord
  exact hrecord

/-! ## The loops -/

theorem foldl_pushLocaltime (ls : List Localtime) (data : TimeZone.Data) :
    ls.foldl (fun d l => pushLocaltime l d) data =
      { data with localtimes := data.localtimes ++ ls } := by
  induction ls generalizing data with
  | nil => simp
  | cons l ls ih =>
    rw [List.foldl_cons, ih, pushLocaltime, List.append_assoc]
    rfl

theorem index_range_gives {α : Type} (f : Nat → α) (n i : Nat)
    (s : Cursor UInt8 TimeZone.Data) :
    Gives (index ((List.range n).map f) i) s (i < n) (f i) s := by
  unfold index
  rw [List.getElem?_map]
  by_cases hlt : i < n
  · rw [List.getElem?_range hlt]
    exact (Gives.pure (f i) s).congr (iff_of_true trivial hlt) fun _ => ⟨rfl, rfl⟩
  · rw [List.getElem?_eq_none (by rwa [List.length_range, ← Nat.not_lt])]
    exact (Gives.throw _ (f i) s s).congr (iff_of_false id hlt) nofun

section

variable {n m : Nat} (trans : Nat → Int) (localtimes : Nat → UInt8) (types : Nat → Localtime)

/-- One turn of the last loop, where the lists and the types are tables. -/
theorem addTransition_gives {i : Nat} (hi : i < n) (s : Cursor UInt8 TimeZone.Data)
    (hs : s.data.localtimes = (List.range m).map types) :
    Gives (addTransition ((List.range n).map trans) ((List.range n).map localtimes) i) s
      ((localtimes i).toNat < m) ()
      ⟨s.rest, pushTransition ⟨trans i, trans i + (types (localtimes i).toNat).gmtOffset,
        (localtimes i).toNat⟩ s.data⟩ := by
  have hentry := index_range_gives types m (localtimes i).toNat s
  rw [← hs] at hentry
  have hlocal := index_range_gives localtimes n i s
  have htrans := index_range_gives trans n i s
  unfold addTransition
  refine (hlocal.bind (htrans.bind ((Gives.filled s).bind (hentry.bind (.update _ s))))).congr ?_
    fun _ => ⟨rfl, rfl⟩
  simp only [hi, true_and, and_true]

theorem addTransitions_gives {k : Nat} (hk : k ≤ n) (s : Cursor UInt8 TimeZone.Data)
    (hs : s.data.localtimes = (List.range m).map types) :
    Gives (loop (fun i _ => addTransition ((List.range n).map trans)
      ((List.range n).map localtimes) i) k ()) s (∀ i < k, (localtimes i).toNat < m) ()
      ⟨s.rest, { s.data with transitions := s.data.transitions ++ (List.range k).map fun i =>
        ⟨trans i, trans i + (types (localtimes i).toNat).gmtOffset, (localtimes i).toNat⟩ }⟩ := by
  induction k with
  | zero =>
    refine (Gives.pure () s).congr (iff_of_true trivial nofun) fun _ => ⟨rfl, ?_⟩
    simp
  | succ k ih =>
    have hstep := addTransition_gives trans localtimes types hk
      ⟨s.rest, { s.data with transitions := s.data.transitions ++ (List.range k).map fun i =>
        ⟨trans i, trans i + (types (localtimes i).toNat).gmtOffset, (localtimes i).toNat⟩ }⟩ hs
    refine ((ih (Nat.le_of_succ_le hk)).bind hstep).congr ?_ fun _ => ⟨rfl, ?_⟩
    · exact Nat.forall_lt_succ_right.symm
    · rw [List.range_succ, List.map_append, ← List.append_assoc]
      rfl

end

/-! ## The whole file -/

theorem readTrans_at (host : Order) (bs : Bytes) (at_ n : Nat) (data : TimeZone.Data) :
    Gives (readTrans host n) ⟨bs.drop at_, data⟩ (4 * n ≤ (bs.drop at_).length)
      ((List.range n).map fun i => int32At (bs.drop (at_ + 4 * i)))
      ⟨bs.drop (at_ + 4 * n), data⟩ :=
  ((readInt32_record host).table n ⟨bs.drop at_, data⟩).congr Iff.rfl fun _ =>
    ⟨by simp only [records, List.drop_drop], by rw [List.drop_drop]⟩

theorem readLocaltimes_at (bs : Bytes) (at_ n : Nat) (data : TimeZone.Data) :
    Gives (readLocaltimes n) ⟨bs.drop at_, data⟩ (1 * n ≤ (bs.drop at_).length)
      ((List.range n).map fun i => byteAt (bs.drop (at_ + i))) ⟨bs.drop (at_ + n), data⟩ :=
  (readUInt8_record.table n ⟨bs.drop at_, data⟩).congr Iff.rfl fun _ =>
    ⟨by simp only [records, List.drop_drop, Nat.one_mul], by rw [List.drop_drop, Nat.one_mul]⟩

theorem readTypes_at (host : Order) (bs : Bytes) (at_ n : Nat) :
    Gives (readTypes host n) ⟨bs.drop at_, {}⟩ (6 * n ≤ (bs.drop at_).length) ()
      ⟨bs.drop (at_ + 6 * n),
        { localtimes := (List.range n).map fun i => localtimeAt (bs.drop (at_ + 6 * i)) }⟩ :=
  ((readLocaltime_record host).fill pushLocaltime n ⟨bs.drop at_, {}⟩).congr Iff.rfl
    fun _ => ⟨rfl, by
      simp only [foldl_pushLocaltime, records, List.drop_drop, List.nil_append]⟩

/-- There is room for all of it if there is room for each. -/
theorem room_iff (len t y c : Nat) :
    4 ≤ len ∧ 40 ≤ len - 4 ∧ 4 * t ≤ len - 44 ∧ 1 * t ≤ len - (44 + 4 * t) ∧
      6 * y ≤ len - (44 + 4 * t + t) ∧ c ≤ len - (44 + 4 * t + t + 6 * y) ↔
    44 ≤ len ∧ 44 + 4 * t + t + 6 * y + c ≤ len := by
  omega

theorem complete_iff (n : Sizes) (bs : Bytes) : Complete n bs ↔
    (4 ≤ bs.length ∧ bs.take 4 = ascii "TZif") ∧ 40 ≤ (bs.drop 4).length ∧ 0 ≤ n.timecnt ∧
      4 * n.timecnt.toNat ≤ (bs.drop 44).length ∧
      1 * n.timecnt.toNat ≤ (bs.drop (indices n)).length ∧
      6 * n.typecnt.toNat ≤ (bs.drop (types n)).length ∧
      (∀ i < n.timecnt.toNat, (typeIndex n bs i).toNat < n.typecnt.toNat) ∧
      0 ≤ n.charcnt ∧ n.charcnt.toNat ≤ (bs.drop (abbreviations n)).length := by
  have hroom := room_iff bs.length n.timecnt.toNat n.typecnt.toNat n.charcnt.toNat
  simp only [List.length_drop]
  constructor
  · rintro ⟨hheader, hmagic, htimes, hchars, hlength, hindexed⟩
    obtain ⟨hhead, hsizes, htrans, hlocal, htypes, habbr⟩ := hroom.mpr ⟨hheader, hlength⟩
    exact ⟨⟨hhead, hmagic⟩, hsizes, htimes, htrans, hlocal, htypes, hindexed, hchars, habbr⟩
  · rintro ⟨⟨hhead, hmagic⟩, hsizes, htimes, htrans, hlocal, htypes, hindexed, hchars, habbr⟩
    obtain ⟨hheader, hlength⟩ := hroom.mp ⟨hhead, hsizes, htrans, hlocal, htypes, habbr⟩
    exact ⟨hheader, hmagic, htimes, hchars, hlength, hindexed⟩

theorem readContents_gives (host : Order) (n : Sizes) (bs : Bytes) :
    Gives (readContents host n) ⟨bs.drop 44, {}⟩ (0 ≤ n.timecnt ∧
        4 * n.timecnt.toNat ≤ (bs.drop 44).length ∧
        1 * n.timecnt.toNat ≤ (bs.drop (indices n)).length ∧
        6 * n.typecnt.toNat ≤ (bs.drop (types n)).length ∧
        (∀ i < n.timecnt.toNat, (typeIndex n bs i).toNat < n.typecnt.toNat) ∧
        0 ≤ n.charcnt ∧ n.charcnt.toNat ≤ (bs.drop (abbreviations n)).length) ()
      ⟨bs.drop (abbreviations n + n.charcnt.toNat), ZoneFile.data n bs⟩ := by
  have htrans := readTrans_at host bs 44 n.timecnt.toNat {}
  have hlocal := readLocaltimes_at bs (indices n) n.timecnt.toNat {}
  have htypes := readTypes_at host bs (types n) n.typecnt.toNat
  have htransitions := addTransitions_gives (time bs) (typeIndex n bs) (localtime n bs)
    (Nat.le_refl n.timecnt.toNat) ⟨bs.drop (abbreviations n),
      { localtimes := (List.range n.typecnt.toNat).map (localtime n bs) }⟩ rfl
  refine ((reserve_gives _ _).bind (htrans.bind (hlocal.bind (htypes.bind (htransitions.bind
    ((readBytes_gives _ _).bind (Gives.update _ _))))))).congr (by rw [and_true])
    fun _ => ⟨rfl, ?_⟩
  rw [List.drop_drop]
  rfl

theorem readTables_gives (host : Order) (bs : Bytes) :
    Gives (readTables host) ⟨bs, {}⟩ (Complete (sizes bs) bs) ()
      ⟨bs.drop (abbreviations (sizes bs) + (sizes bs).charcnt.toNat),
        ZoneFile.data (sizes bs) bs⟩ := by
  have hsizes : Gives (readSizes host) ⟨bs.drop 4, {}⟩ (40 ≤ (bs.drop 4).length) (sizes bs)
      ⟨bs.drop 44, {}⟩ :=
    (readSizes_record host ⟨bs.drop 4, {}⟩).congr Iff.rfl fun _ =>
      ⟨by simp only [List.drop_drop]; rfl, by rw [List.drop_drop]⟩
  refine ((readHead_gives ⟨bs, {}⟩).bind (hsizes.bind (readContents_gives host (sizes bs) bs))).congr
    ?_ fun _ => ⟨rfl, rfl⟩
  rw [complete_iff]

/-! ## What an error leaves -/

theorem keeps_readBytes {κ : Type} (f : TimeZone.Data → κ) (n : Int) : Keeps f (readBytes n) :=
  .ite (.bind (.next _) fun _ => .ite (.pure _) (.throw _)) (.throw _)

theorem keeps_readInt32 {κ : Type} (f : TimeZone.Data → κ) (host : Order) :
    Keeps f (readInt32 host) :=
  .bind (.next 4) fun _ => .ite (.pure _) (.throw _)

theorem keeps_readUInt8 {κ : Type} (f : TimeZone.Data → κ) : Keeps f readUInt8 :=
  .bind (.next 1) fun _ => .ite (.pure _) (.throw _)

theorem keeps_readSizes {κ : Type} (f : TimeZone.Data → κ) (host : Order) :
    Keeps f (readSizes host) := by
  have hint := keeps_readInt32 f host
  exact (keeps_readBytes f 1).bind fun _ => (keeps_readBytes f 15).bind fun _ => hint.bind fun _ =>
    hint.bind fun _ => hint.bind fun _ => hint.bind fun _ => hint.bind fun _ => hint.bind fun _ =>
      .pure _

theorem keeps_index {κ α : Type} (f : TimeZone.Data → κ) (v : List α) (i : Nat) :
    Keeps f (index v i) := by
  unfold index
  split
  · exact .pure _
  · exact .throw _

/-- The loops fill the other tables. -/
theorem keeps_addTransition (trans : List Int) (localtimes : List UInt8) (i : Nat) :
    Keeps TimeZone.Data.abbreviation (addTransition trans localtimes i) :=
  (keeps_index _ _ _).bind fun _ => (keeps_index _ _ _).bind fun _ => Keeps.filled.bind fun _ =>
    (keeps_index _ _ _).bind fun _ => .update fun _ => rfl

theorem keeps_readLocaltime {κ : Type} (f : TimeZone.Data → κ) (host : Order) :
    Keeps f (readLocaltime host) :=
  (keeps_readInt32 f host).bind fun _ => (keeps_readUInt8 f).bind fun _ =>
    (keeps_readUInt8 f).bind fun _ => .pure _

theorem keeps_readTypes (host : Order) (n : Nat) :
    Keeps TimeZone.Data.abbreviation (readTypes host n) :=
  .loop (fun _ _ => (keeps_readLocaltime _ host).bind fun l =>
    .update (g := pushLocaltime l) fun _ => rfl) n ()

/-- The abbreviation is filled last, by what cannot fail. -/
theorem abbreviation_of_error {host : Order} {s s' : Cursor UInt8 TimeZone.Data} {e : ReadError}
    (h : readTables host s = .error e s') : s'.data.abbreviation = s.data.abbreviation := by
  have hcontents : ∀ n, FailsKeeping TimeZone.Data.abbreviation (readContents host n) := fun n =>
    Keeps.bind_fails (.ite (.pure _) (.throw _)) fun _ =>
    Keeps.bind_fails (.loop (fun _ _ => (keeps_readInt32 _ host).bind fun _ => .pure _) _ _) fun _ =>
    Keeps.bind_fails (.loop (fun _ _ => (keeps_readUInt8 _).bind fun _ => .pure _) _ _) fun _ =>
    Keeps.bind_fails (keeps_readTypes host _) fun _ =>
    Keeps.bind_fails (.loop (fun i _ => keeps_addTransition _ _ i) _ _) fun _ =>
    Keeps.bind_fails (keeps_readBytes _ _) fun _ => nofun
  have htables : FailsKeeping TimeZone.Data.abbreviation (readTables host) :=
    Keeps.bind_fails ((keeps_readBytes _ 4).bind fun _ => .ite (.pure _) (.throw _)) fun _ =>
    Keeps.bind_fails (keeps_readSizes _ host) hcontents
  exact htables s e s' h

end detail

end Mymuduo
