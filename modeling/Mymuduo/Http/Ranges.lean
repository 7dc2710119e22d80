import Mymuduo.Http.FileServer

/-!
# `Range` fields

What `setResponseBody` makes of a `Range` field. It drops six bytes, cuts the rest at its first dash
and reads the two pieces with `stoi` (`rangeOf_eq_ok`), so that a number must be one of an `int`.
The last byte is taken as it is asked for, even if the file ends before it, and only the length that
is handed to `sendFile` goes through a cast to `int`. Whether `open(2)` has found the file it does
not look at.

* `resolves_iff`: the ranges of a file that come out as they should.
* `resolves_fails`: one that ends behind the file, one that begins too far in, and one of a file
  that cannot be opened.
-/

namespace Mymuduo

open CString Lines

/-! ## Reading a field -/

/-- What stands before and behind the first dash; without one, both are the whole value. -/
def pieces (range : Bytes) : Bytes × Bytes :=
  (cutByte DASH (range.drop 6)).getD (range.drop 6, range.drop 6)

/-- The piece begins with a number that an `int` holds, or there is none. -/
def Readable (piece : Bytes) : Prop :=
  piece = [] ∨ ∃ v, strto piece = some v ∧ -2 ^ 31 ≤ v ∧ v < 2 ^ 31

/-- Nothing throws on the field. -/
structure ReadableRange (range : Bytes) : Prop where
  unit : 6 ≤ range.length
  before : Readable (pieces range).1
  behind : Readable (pieces range).2

theorem Readable.fits {piece : Bytes} (h : Readable piece) {v : Int} (hv : strto piece = some v) :
    -2 ^ 31 ≤ v ∧ v < 2 ^ 31 := by
  rcases h with rfl | ⟨w, hw, hfits⟩
  · cases hv
  · cases hw.symm.trans hv
    exact hfits

/-- The first and the last byte for the numbers that are read. -/
def bounds (len : Int) : Option Int → Option Int → Int × Int
  | some x, some y => (x, y)
  | some x, none => (x, len - 1)
  | none, some y => (len - y, len - 1)
  | none, none => (0, 0)

theorem readable_iff {piece : Bytes} (h : piece ≠ []) :
    Readable piece ↔ ∃ v, stoi piece = .ok v := by
  simp only [Readable, h, false_or, stoi_eq_ok]

/-- A field is read exactly if nothing throws on it, and then by the numbers in it. -/
theorem rangeOf_eq_ok {len : Int} {range : Bytes} {p : Int × Int} :
    rangeOf len range = .ok p ↔
      ReadableRange range ∧ p = bounds len (strto (pieces range).1) (strto (pieces range).2) := by
  have hread : ReadableRange range ↔
      6 ≤ range.length ∧ Readable (pieces range).1 ∧ Readable (pieces range).2 :=
    ⟨fun h => ⟨h.1, h.2, h.3⟩, fun h => ⟨h.1, h.2.1, h.2.2⟩⟩
  rw [hread]
  unfold rangeOf
  by_cases hlen : range.length < 6
  · rw [if_pos hlen]
    exact ⟨nofun, fun h => absurd h.1.1 (by omega)⟩
  · rw [if_neg hlen, and_iff_right (by omega : 6 ≤ range.length)]
    unfold pieces
    dsimp only
    generalize (cutByte DASH (range.drop 6)).getD (range.drop 6, range.drop 6) = q
    obtain ⟨s, t⟩ := q
    dsimp only
    by_cases hs : s = [] <;> by_cases ht : t = []
    · subst hs ht
      rw [if_neg (by simp), if_neg (by simp), if_neg (by simp)]
      constructor
      · rintro ⟨⟩
        exact ⟨⟨.inl rfl, .inl rfl⟩, rfl⟩
      · rintro ⟨-, rfl⟩
        rfl
    · subst hs
      rw [if_neg (by simp), if_neg (by simp), if_pos ht, readable_iff ht]
      constructor
      · intro h
        obtain ⟨y, hy, ⟨⟩⟩ := except_bind_eq_ok.mp h
        exact ⟨⟨.inl rfl, y, hy⟩, by rw [(stoi_eq_ok.mp hy).1]; rfl⟩
      · rintro ⟨⟨-, y, hy⟩, rfl⟩
        rw [(stoi_eq_ok.mp hy).1]
        exact except_bind_eq_ok.mpr ⟨y, hy, rfl⟩
    · subst ht
      rw [if_neg (by simp), if_pos hs, readable_iff hs]
      constructor
      · intro h
        obtain ⟨x, hx, ⟨⟩⟩ := except_bind_eq_ok.mp h
        exact ⟨⟨⟨x, hx⟩, .inl rfl⟩, by rw [(stoi_eq_ok.mp hx).1]; rfl⟩
      · rintro ⟨⟨⟨x, hx⟩, -⟩, rfl⟩
        rw [(stoi_eq_ok.mp hx).1]
        exact except_bind_eq_ok.mpr ⟨x, hx, rfl⟩
    · rw [if_pos ⟨hs, ht⟩, readable_iff hs, readable_iff ht]
      constructor
      · intro h
        obtain ⟨x, hx, h⟩ := except_bind_eq_ok.mp h
        obtain ⟨y, hy, ⟨⟩⟩ := except_bind_eq_ok.mp h
        exact ⟨⟨⟨x, hx⟩, y, hy⟩, by rw [(stoi_eq_ok.mp hx).1, (stoi_eq_ok.mp hy).1]; rfl⟩
      · rintro ⟨⟨⟨x, hx⟩, y, hy⟩, rfl⟩
        rw [(stoi_eq_ok.mp hx).1, (stoi_eq_ok.mp hy).1]
        exact except_bind_eq_ok.mpr ⟨x, hx, except_bind_eq_ok.mpr ⟨y, hy, rfl⟩⟩

/-! ## The ranges of a file -/

/-- What a well-formed field asks for: from byte `a` to byte `b`, from byte `a` on, or the last `n`
bytes. -/
inductive ByteRange
  | fromTo (a b : Nat)
  | fromOn (a : Nat)
  | last (n : Nat)

theorem dash_notMem {s : Bytes} {n : Nat} (h : IsDecimal s n) : DASH ∉ s := fun hm =>
  absurd (h.digits DASH hm) (by decide)

/-- The text of a number, or nothing. -/
inductive NumberText : Option Nat → Bytes → Prop
  | none : NumberText none []
  | some {n : Nat} {s : Bytes} (h : IsDecimal s n) : NumberText (some n) s

theorem NumberText.readable_iff {o : Option Nat} {s : Bytes} (h : NumberText o s) :
    Readable s ↔ ∀ n ∈ o, n < 2 ^ 31 := by
  cases h with
  | none => exact ⟨fun _ => nofun, fun _ => .inl rfl⟩
  | @some n s h =>
    rw [Mymuduo.readable_iff h.ne_nil, h.stoi_eq]
    simp only [Option.mem_def, Option.some.injEq, forall_eq']
    constructor
    · rintro ⟨v, hv⟩
      by_contra hlarge
      rw [if_neg hlarge] at hv
      cases hv
    · exact fun hsmall => ⟨n, if_pos hsmall⟩

theorem NumberText.strto_eq {o : Option Nat} {s : Bytes} (h : NumberText o s) :
    strto s = o.map Nat.cast := by
  cases h with
  | none => rfl
  | some h => exact h.strto_eq

namespace ByteRange

/-- The field says so, with leading zeros or without. -/
inductive Spells : ByteRange → Bytes → Prop
  | fromTo {s t : Bytes} {a b : Nat} (hs : IsDecimal s a) (ht : IsDecimal t b) :
    Spells (.fromTo a b) (ascii "bytes=" ++ (s ++ DASH :: t))
  | fromOn {s : Bytes} {a : Nat} (hs : IsDecimal s a) :
    Spells (.fromOn a) (ascii "bytes=" ++ (s ++ [DASH]))
  | last {t : Bytes} {n : Nat} (ht : IsDecimal t n) : Spells (.last n) (ascii "bytes=" ++ DASH :: t)

/-- A file of `size` bytes has some of these. -/
def Satisfiable (size : Nat) : ByteRange → Prop
  | .fromTo a b => a ≤ b ∧ a < size
  | .fromOn a => a < size
  | .last n => 1 ≤ n ∧ 0 < size

/-- The first byte of the file that is asked for, if any is. -/
def firstByte (size : Nat) : ByteRange → Nat
  | .fromTo a _ => a
  | .fromOn a => a
  | .last n => size - n

/-- The last one. -/
def lastByte (size : Nat) : ByteRange → Nat
  | .fromTo _ b => min b (size - 1)
  | _ => size - 1

/-- The range lies in the file, and its numbers and its length are those of an `int`. -/
def Held (size : Nat) : ByteRange → Prop
  | .fromTo a b => b < size ∧ b < 2 ^ 31 ∧ b - a + 1 < 2 ^ 31
  | .fromOn a => a < 2 ^ 31 ∧ size - a < 2 ^ 31
  | .last n => n ≤ size ∧ n < 2 ^ 31

/-- The numbers in front of the dash and behind it. -/
def numbers : ByteRange → Option Nat × Option Nat
  | .fromTo a b => (some a, some b)
  | .fromOn a => (some a, none)
  | .last n => (none, some n)

/-- A field that says so is cut into the texts of these numbers. -/
theorem Spells.pieces {r : ByteRange} {range : Bytes} (h : r.Spells range) :
    6 ≤ range.length ∧ NumberText r.numbers.1 (pieces range).1 ∧
      NumberText r.numbers.2 (pieces range).2 := by
  have hunit : (ascii "bytes=").length = 6 := by decide
  have hdrop : ∀ v, (ascii "bytes=" ++ v).drop 6 = v := fun v => List.drop_left' hunit
  have hlen : ∀ v, 6 ≤ (ascii "bytes=" ++ v).length := fun v => by
    rw [List.length_append, hunit]
    omega
  cases h with
  | @fromTo s t _ _ hs ht =>
    have hcut : Mymuduo.pieces (ascii "bytes=" ++ (s ++ DASH :: t)) = (s, t) := by
      rw [Mymuduo.pieces, hdrop, cutByte_append (dash_notMem hs), Option.getD_some]
    rw [hcut]
    exact ⟨hlen _, .some hs, .some ht⟩
  | @fromOn s _ hs =>
    have hcut : Mymuduo.pieces (ascii "bytes=" ++ (s ++ [DASH])) = (s, []) := by
      rw [Mymuduo.pieces, hdrop, cutByte_append (dash_notMem hs), Option.getD_some]
    rw [hcut]
    exact ⟨hlen _, .some hs, .none⟩
  | @last t _ ht =>
    have hcut : Mymuduo.pieces (ascii "bytes=" ++ DASH :: t) = ([], t) := by
      have hfirst := cutByte_append (b := DASH) (l := []) List.not_mem_nil t
      rw [Mymuduo.pieces, hdrop, ← List.nil_append (DASH :: t), hfirst, Option.getD_some]
    rw [hcut]
    exact ⟨hlen _, .none, .some ht⟩

/-- The numbers are those of an `int`. -/
def Ints (r : ByteRange) : Prop :=
  (∀ n ∈ r.numbers.1, n < 2 ^ 31) ∧ ∀ n ∈ r.numbers.2, n < 2 ^ 31

/-- `rangeOf` on a well-formed field. -/
theorem Spells.rangeOf_eq_ok {r : ByteRange} {range : Bytes} (h : r.Spells range) {len : Int}
    {p : Int × Int} : rangeOf len range = .ok p ↔
      r.Ints ∧ p = bounds len (r.numbers.1.map Nat.cast) (r.numbers.2.map Nat.cast) := by
  obtain ⟨hlen, hbefore, hbehind⟩ := h.pieces
  have hread : ReadableRange range ↔ r.Ints := by
    rw [Ints, ← hbefore.readable_iff, ← hbehind.readable_iff]
    exact ⟨fun h => ⟨h.before, h.behind⟩, fun h => ⟨hlen, h.1, h.2⟩⟩
  rw [Mymuduo.rangeOf_eq_ok, hread, hbefore.strto_eq, hbehind.strto_eq]

end ByteRange

/-! ## The response -/

/-- The answer to a `Range` field on a regular file, if nothing throws. -/
theorem FileServer.setResponseBody_range {server : FileServer} {fs : FileSystem}
    {req : HttpRequest} {res : HttpResponse} {size : Nat} {hsize : size < 2 ^ 63}
    (hstat : fs.stat (c_str (server.path req)) = some (.regular size hsize))
    (hne : req.getHeader (ascii "Range") ≠ []) {body : Body} :
    (server.setResponseBody fs req res).2 = some body ↔
      ∃ beg_num end_num, rangeOf size (req.getHeader (ascii "Range")) = .ok (beg_num, end_num) ∧
        rangeBody (fs.opened (c_str (server.path req))) size beg_num end_num
          (fileHead fs (c_str (server.path req)) req res) = body := by
  simp only [FileServer.setResponseBody, hstat, fileBody, hne, ne_eq, not_false_eq_true, if_true]
  cases rangeOf size (req.getHeader (ascii "Range")) with
  | error e => exact ⟨nofun, nofun⟩
  | ok p =>
    constructor
    · rintro ⟨⟩
      exact ⟨p.1, p.2, rfl, rfl⟩
    · rintro ⟨beg_num, end_num, ⟨⟩, rfl⟩
      rfl

/-- A `206` for the bytes from `first` to `last` of a file of `size` bytes, which was opened to send
them. -/
structure Resolved (contents : Bytes) (size first last : Nat) (body : Body) : Prop where
  within : first ≤ last ∧ last < size
  status : body.response.statusCode_ = k206Partitial
  contentRange : body.response.headers_[ascii "Content-Range"]? =
    some (ascii "bytes " ++ natText first ++ ascii "-" ++ natText last ++ ascii "/" ++
      natText size)
  contentLength : body.response.headers_[ascii "Content-Length"]? =
    some (natText (last - first + 1))
  sendLen : body.response.len_ = (last - first + 1 : Nat)
  needLen : castSize body.response.len_ = last - first + 1
  opened : body.response.needSendFile = true
  file : body.file = some (contents.drop first)

theorem contentLength_rangeBody (file : Option Bytes) (len beg_num end_num : Int)
    (res : HttpResponse) : (rangeBody file len beg_num end_num
      res).response.headers_[ascii "Content-Length"]? = some (intText (end_num - beg_num + 1)) :=
  (HttpResponse.getElem?_addHeader _ _ _ _).trans (if_pos rfl)

theorem contentRange_rangeBody (file : Option Bytes) (len beg_num end_num : Int)
    (res : HttpResponse) : (rangeBody file len beg_num end_num
      res).response.headers_[ascii "Content-Range"]? =
        some (ascii "bytes " ++ intText beg_num ++ ascii "-" ++ intText end_num ++ ascii "/" ++
          intText len) := by
  have hlast : beg_num + (end_num - beg_num + 1) - 1 = end_num := by omega
  refine (HttpResponse.getElem?_addHeader _ _ _ _).trans ((if_neg (by decide)).trans ?_)
  refine (HttpResponse.getElem?_addHeader _ _ _ _).trans ((if_pos rfl).trans ?_)
  rw [hlast]

theorem resolved_rangeBody (contents : Bytes) {size first last : Nat} {res : HttpResponse}
    (hopened : res.needSendFile = true) (hwithin : first ≤ last ∧ last < size)
    (hlen : last - first + 1 < 2 ^ 31) :
    Resolved contents size first last (rangeBody (some contents) size first last res) := by
  have hneed : (last : Int) - first + 1 = (last - first + 1 : Nat) := by omega
  have hsend : (rangeBody (some contents) size first last res).response.len_ =
      (last - first + 1 : Nat) := by
    show castInt ((last : Int) - first + 1) = _
    rw [hneed, castInt_eq (by omega) (by omega)]
  refine ⟨hwithin, rfl, ?_, ?_, hsend, ?_, hopened, ?_⟩
  · rw [contentRange_rangeBody, intText_natCast, intText_natCast, intText_natCast]
  · rw [contentLength_rangeBody, hneed, intText_natCast]
  · rw [hsend, castSize_natCast (by omega)]
  · show some (contents.drop (first : Int).toNat) = _
    rw [Int.toNat_natCast]

/-- The length says how far the bounds are apart, and an `int` holds it. -/
theorem Resolved.length {contents : Bytes} {size first last : Nat} {file : Option Bytes}
    {beg_num end_num : Int} {res : HttpResponse}
    (h : Resolved contents size first last (rangeBody file size beg_num end_num res)) :
    end_num - beg_num + 1 = (last - first + 1 : Nat) ∧ last - first + 1 < 2 ^ 31 := by
  have hneed : end_num - beg_num + 1 = (last - first + 1 : Nat) := by
    have htext := (contentLength_rangeBody file size beg_num end_num res).symm.trans
      h.contentLength
    rw [← intText_natCast] at htext
    exact intText_injective (Option.some.inj htext)
  refine ⟨hneed, ?_⟩
  by_contra hlong
  have hsend : castInt (end_num - beg_num + 1) = (last - first + 1 : Nat) := h.sendLen
  rw [hneed] at hsend
  have hcut := castInt_lt (Nat.le_of_not_lt hlong)
  omega

namespace ByteRange

theorem Spells.ne_nil {r : ByteRange} {range : Bytes} (h : r.Spells range) : range ≠ [] := by
  rintro rfl
  exact absurd h.pieces.1 (by decide)

/-- The bounds of a range in the file that are read without an exception. -/
theorem Held.bounds {r : ByteRange} {size : Nat} (h : r.Held size) (hsat : r.Satisfiable size) :
    r.Ints ∧ Mymuduo.bounds size (r.numbers.1.map Nat.cast) (r.numbers.2.map Nat.cast) =
        (↑(r.firstByte size), ↑(r.lastByte size)) ∧
      (r.firstByte size ≤ r.lastByte size ∧ r.lastByte size < size) ∧
      r.lastByte size - r.firstByte size + 1 < 2 ^ 31 := by
  cases r with
  | fromTo a b =>
    obtain ⟨hab, ha⟩ := hsat
    obtain ⟨hb, hint, hlen⟩ := h
    have hlast : min b (size - 1) = b := by omega
    simp only [Ints, numbers, Option.mem_def, Option.some.injEq, forall_eq', Option.map_some,
      Mymuduo.bounds, firstByte, lastByte, hlast]
    exact ⟨⟨by omega, hint⟩, trivial, ⟨hab, hb⟩, hlen⟩
  | fromOn a =>
    have ha : a < size := hsat
    obtain ⟨hint, hlen⟩ := h
    have hlast : (size : Int) - 1 = (size - 1 : Nat) := by omega
    simp only [Ints, numbers, Option.mem_def, Option.some.injEq, forall_eq', Option.map_some,
      Option.map_none, Mymuduo.bounds, firstByte, lastByte, hlast]
    exact ⟨⟨hint, nofun⟩, trivial, by omega, by omega⟩
  | last n =>
    obtain ⟨hpos, hsize⟩ := hsat
    obtain ⟨hle, hint⟩ := h
    have hfirst : (size : Int) - n = (size - n : Nat) := by omega
    have hlast : (size : Int) - 1 = (size - 1 : Nat) := by omega
    simp only [Ints, numbers, Option.mem_def, Option.some.injEq, forall_eq', Option.map_some,
      Option.map_none, Mymuduo.bounds, firstByte, lastByte, hfirst, hlast]
    exact ⟨⟨nofun, hint⟩, trivial, by omega, by omega⟩

/-- Bounds that are read and are as far apart as they should be lie in the file. -/
theorem held_of_length {r : ByteRange} {size : Nat} {beg_num end_num : Int}
    (hsat : r.Satisfiable size) (hints : r.Ints)
    (hbounds : (beg_num, end_num) =
      Mymuduo.bounds size (r.numbers.1.map Nat.cast) (r.numbers.2.map Nat.cast))
    (hneed : end_num - beg_num + 1 = (r.lastByte size - r.firstByte size + 1 : Nat))
    (hlen : r.lastByte size - r.firstByte size + 1 < 2 ^ 31) : r.Held size := by
  cases r with
  | fromTo a b =>
    obtain ⟨hab, ha⟩ := hsat
    have hint : b < 2 ^ 31 := hints.2 b rfl
    obtain ⟨rfl, rfl⟩ := Prod.mk.inj hbounds
    simp only [firstByte, lastByte] at hneed hlen
    exact ⟨by omega, hint, by omega⟩
  | fromOn a =>
    have ha : a < size := hsat
    have hint : a < 2 ^ 31 := hints.1 a rfl
    simp only [firstByte, lastByte] at hlen
    exact ⟨hint, by omega⟩
  | last n =>
    have hint : n < 2 ^ 31 := hints.2 n rfl
    obtain ⟨rfl, rfl⟩ := Prod.mk.inj hbounds
    obtain ⟨hpos, hsize⟩ := hsat
    simp only [firstByte, lastByte] at hneed
    exact ⟨by omega, hint⟩

end ByteRange

/-- The response to the request is a `206` for the range `r` of its file. -/
def FileServer.Resolves (server : FileServer) (fs : FileSystem) (req : HttpRequest)
    (res : HttpResponse) (size : Nat) (r : ByteRange) : Prop :=
  ∃ body, (server.setResponseBody fs req res).2 = some body ∧
    Resolved (fs.contents (c_str (server.path req))) size (r.firstByte size) (r.lastByte size) body

section

variable {server : FileServer} {fs : FileSystem} {req : HttpRequest} {res : HttpResponse}
  {size : Nat} {hsize : size < 2 ^ 63} {r : ByteRange}

theorem held_of_resolves (hstat : fs.stat (c_str (server.path req)) = some (.regular size hsize))
    (hspells : r.Spells (req.getHeader (ascii "Range"))) (hsat : r.Satisfiable size)
    (h : server.Resolves fs req res size r) :
    fs.open_ (c_str (server.path req)) ≠ -1 ∧ r.Held size := by
  obtain ⟨body, hbody, hresolved⟩ := h
  obtain ⟨beg_num, end_num, hrange, rfl⟩ :=
    (FileServer.setResponseBody_range hstat hspells.ne_nil).mp hbody
  obtain ⟨hints, hbounds⟩ := hspells.rangeOf_eq_ok.mp hrange
  obtain ⟨hneed, hlen⟩ := hresolved.length
  have hopened : (fs.open_ (c_str (server.path req)) != -1) = true := hresolved.opened
  exact ⟨by simpa using hopened, ByteRange.held_of_length hsat hints hbounds hneed hlen⟩

theorem resolves_of_held (hstat : fs.stat (c_str (server.path req)) = some (.regular size hsize))
    (hspells : r.Spells (req.getHeader (ascii "Range"))) (hsat : r.Satisfiable size)
    (hopened : fs.open_ (c_str (server.path req)) ≠ -1) (h : r.Held size) :
    server.Resolves fs req res size r := by
  obtain ⟨hints, hbounds, hwithin, hlen⟩ := h.bounds hsat
  have hrange := hspells.rangeOf_eq_ok.mpr ⟨hints, hbounds.symm⟩
  have hneed : (fileHead fs (c_str (server.path req)) req res).needSendFile = true := by
    show (fs.open_ (c_str (server.path req)) != -1) = true
    simpa using hopened
  refine ⟨_, (FileServer.setResponseBody_range hstat hspells.ne_nil).mpr ⟨_, _, hrange, rfl⟩, ?_⟩
  rw [FileSystem.opened_of_ne hopened]
  exact resolved_rangeBody _ hneed hwithin hlen

/-- The range that a field asks for is the one that the response describes and that is sent exactly
if the file can be opened and the range lies in it and an `int` holds its numbers and its length. -/
theorem resolves_iff (hstat : fs.stat (c_str (server.path req)) = some (.regular size hsize))
    (hspells : r.Spells (req.getHeader (ascii "Range"))) (hsat : r.Satisfiable size) :
    server.Resolves fs req res size r ↔
      fs.open_ (c_str (server.path req)) ≠ -1 ∧ r.Held size :=
  ⟨held_of_resolves hstat hspells hsat, fun h => resolves_of_held hstat hspells hsat h.1 h.2⟩

end

/-! ## Requests -/

/-- `GET /a HTTP/1.1` with a `Range` field. -/
def partOfA (range : Bytes) : HttpRequest :=
  { HttpRequest.new with method_ := .kGet, version_ := .kHttp11, path_ := ascii "/a" }.addHeader
    (ascii "Range") range

theorem getHeader_partOfA (range : Bytes) :
    (partOfA range).getHeader (ascii "Range") = trimEnd (range.dropWhile isspace) := by
  rw [partOfA, HttpRequest.getHeader_addHeader, if_pos rfl]

theorem stat_partOfA (range data : Bytes) (h : data.length < 2 ^ 63) :
    (FileSystem.oneFile 7 (ascii "./www/a") data h).stat
      (c_str ((FileServer.mk (ascii "./www")).path (partOfA range))) =
        some (.regular data.length h) := by
  have hpath : c_str ((FileServer.mk (ascii "./www")).path (partOfA range)) = ascii "./www/a" := by
    show c_str (ascii "./www" ++ ascii "/a") = _
    decide
  simp only [FileSystem.oneFile, hpath, if_true]

/-- The second and the third byte of five. -/
theorem resolves_part : (FileServer.mk (ascii "./www")).Resolves
    (.oneFile 7 (ascii "./www/a") (ascii "hello") (by decide)) (partOfA (ascii "bytes=1-2"))
    (HttpResponse.new false) 5 (.fromTo 1 2) := by
  have htext : (partOfA (ascii "bytes=1-2")).getHeader (ascii "Range") =
      ascii "bytes=" ++ (ascii "1" ++ DASH :: ascii "2") := by
    rw [getHeader_partOfA]
    decide
  have hspells : (ByteRange.fromTo 1 2).Spells
      ((partOfA (ascii "bytes=1-2")).getHeader (ascii "Range")) := by
    rw [htext]
    exact .fromTo (isDecimal_of_all (by decide) (by decide) (by decide))
      (isDecimal_of_all (by decide) (by decide) (by decide))
  exact (resolves_iff (stat_partOfA _ _ (by decide)) hspells ⟨by decide, by decide⟩).mpr
    ⟨by decide, by decide, by decide, by decide⟩

/-- A range that ends behind the file is sent as it is asked for, one that begins behind two GiB is
an exception, and one of a file that cannot be opened is described all the same. -/
theorem resolves_fails :
    ((((FileServer.mk (ascii "./www")).setResponseBody
        (.oneFile 7 (ascii "./www/a") (ascii "hello") (by decide)) (partOfA (ascii "bytes=2-9"))
        (HttpResponse.new false)).2.bind fun body =>
          body.response.headers_[ascii "Content-Range"]?) = some (ascii "bytes 2-9/5")) ∧
      (∀ (data : Bytes) (h : data.length < 2 ^ 63), 2 ^ 31 < data.length →
        ((FileServer.mk (ascii "./www")).setResponseBody
          (.oneFile 7 (ascii "./www/a") data h) (partOfA (ascii "bytes=2147483648-"))
          (HttpResponse.new false)).2 = none) ∧
      (((FileServer.mk (ascii "./www")).setResponseBody
        (.oneFile (-1) (ascii "./www/a") (ascii "hello") (by decide)) (partOfA (ascii "bytes=1-2"))
        (HttpResponse.new false)).2.map fun body =>
          (body.response.headers_[ascii "Content-Range"]?, body.file)) =
            some (some (ascii "bytes 1-2/5"), none) ∧
      ¬ ∀ (server : FileServer) (fs : FileSystem) (req : HttpRequest) (res : HttpResponse)
        (size : Nat) (hsize : size < 2 ^ 63) (r : ByteRange),
        fs.stat (c_str (server.path req)) = some (.regular size hsize) →
          r.Spells (req.getHeader (ascii "Range")) → r.Satisfiable size →
            server.Resolves fs req res size r := by
  refine ⟨by decide +kernel, fun data h hlong => ?_, by decide +kernel, fun hall => ?_⟩
  · have htext : (partOfA (ascii "bytes=2147483648-")).getHeader (ascii "Range") =
        ascii "bytes=" ++ (ascii "2147483648" ++ [DASH]) := by
      rw [getHeader_partOfA]
      decide
    have hspells : (ByteRange.fromOn 2147483648).Spells
        ((partOfA (ascii "bytes=2147483648-")).getHeader (ascii "Range")) := by
      rw [htext]
      exact .fromOn (isDecimal_of_all (by decide) (by decide) (by decide))
    refine Option.eq_none_iff_forall_ne_some.mpr fun body hbody => ?_
    obtain ⟨beg_num, end_num, hrange, -⟩ :=
      (FileServer.setResponseBody_range (stat_partOfA _ data h) hspells.ne_nil).mp hbody
    have hint := (hspells.rangeOf_eq_ok.mp hrange).1.1 _ rfl
    omega
  · have htext : (partOfA (ascii "bytes=2-9")).getHeader (ascii "Range") =
        ascii "bytes=" ++ (ascii "2" ++ DASH :: ascii "9") := by
      rw [getHeader_partOfA]
      decide
    have hspells : (ByteRange.fromTo 2 9).Spells
        ((partOfA (ascii "bytes=2-9")).getHeader (ascii "Range")) := by
      rw [htext]
      exact .fromTo (isDecimal_of_all (by decide) (by decide) (by decide))
        (isDecimal_of_all (by decide) (by decide) (by decide))
    have hstat := stat_partOfA (ascii "bytes=2-9") (ascii "hello") (by decide)
    have hsat : (ByteRange.fromTo 2 9).Satisfiable (ascii "hello").length :=
      ⟨by decide, by decide⟩
    have hheld := held_of_resolves hstat hspells hsat
      (hall _ _ _ (HttpResponse.new false) _ _ _ hstat hspells hsat)
    exact absurd hheld.2.1 (by decide)

end Mymuduo
