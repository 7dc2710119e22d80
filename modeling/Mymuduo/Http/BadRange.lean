import Mymuduo.Http.Ranges

/-!
# Any `Range` field

A client may send any value. `substr(6)` throws on one that is too short, `stoi` on a piece that
does not begin with a number of an `int`, and nothing catches either. Whatever is read is answered
with a `206`, also if it makes no sense, and then the length may be negative or zero.

* `bounds_apart`: the length in the answer, from the numbers that are read.
* `harmless_iff`: the values that do no harm.
* `harmless_fails`: one that is too short, one without a number and one that goes backwards.
-/

namespace Mymuduo

open CString Lines

/-- The value is well-formed and asks for bytes that are there. -/
def Asks (size : Nat) (range : Bytes) : Prop :=
  ∃ r : ByteRange, r.Spells range ∧ r.Satisfiable size

/-- The length that is written and the length that is sent are those of something. -/
structure PositiveLength (res : HttpResponse) : Prop where
  contentLength : ∃ n, 0 < n ∧ res.headers_[ascii "Content-Length"]? = some (natText n)
  sendLen : 0 < res.len_

/-- The request is answered, and a value that asks for nothing is not answered with a `206` for
nothing or less. -/
def FileServer.Harmless (server : FileServer) (fs : FileSystem) (req : HttpRequest)
    (res : HttpResponse) (size : Nat) : Prop :=
  ∃ body, (server.setResponseBody fs req res).2 = some body ∧
    (¬ Asks size (req.getHeader (ascii "Range")) →
      body.response.statusCode_ = k206Partitial → PositiveLength body.response)

/-- The numbers that are read are some way apart, and from the one to the other or to the end of
the file it is a length that stays positive as an `int`. -/
def Apart (size : Nat) : Option Int → Option Int → Prop
  | some x, some y => x ≤ y ∧ y - x + 1 < 2 ^ 31
  | some x, none => x < size ∧ 0 < (size - x) % 2 ^ 32 ∧ (size - x) % 2 ^ 32 < 2 ^ 31
  | none, some y => 0 < y
  | none, none => True

/-- A value that is read without an exception, and that is well-formed or has numbers that are
apart. -/
structure HarmlessRange (size : Nat) (range : Bytes) : Prop where
  readable : ReadableRange range
  apart : ¬ Asks size range → Apart size (strto (pieces range).1) (strto (pieces range).2)

theorem castInt_pos_iff (z : Int) : 0 < castInt z ↔ 0 < z % 2 ^ 32 ∧ z % 2 ^ 32 < 2 ^ 31 := by
  simp only [castInt, Int.bmod]
  split <;> omega

theorem positiveLength_rangeBody {file : Option Bytes} {len beg_num end_num : Int}
    {res : HttpResponse} : PositiveLength (rangeBody file len beg_num end_num res).response ↔
      0 < end_num - beg_num + 1 ∧ 0 < castInt (end_num - beg_num + 1) := by
  have htext := contentLength_rangeBody file len beg_num end_num res
  constructor
  · intro h
    obtain ⟨n, hpos, hn⟩ := h.contentLength
    rw [htext, ← intText_natCast] at hn
    have hneed := intText_injective (Option.some.inj hn)
    exact ⟨by omega, h.sendLen⟩
  · rintro ⟨hpos, hsend⟩
    obtain ⟨n, hn⟩ := Int.eq_ofNat_of_zero_le (Int.le_of_lt hpos)
    exact ⟨⟨n, by omega, by rw [htext, hn, intText_natCast]⟩, hsend⟩

/-- The length in the answer is positive exactly if the numbers are apart. -/
theorem bounds_apart {range : Bytes} (h : ReadableRange range) {size : Nat}
    {beg_num end_num : Int} (hbounds : (beg_num, end_num) =
      bounds size (strto (pieces range).1) (strto (pieces range).2)) :
    (0 < end_num - beg_num + 1 ∧ 0 < castInt (end_num - beg_num + 1)) ↔
      Apart size (strto (pieces range).1) (strto (pieces range).2) := by
  rw [castInt_pos_iff]
  cases hx : strto (pieces range).1 with
  | none =>
    cases hy : strto (pieces range).2 with
    | none =>
      rw [hx, hy] at hbounds
      cases hbounds
      exact iff_of_true (by decide) trivial
    | some y =>
      have hfits := h.behind.fits hy
      rw [hx, hy] at hbounds
      obtain ⟨rfl, rfl⟩ := Prod.mk.inj hbounds
      simp only [Apart]
      omega
  | some x =>
    have hfits := h.before.fits hx
    cases hy : strto (pieces range).2 with
    | none =>
      rw [hx, hy] at hbounds
      obtain ⟨rfl, rfl⟩ := Prod.mk.inj hbounds
      simp only [Apart]
      omega
    | some y =>
      have hfits' := h.behind.fits hy
      rw [hx, hy] at hbounds
      obtain ⟨rfl, rfl⟩ := Prod.mk.inj hbounds
      simp only [Apart]
      omega

section

variable {server : FileServer} {fs : FileSystem} {req : HttpRequest} {res : HttpResponse}
  {size : Nat} {hsize : size < 2 ^ 63}

theorem harmlessRange_of_harmless
    (hstat : fs.stat (c_str (server.path req)) = some (.regular size hsize))
    (hne : req.getHeader (ascii "Range") ≠ []) (h : server.Harmless fs req res size) :
    HarmlessRange size (req.getHeader (ascii "Range")) := by
  obtain ⟨body, hbody, hlength⟩ := h
  obtain ⟨beg_num, end_num, hrange, rfl⟩ :=
    (FileServer.setResponseBody_range hstat hne).mp hbody
  obtain ⟨hread, hbounds⟩ := rangeOf_eq_ok.mp hrange
  exact ⟨hread, fun hno =>
    (bounds_apart hread hbounds).mp (positiveLength_rangeBody.mp (hlength hno rfl))⟩

theorem harmless_of_harmlessRange
    (hstat : fs.stat (c_str (server.path req)) = some (.regular size hsize))
    (hne : req.getHeader (ascii "Range") ≠ [])
    (h : HarmlessRange size (req.getHeader (ascii "Range"))) :
    server.Harmless fs req res size := by
  obtain ⟨⟨beg_num, end_num⟩, hbounds⟩ : ∃ p, p = bounds size
      (strto (pieces (req.getHeader (ascii "Range"))).1)
      (strto (pieces (req.getHeader (ascii "Range"))).2) := ⟨_, rfl⟩
  have hrange := rangeOf_eq_ok.mpr ⟨h.readable, hbounds⟩
  exact ⟨_, (FileServer.setResponseBody_range hstat hne).mpr ⟨_, _, hrange, rfl⟩, fun hno _ =>
    positiveLength_rangeBody.mpr ((bounds_apart h.readable hbounds).mpr (h.apart hno))⟩

/-- A `Range` field does no harm exactly if nothing throws on it and, unless it is well-formed and
asks for bytes that are there, its numbers are apart. -/
theorem harmless_iff (hstat : fs.stat (c_str (server.path req)) = some (.regular size hsize))
    (hne : req.getHeader (ascii "Range") ≠ []) :
    server.Harmless fs req res size ↔ HarmlessRange size (req.getHeader (ascii "Range")) :=
  ⟨harmlessRange_of_harmless hstat hne, harmless_of_harmlessRange hstat hne⟩

end

/-- Another unit, which nobody looks at. -/
theorem harmless_items : (FileServer.mk (ascii "./www")).Harmless
    (.oneFile 7 (ascii "./www/a") (ascii "hello") (by decide)) (partOfA (ascii "items=1-2"))
    (HttpResponse.new false) 5 := by
  have htext : (partOfA (ascii "items=1-2")).getHeader (ascii "Range") = ascii "items=1-2" := by
    rw [getHeader_partOfA]
    decide
  have hread : ReadableRange (ascii "items=1-2") :=
    ⟨by decide, .inr ⟨1, by decide, by decide, by decide⟩,
      .inr ⟨2, by decide, by decide, by decide⟩⟩
  have hrange : HarmlessRange 5 (ascii "items=1-2") := by
    refine ⟨hread, fun _ => ?_⟩
    have hx : strto (pieces (ascii "items=1-2")).1 = some 1 := by decide
    have hy : strto (pieces (ascii "items=1-2")).2 = some 2 := by decide
    rw [hx, hy]
    exact ⟨by decide, by decide⟩
  exact (harmless_iff (stat_partOfA _ _ (by decide)) (by rw [htext]; decide)).mpr (htext ▸ hrange)

/-- What becomes of a value. -/
def answerTo (range : Bytes) : Option (HttpStatusCode × Option Bytes) :=
  ((FileServer.mk (ascii "./www")).setResponseBody
    (.oneFile 7 (ascii "./www/a") (ascii "hello") length_hello) (partOfA range)
    (HttpResponse.new false)).2.map fun body =>
      (body.response.statusCode_, body.response.headers_[ascii "Content-Length"]?)

/-- A value that is too short and one without a number are exceptions, and one that goes backwards
is answered with a negative length. -/
theorem harmless_fails :
    answerTo (ascii "all") = none ∧ answerTo (ascii "bytes=all-") = none ∧
      answerTo (ascii "bytes=4-0") = some (k206Partitial, some (ascii "-3")) ∧
      ¬ ∀ (server : FileServer) (fs : FileSystem) (req : HttpRequest) (res : HttpResponse)
        (size : Nat) (hsize : size < 2 ^ 63),
        fs.stat (c_str (server.path req)) = some (.regular size hsize) →
          req.getHeader (ascii "Range") ≠ [] → server.Harmless fs req res size := by
  refine ⟨by decide +kernel, by decide +kernel, by decide +kernel, fun hall => ?_⟩
  have htext : (partOfA (ascii "all")).getHeader (ascii "Range") = ascii "all" := by
    rw [getHeader_partOfA]
    decide
  have hstat := stat_partOfA (ascii "all") (ascii "hello") (by decide)
  have hne : (partOfA (ascii "all")).getHeader (ascii "Range") ≠ [] := by
    rw [htext]
    decide
  have hrange := harmlessRange_of_harmless hstat hne
    (hall _ _ _ (HttpResponse.new false) _ _ hstat hne)
  rw [htext] at hrange
  exact absurd hrange.readable.unit (by decide)

end Mymuduo
