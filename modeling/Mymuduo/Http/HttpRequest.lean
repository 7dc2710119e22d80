import Mymuduo.Base.Timestamp
import Mymuduo.Lib.Lines

/-!
# `http/HttpRequest`

A parsed request. `std::map` is `Std.ExtTreeMap`: two maps with the same entries are equal, and the
keys are ordered as `std::string` compares them, byte by byte.
-/

namespace Mymuduo

open CString Lines

/-- `std::map<string, string>`. -/
abbrev StringMap := Std.ExtTreeMap Bytes Bytes

inductive Method
  | kInvalid
  | kGet
  | kPost
  | kHead
  | kPut
  | kDelete
  deriving DecidableEq, Repr

inductive Version
  | kUnknown
  | kHttp10
  | kHttp11
  deriving DecidableEq, Repr

structure HttpRequest where
  method_ : Method
  version_ : Version
  path_ : Bytes
  query_ : Bytes
  body_ : Bytes
  receiveTime_ : Timestamp
  headers_ : StringMap
  deriving DecidableEq

/-- The table `str2int` of `setMethod`. -/
def str2int (m : Bytes) : Option Method :=
  if m = ascii "GET" then some .kGet
  else if m = ascii "POST" then some .kPost
  else if m = ascii "HEAD" then some .kHead
  else if m = ascii "PUT" then some .kPut
  else if m = ascii "DELETE" then some .kDelete
  else none

/-- The table has no entry for `kInvalid`. -/
theorem str2int_ne (m : Bytes) : str2int m ≠ some .kInvalid := by
  unfold str2int
  split_ifs <;> simp

/-- The white space that is cut off a header's value. -/
def trimEnd (s : Bytes) : Bytes :=
  (s.reverse.dropWhile isspace).reverse

namespace HttpRequest

/-- The constructor; a `Timestamp` starts at zero. -/
def new : HttpRequest where
  method_ := .kInvalid
  version_ := .kUnknown
  path_ := []
  query_ := []
  body_ := []
  receiveTime_ := 0
  headers_ := ∅

def setMethod (r : HttpRequest) (m : Bytes) : Bool × HttpRequest :=
  let method := (str2int m).getD .kInvalid
  (method != .kInvalid, { r with method_ := method })

def setVersion (r : HttpRequest) (v : Version) : HttpRequest := { r with version_ := v }

def setPath (r : HttpRequest) (path : Bytes) : HttpRequest := { r with path_ := path }

def setQuery (r : HttpRequest) (query : Bytes) : HttpRequest := { r with query_ := query }

def setReceiveTime (r : HttpRequest) (t : Timestamp) : HttpRequest := { r with receiveTime_ := t }

def setBody (r : HttpRequest) (body : Bytes) : HttpRequest := { r with body_ := body }

/-- `addHeader`, given what stands before and after the colon. -/
def addHeader (r : HttpRequest) (field rest : Bytes) : HttpRequest :=
  { r with headers_ := r.headers_.insert field (trimEnd (rest.dropWhile isspace)) }

def getHeader (r : HttpRequest) (field : Bytes) : Bytes :=
  r.headers_.getD field []

@[simp] theorem getHeader_new (field : Bytes) : new.getHeader field = [] :=
  Std.ExtTreeMap.getD_empty

theorem getHeader_addHeader (r : HttpRequest) (field rest k : Bytes) :
    (r.addHeader field rest).getHeader k =
      if field = k then trimEnd (rest.dropWhile isspace) else r.getHeader k := by
  simp only [getHeader, addHeader, Std.ExtTreeMap.getD_insert, Std.compare_eq_iff_eq]

/-- `swap` with a fresh request; `body_` is the one member it does not exchange. -/
def swapNew (r : HttpRequest) : HttpRequest := { new with body_ := r.body_ }

end HttpRequest

end Mymuduo
