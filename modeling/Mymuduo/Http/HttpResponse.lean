import Mymuduo.Http.HttpRequest
import Mymuduo.Net.Buffer

/-!
# `http/HttpResponse`

A response and `appendToBuffer`, which is the list of the strings it appends (`pieces`), appended
one after the other. `snprintf` writes into a scratch array of 32 bytes, which is used for the
status line and again for the length.
-/

namespace Mymuduo

open CString Lines

/-- The code as the enumeration stores it. -/
abbrev HttpStatusCode := Int32

def kUnknown : HttpStatusCode := 0
def k200Ok : HttpStatusCode := 200
def k206Partitial : HttpStatusCode := 206
def k404NotFound : HttpStatusCode := 404

structure HttpResponse where
  headers_ : StringMap
  statusCode_ : HttpStatusCode
  statusMessage_ : Bytes
  closeConnection_ : Bool
  body_ : Bytes
  fd_ : Int
  len_ : Int

namespace HttpResponse

def new (close : Bool) : HttpResponse where
  headers_ := ∅
  statusCode_ := kUnknown
  statusMessage_ := []
  closeConnection_ := close
  body_ := []
  fd_ := -1
  len_ := 0

def setStatusCode (r : HttpResponse) (code : HttpStatusCode) : HttpResponse :=
  { r with statusCode_ := code }

def setStatusMessage (r : HttpResponse) (message : Bytes) : HttpResponse :=
  { r with statusMessage_ := message }

def setCloseConnection (r : HttpResponse) (on : Bool) : HttpResponse :=
  { r with closeConnection_ := on }

def addHeader (r : HttpResponse) (key value : Bytes) : HttpResponse :=
  { r with headers_ := r.headers_.insert key value }

theorem getElem?_addHeader (r : HttpResponse) (key value k : Bytes) :
    (r.addHeader key value).headers_[k]? = if key = k then some value else r.headers_[k]? := by
  rw [addHeader, Std.ExtTreeMap.getElem?_insert]
  simp only [Std.compare_eq_iff_eq]

def setContentType (r : HttpResponse) (contentType : Bytes) : HttpResponse :=
  r.addHeader (ascii "Content-Type") contentType

def setBody (r : HttpResponse) (body : Bytes) : HttpResponse := { r with body_ := body }

def needSendFile (r : HttpResponse) : Bool := r.fd_ != -1

def setFd (r : HttpResponse) (fd : Int) : HttpResponse := { r with fd_ := fd }

def setSendLen (r : HttpResponse) (len : Int) : HttpResponse := { r with len_ := len }

/-- The scratch array after the status line. -/
def statusLine (r : HttpResponse) : Bytes :=
  snprintf 32 (ascii "HTTP/1.1 " ++ intText r.statusCode_.toInt ++ ascii " ")

/-- The scratch array as the keep-alive branch appends it. -/
def lengthLine (r : HttpResponse) : Bytes :=
  if !r.needSendFile then
    snprintf 32 (ascii "Content-Length: " ++ natText r.body_.length ++ crlf)
  -- nothing is printed, and the array is appended all the same
  else r.statusLine

/-- What `appendToBuffer` appends, in order. -/
def pieces (r : HttpResponse) : List Bytes :=
  [r.statusLine, r.statusMessage_, crlf] ++
  (if r.closeConnection_ then [ascii "Connection: close" ++ crlf]
    else [r.lengthLine, ascii "Connection: Keep-Alive" ++ crlf]) ++
  r.headers_.toList.flatMap (fun header => [header.1, ascii ": ", header.2, crlf]) ++
  [crlf, r.body_]

def appendToBuffer (r : HttpResponse) (output : Buffer) : Option Buffer :=
  r.pieces.foldlM Buffer.appendPiece output

end HttpResponse

end Mymuduo
