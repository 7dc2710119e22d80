import Mymuduo.Http.HttpServer
import Mymuduo.Http.Pages
import Mathlib.Data.List.DropRight

/-!
# `http/FileServer`

The server of the files below a work path. What it asks the system is answered by a `FileSystem`,
and every question is recorded (`FsCall`) in the order in which it is put. `none` stands for a call
that does not end well: an exception that nothing catches, or a write behind the end of the array in
`scanDir`.

`onRequest` first makes a `Reply`, all that it is going to hand to the connection, and then hands it
over.
-/

namespace Mymuduo

open CString Lines

/-- What `stat(2)` says of a path. -/
inductive FileKind
  | directory
  | regular (st_size : Nat) (isOff64 : st_size < 2 ^ 63)
  | other
  deriving DecidableEq

/-- The local variables that `scanDir` does not initialise. -/
structure ScanMemory where
  fullname : Bytes
  isDir : Bool
  length_fullname : fullname.length = 100

/-- The answers of the system. -/
structure FileSystem where
  stat : Bytes → Option FileKind
  opendir : Bytes → Option (List Bytes)
  open_ : Bytes → Int
  contents : Bytes → Bytes
  memory : ScanMemory

/-- What `open(2)` has made a descriptor for. -/
def FileSystem.opened (fs : FileSystem) (path : Bytes) : Option Bytes :=
  if fs.open_ path = -1 then none else some (fs.contents path)

theorem FileSystem.opened_of_ne {fs : FileSystem} {path : Bytes} (h : fs.open_ path ≠ -1) :
    fs.opened path = some (fs.contents path) := if_neg h

theorem length_zeros : (List.replicate 100 (0 : UInt8)).length = 100 := List.length_replicate

/-- A system with one regular file, for which `open(2)` answers `fd`. -/
def FileSystem.oneFile (fd : Int) (file data : Bytes) (h : data.length < 2 ^ 63) : FileSystem where
  stat path := if path = file then some (.regular data.length h) else none
  opendir _ := none
  open_ _ := fd
  contents _ := data
  memory := ⟨List.replicate 100 0, false, length_zeros⟩

theorem length_hello : (ascii "hello").length < 2 ^ 63 := by
  decide

/-- A question with a path in it. -/
inductive FsCall
  | stat (path : Bytes)
  | opendir (path : Bytes)
  | open_ (path : Bytes)
  deriving DecidableEq, Repr

def FsCall.path : FsCall → Bytes
  | .stat path => path
  | .opendir path => path
  | .open_ path => path

def SLASH : UInt8 := 47
def DOT : UInt8 := 46
def DASH : UInt8 := 45

/-! ## `scanDir` -/

namespace ScanMemory

/-- `strcpy(&fullname[i], s)`; `none` when the array ends before the text does. -/
def strcpy (mem : ScanMemory) (i : Nat) (s : Bytes) : Option ScanMemory :=
  if h : i + s.length + 1 ≤ 100 then
    some
      { mem with
        fullname := overwrite mem.fullname i (s ++ [0])
        length_fullname := by
          have hroom : i + (s ++ [0]).length ≤ mem.fullname.length := by
            rw [List.length_append, List.length_singleton, mem.length_fullname]
            omega
          rw [length_overwrite hroom, mem.length_fullname] }
  else none

/-- Put a slash behind the first `n` bytes if there is none, and count it. -/
def endWithSlash (mem : ScanMemory) (n : Nat) : Option (ScanMemory × Nat) :=
  match n with
  -- `fullname[n - 1]` lies before the array
  | 0 => none
  | n + 1 =>
    match mem.fullname[n]? with
    | none => none
    | some b => if b = SLASH then some (mem, n + 1) else
      (mem.strcpy (n + 1) [SLASH]).map fun mem => (mem, n + 2)

end ScanMemory

/-- The line for an entry of a directory. -/
def entryLine (isDir : Bool) (name : Bytes) : Bytes :=
  snprintf 600 <|
    if isDir then
      ascii "<li><a href=\"" ++ name ++ ascii "/\">" ++ name ++ ascii "/</a></li>"
    else ascii "<li><a href=\"" ++ name ++ ascii "\">" ++ name ++ ascii "</a></li>"

/-- The loop of `scanDir` over the entries; the directory's name takes the first `n` bytes of
`fullname`. An entry that `stat(2)` fails for is taken for what the entry before it was. -/
def scanEntries (fs : FileSystem) (n : Nat) :
    ScanMemory → Bytes → List Bytes → List FsCall × Option Bytes
  | _, list, [] => ([], some list)
  | mem, list, name :: names =>
    if name = ascii "." ∨ name = ascii ".." then scanEntries fs n mem list names
    else
      match mem.strcpy n name with
      -- the name does not fit
      | none => ([], none)
      | some mem =>
        let fullname := c_str mem.fullname
        let isDir := match fs.stat fullname with
          | some kind => kind == .directory
          | none => mem.isDir
        let rest := scanEntries fs n { mem with isDir := isDir }
          (list ++ entryLine isDir name ++ ascii "\n") names
        (.stat fullname :: rest.1, rest.2)

def scanDir (fs : FileSystem) (path list : Bytes) : List FsCall × Option Bytes :=
  match (fs.memory.strcpy 0 (c_str path)).bind fun mem => mem.endWithSlash path.length with
  | none => ([], none)
  | some (mem, n) =>
    match fs.opendir (c_str path) with
    | none => ([.opendir (c_str path)], some list)
    | some names =>
      let rest := scanEntries fs n mem list names
      (.opendir (c_str path) :: rest.1, rest.2)

/-! ## `setResponseBody` -/

/-- What stands behind the last dot, with the dot. -/
def suffixOf (path : Bytes) : Bytes :=
  if DOT ∈ path then DOT :: path.rtakeWhile (· != DOT) else []

/-- The first and the last byte that a `Range` field of a file of `len` bytes asks for. -/
def rangeOf (len : Int) (range : Bytes) : Except StdException (Int × Int) :=
  if range.length < 6 then .error .out_of_range
  else
    let range_value := range.drop 6
    -- without a dash, `pos + 1` is zero and both parts are the whole value
    let (beg, end_) := (cutByte DASH range_value).getD (range_value, range_value)
    if beg ≠ [] ∧ end_ ≠ [] then do
      let beg_num ← stoi beg
      let end_num ← stoi end_
      return (beg_num, end_num)
    else if beg ≠ [] then do
      let beg_num ← stoi beg
      return (beg_num, len - 1)
    else if end_ ≠ [] then do
      let suffix ← stoi end_
      return (len - suffix, len - 1)
    else return (0, 0)

/-- A response, and what is left to read of the file that was opened for it, if one was. -/
structure Body where
  response : HttpResponse
  file : Option Bytes

/-- What every regular file gets. -/
def fileHead (fs : FileSystem) (path : Bytes) (req : HttpRequest) (res : HttpResponse) :
    HttpResponse :=
  let res := res.setFd (fs.open_ path)
  let res := res.setContentType (getMime (suffixOf req.path_))
  res.addHeader (ascii "Accept-Ranges") (ascii "bytes")

/-- The response to a `Range` field that asks for the bytes from `beg_num` to `end_num`. -/
def rangeBody (file : Option Bytes) (len beg_num end_num : Int) (res : HttpResponse) : Body :=
  let res := (res.setStatusCode k206Partitial).setStatusMessage (ascii "Partial Content")
  let need_len := end_num - beg_num + 1
  -- only the length that is sent goes through an `int`
  let end_num := beg_num + need_len - 1
  let res := res.setSendLen (castInt need_len)
  let content_range := ascii "bytes " ++ intText beg_num ++ ascii "-" ++ intText end_num ++
    ascii "/" ++ intText len
  let res := res.addHeader (ascii "Content-Range") content_range
  -- `lseek(2)` refuses an offset before the start of the file, and a file that was not opened
  ⟨res.addHeader (ascii "Content-Length") (intText need_len),
    file.map fun contents => contents.drop beg_num.toNat⟩

/-- The response without a `Range` field. -/
def wholeBody (file : Option Bytes) (len : Int) (res : HttpResponse) : Body :=
  let res := (res.setStatusCode k200Ok).setStatusMessage (ascii "OK")
  let res := res.setSendLen len
  ⟨res.addHeader (ascii "Content-Length") (intText len), file⟩

/-- The branch of `setResponseBody` for a regular file of `len` bytes. -/
def fileBody (fs : FileSystem) (path : Bytes) (len : Nat) (req : HttpRequest) (res : HttpResponse) :
    Option Body :=
  let res := fileHead fs path req res
  let range := req.getHeader (ascii "Range")
  if range ≠ [] then
    match rangeOf len range with
    | .error _ => none
    | .ok (beg_num, end_num) => some (rangeBody (fs.opened path) len beg_num end_num res)
  else some (wholeBody (fs.opened path) len res)

/-- The two branches that say that there is nothing. -/
def notFoundBody (msg : Bytes) (res : HttpResponse) : Body :=
  let res := (res.setStatusCode k404NotFound).setContentType (ascii "text/html;charset=utf-8")
  ⟨res.setBody (get404Html msg), none⟩

/-- The branch for a directory, given its entries. -/
def directoryBody (path list : Bytes) (res : HttpResponse) : Body :=
  let show_path := if path.head? = some DOT then path.drop 1 else path
  let res := (res.setStatusCode k200Ok).setContentType (ascii "text/html;charset=utf-8")
  ⟨res.setBody (directoryHtml show_path list), none⟩

structure FileServer where
  workPath_ : Bytes

/-- What `onRequest` hands to the connection: a text, then so many bytes of a file, which holds
these, and whether it closes the connection. -/
structure Reply where
  text : Bytes
  file : Option (Int × Nat × Bytes)
  close : Bool

namespace FileServer

/-- The path that belongs to a request. -/
def path (server : FileServer) (req : HttpRequest) : Bytes := server.workPath_ ++ req.path_

def setResponseBody (server : FileServer) (fs : FileSystem) (req : HttpRequest)
    (res : HttpResponse) : List FsCall × Option Body :=
  let path := server.path req
  match fs.stat (c_str path) with
  | some .directory =>
    let entries := scanDir fs path []
    (.stat (c_str path) :: entries.1, entries.2.map fun list => directoryBody path list res)
  | some (.regular st_size _) =>
    ([.stat (c_str path), .open_ (c_str path)], fileBody fs (c_str path) st_size req res)
  | some .other =>
    ([.stat (c_str path)], some (notFoundBody (ascii "This is not a regular file.") res))
  | none => ([.stat (c_str path)], some (notFoundBody (ascii "File not found.") res))

/-- The response to `GET /favicon.ico`. -/
def faviconBody (res : HttpResponse) : Body :=
  let res := (res.setStatusCode k200Ok).setStatusMessage (ascii "OK")
  ⟨(res.setContentType (ascii "image/png")).setBody favicon, none⟩

/-- The response that `onRequest` makes. -/
def respond (server : FileServer) (fs : FileSystem) (req : HttpRequest) :
    List FsCall × Option Body :=
  let res := HttpResponse.new req.close
  if req.path_ = ascii "/favicon.ico" then ([], some (faviconBody res))
  else server.setResponseBody fs req res

/-- What `onRequest` hands over for a response. -/
def replyOf (body : Body) : Option Reply :=
  (body.response.appendToBuffer (Buffer.new kInitialSize)).map fun buf =>
    { text := buf.readable
      file := if body.response.needSendFile then
          some (body.response.fd_, castSize body.response.len_, body.file.getD [])
        else none
      close := body.response.closeConnection_ }

def reply (server : FileServer) (fs : FileSystem) (req : HttpRequest) : Option Reply :=
  (server.respond fs req).2.bind replyOf

end FileServer

/-- `open(2)` and `lseek(2)` have made a descriptor from which `data` is to be read. -/
@[simps] def TcpConnection.openFile (c : TcpConnection) (fd : Int) (data : Bytes) :
    TcpConnection :=
  { c with files := fun fd' => if fd' = fd then data else c.files fd' }

/-- Hand a reply to the connection. -/
def TcpConnection.perform (c : TcpConnection) (reply : Reply) (r r' : SysRet) : TcpConnection :=
  let c := match reply.file with
    | none => c.send reply.text r
    | some (fd, needLen, data) => ((c.openFile fd data).send reply.text r).sendFile fd needLen r'
  if reply.close then c.shutdown else c

namespace FileServer

def onRequest (server : FileServer) (fs : FileSystem) (c : TcpConnection) (req : HttpRequest)
    (r r' : SysRet) : Option TcpConnection :=
  (server.reply fs req).map fun reply => c.perform reply r r'

def onMessage (server : FileServer) (fs : FileSystem) (s : HttpConnection)
    (receiveTime : Timestamp) (r r' : SysRet) : Option HttpConnection :=
  s.onMessage (fun c req => server.onRequest fs c req r r') receiveTime r

end FileServer

end Mymuduo
