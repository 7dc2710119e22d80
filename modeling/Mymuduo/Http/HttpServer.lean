import Mymuduo.Http.HttpContext
import Mymuduo.Http.HttpResponse
import Mymuduo.Net.TcpConnection

/-!
# `http/HttpServer`

What the server does with a connection's messages. `onMessage` is the same function in `HttpServer`
and in `FileServer`; they differ in `onRequest`, which is an argument of it here. An exception and a
read behind the end of the input buffer leave the loop, and the answer is `none`, as it is for a
parser that never leaves its loop.

`httpCallback_` is user code, a parameter of the server.
-/

namespace Mymuduo

open CString

/-- A connection with the context that its owner keeps in `context_`, and the requests passed on
so far. -/
structure HttpConnection where
  conn : TcpConnection
  context : HttpContext
  requests : List HttpRequest

/-- `data` has been read, at `time`, and the kernel will answer the next `write(2)` so. -/
structure Delivery where
  time : Timestamp
  data : Bytes
  answer : SysRet

namespace HttpConnection

/-- `onConnection` when the connection is up. -/
def onConnection (conn : TcpConnection) : HttpConnection where
  conn := conn
  context := .new
  requests := []

def badRequest : Bytes := ascii "HTTP/1.1 400 Bad Request" ++ Lines.crlf ++ Lines.crlf

/-- `onMessage`, for a connection whose input buffer holds the message. -/
def onMessage (onRequest : TcpConnection → HttpRequest → Option TcpConnection)
    (s : HttpConnection) (receiveTime : Timestamp) (r : SysRet) : Option HttpConnection :=
  match s.context.parseRequest receiveTime s.conn.inputBuffer_ with
  | some ⟨.returned ok, context, buf⟩ =>
    let conn := s.conn.setInput buf
    let conn := if ok then conn else (conn.send badRequest r).shutdown
    -- also after a bad request
    if context.gotAll then
      (onRequest conn context.request_).map fun conn =>
        ⟨conn, context.reset, s.requests ++ [context.request_]⟩
    else some ⟨conn, context, s.requests⟩
  | _ => none

/-- The context after `onMessage`: the parser's, but a new one once a request has been passed on. -/
theorem context_onMessage {s s' : HttpConnection}
    {onRequest : TcpConnection → HttpRequest → Option TcpConnection} {t : Timestamp} {r : SysRet}
    (h : s.onMessage onRequest t r = some s') :
    ∃ ok ctx buf, s.context.parseRequest t s.conn.inputBuffer_ = some ⟨.returned ok, ctx, buf⟩ ∧
      s'.context = if ctx.gotAll then ctx.reset else ctx := by
  unfold onMessage at h
  split at h
  · next ok ctx buf hparse =>
    refine ⟨ok, ctx, buf, hparse, ?_⟩
    dsimp only at h
    split at h
    · next hgot =>
      obtain ⟨conn, -, rfl⟩ := Option.map_eq_some_iff.mp h
      exact (if_pos hgot).symm
    · next hmore =>
      cases h
      exact (if_neg hmore).symm
  · cases h

/-- `handleRead` puts the data into the input buffer before it calls `messageCallback_`. -/
def read (s : HttpConnection) (data : Bytes) : HttpConnection :=
  { s with conn := s.conn.setInput (s.conn.inputBuffer_.readFd data) }

end HttpConnection

namespace HttpRequest

/-- Whether the connection is to be closed after the response. -/
def close (req : HttpRequest) : Bool :=
  let connection := req.getHeader (ascii "Connection")
  connection == ascii "close" || (req.version_ == .kHttp10 && connection != ascii "Keep-Alive")

end HttpRequest

structure HttpServer where
  httpCallback_ : HttpRequest → HttpResponse → HttpResponse

namespace HttpServer

def defaultHttpCallback (_req : HttpRequest) (resp : HttpResponse) : HttpResponse :=
  ((resp.setStatusCode k404NotFound).setStatusMessage (ascii "Not Found")).setCloseConnection true

def onRequest (server : HttpServer) (c : TcpConnection) (req : HttpRequest) (r : SysRet) :
    Option TcpConnection :=
  let response := server.httpCallback_ req (HttpResponse.new req.close)
  (response.appendToBuffer (Buffer.new kInitialSize)).map fun buf =>
    let c := c.send buf.readable r
    if response.closeConnection_ then c.shutdown else c

def onMessage (server : HttpServer) (s : HttpConnection) (receiveTime : Timestamp) (r : SysRet) :
    Option HttpConnection :=
  s.onMessage (fun c req => server.onRequest c req r) receiveTime r

/-- One delivery of bytes. -/
def deliver (server : HttpServer) (s : HttpConnection) (d : Delivery) : Option HttpConnection :=
  server.onMessage (s.read d.data) d.time d.answer

/-- One delivery after the other. -/
def serve (server : HttpServer) (s : HttpConnection) (ds : List Delivery) :
    Option HttpConnection :=
  ds.foldlM server.deliver s

end HttpServer

end Mymuduo
