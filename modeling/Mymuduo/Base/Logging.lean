import Mymuduo.Base.LogStream

/-!
# `base/Logging`

A `Logger` from its constructor to `~Logger`, which hands the record to `g_output`. What the
constructor finds (the clock, the time zone, the thread, `errno`) is a `LogEnv`.

The newline of `finish` is a piece like the others, and is left out where one byte is left.

* `newline_fits`: when it is not, from the room left before `finish` and the length of the basename.
* `record_line_iff`: the records that are one line.
* `record_whole`: a record of at most `kSmallBuffer - kMaxNumericSize` bytes has all its pieces.
-/

namespace Mymuduo

open CString

inductive LogLevel
  | trace
  | debug
  | info
  | warn
  | error
  | fatal
  deriving DecidableEq, Repr

def LogLevelName : LogLevel → Bytes
  | .trace => ascii "TRACE "
  | .debug => ascii "DEBUG "
  | .info => ascii "INFO  "
  | .warn => ascii "WARN  "
  | .error => ascii "ERROR "
  | .fatal => ascii "FATAL "

/-- `T(LogLevelName[level], 6)` asserts as much. -/
theorem length_logLevelName (level : LogLevel) : (LogLevelName level).length = 6 := by
  cases level <;> rfl

/-- The part of a path after its last `'/'`. -/
structure SourceFile where
  data_ : Bytes
  deriving DecidableEq, Repr

def SourceFile.ofPath (filename : Bytes) : SourceFile :=
  ⟨(filename.reverse.takeWhile (· != 47)).reverse⟩

/-- What the constructor of a `Logger` finds. -/
structure LogEnv where
  /-- the text of the second -/
  t_time : { t : Bytes // t.length = 17 }
  microseconds : Fin 1000000
  /-- `g_logTimeZone.valid()` -/
  zoned : Bool
  tid : Nat
  errno : Int32
  /-- `strerror_tl` -/
  strerror : Int32 → Bytes

/-- `"%5d "` -/
def tidString (tid : Nat) : Bytes :=
  List.replicate (5 - (natText tid).length) 32 ++ natText tid ++ ascii " "

/-- `"%06d"` -/
def sixDigits (n : Nat) : Bytes := List.replicate (6 - (natText n).length) 48 ++ natText n

def formatTime (env : LogEnv) : List Piece :=
  let us := ascii "." ++ sixDigits env.microseconds ++ if env.zoned then ascii " " else ascii "Z "
  [.string env.t_time, .string us]

/-- `formatTime` asserts as much of its `us`. -/
theorem length_sixDigits (us : Fin 1000000) : (sixDigits us).length = 6 := by
  have hle : (natText us).length ≤ 6 := (natText_length_le_iff (by decide)).mpr us.isLt
  rw [sixDigits, List.length_append, List.length_replicate]
  exact Nat.sub_add_cancel hle

/-- The constructors of `Logger`. -/
inductive LoggerArgs
  | plain
  | level (level : LogLevel)
  | func (level : LogLevel) (func : Bytes)
  | sys (toAbort : Bool)
  deriving DecidableEq, Repr

namespace LoggerArgs

def level_ : LoggerArgs → LogLevel
  | .plain => .info
  | .level l => l
  | .func l _ => l
  | .sys toAbort => if toAbort then .fatal else .error

def savedErrno (env : LogEnv) : LoggerArgs → Int32
  | .sys _ => env.errno
  | _ => 0

/-- What `Logger::Impl::Impl` and, with a `func`, the constructor stream. -/
def header (env : LogEnv) (args : LoggerArgs) : List Piece :=
  formatTime env ++ [.string (tidString env.tid), .string (LogLevelName args.level_)] ++
    (if args.savedErrno env ≠ 0 then
      [.chars (some (env.strerror (args.savedErrno env))), .chars (some (ascii " (errno=")),
        .integer (.ofInt (args.savedErrno env)), .chars (some (ascii ") "))]
    else []) ++
    match args with
    | .func _ f => [.chars (some f), .char 32]
    | _ => []

end LoggerArgs

structure Logger where
  stream_ : LogStream
  level_ : LogLevel
  line_ : Int32
  basename_ : SourceFile

inductive LoggerEffect
  /-- `g_output` -/
  | output (msg : Bytes)
  /-- `g_flush` -/
  | flush
  | abort
  deriving DecidableEq, Repr

namespace Logger

def new (env : LogEnv) (file : SourceFile) (line : Int32) (args : LoggerArgs) : Logger where
  stream_ := LogStream.new.stream (args.header env)
  level_ := args.level_
  line_ := line
  basename_ := file

/-- What the user streams. -/
def log (l : Logger) (pieces : List Piece) : Logger :=
  { l with stream_ := l.stream_.stream pieces }

/-- The pieces of `finish` before the newline. -/
def trailer (l : Logger) : List Piece :=
  [.chars (some (ascii " - ")), .string l.basename_.data_, .char 58, .integer (.ofInt l.line_)]

def newline : Piece := .char 10

def finish (l : Logger) : Logger := l.log (l.trailer ++ [newline])

/-- What `~Logger` hands to `g_output`. -/
def record (l : Logger) : Bytes := l.finish.stream_.buffer_.data

/-- `~Logger` -/
def destroy (l : Logger) : List LoggerEffect :=
  .output l.record :: if l.level_ = .fatal then [.flush, .abort] else []

end Logger

/-! ## The newline -/

namespace Piece

theorem fits_copied {p : Piece} (h : p.numeric = false) (avail : Nat) :
    p.fits avail = decide (p.text.length < avail) := by
  rw [fits, h]
  rfl

theorem fits_numeric {p : Piece} (h : p.numeric = true) (avail : Nat) :
    p.fits avail = decide (kMaxNumericSize ≤ avail) := by
  rw [fits, h]
  rfl

theorem room_copied {p : Piece} (h : p.numeric = false) (avail : Nat) :
    p.room avail = if p.text.length < avail then avail - p.text.length else avail := by
  simp only [room, fits_copied h, decide_eq_true_eq]

/-- An integer leaves more room than the newline takes, or takes none. -/
theorem one_lt_room_integer (v : Integral) (avail : Nat) :
    1 < (Piece.integer v).room avail ↔ 1 < avail := by
  have hlength : (Piece.integer v).text.length ≤ 21 := by
    rw [text, ← detail.convert_eq]
    exact length_convert v
  rw [room, fits_numeric rfl, kMaxNumericSize]
  simp only [decide_eq_true_eq]
  split
  · omega
  · exact Iff.rfl

theorem one_lt_room_char (c : UInt8) (avail : Nat) :
    1 < (Piece.char c).room avail ↔ 2 < avail := by
  rw [room_copied rfl]
  show 1 < (if 1 < avail then avail - 1 else avail) ↔ 2 < avail
  split <;> omega

theorem two_lt_room_string (v : Bytes) (avail : Nat) :
    2 < (Piece.string v).room avail ↔ 2 < avail ∧ (v.length < avail → v.length + 2 < avail) := by
  rw [room_copied rfl]
  show 2 < (if v.length < avail then avail - v.length else avail) ↔ _
  split <;> omega

end Piece

namespace Logger

/-- The room before `finish`, with a basename of `length` bytes, from which its pieces leave one
byte for the newline. -/
def Exhausts (room length : Nat) : Prop :=
  room = 1 ∨ room = 2 ∨ room = 4 ∨ room = 5 ∨ room = length + 4 ∨ room = length + 5 ∨
    room = 3 ∧ (length = 1 ∨ length = 2)

instance (room length : Nat) : Decidable (Exhausts room length) :=
  inferInstanceAs (Decidable (_ ∨ _))

theorem newline_fits {l : Logger} {room : Nat} (hroom : 0 < room) :
    newline.fits (l.trailer.foldl Piece.room room) = true ↔
      ¬ Exhausts room l.basename_.data_.length := by
  have hdash : (Piece.chars (some (ascii " - "))).room room =
      if 3 < room then room - 3 else room := Piece.room_copied rfl room
  rw [newline, Piece.fits_copied rfl, decide_eq_true_eq, trailer]
  simp only [List.foldl_cons, List.foldl_nil]
  show 1 < _ ↔ _
  rw [Piece.one_lt_room_integer, Piece.one_lt_room_char, Piece.two_lt_room_string, hdash]
  unfold Exhausts
  by_cases hdash : 3 < room
  · rw [if_pos hdash]
    omega
  · rw [if_neg hdash]
    omega

/-! ## The record -/

theorem record_eq (l : Logger) :
    l.record = (l.stream_.stream (l.trailer ++ [newline])).buffer_.data := rfl

/-- The last byte of a record is the newline of `finish`, unless the pieces before it have filled up
the buffer. -/
theorem newline_iff {l : Logger} (hroom : 0 < l.stream_.buffer_.avail) :
    l.record = (l.log l.trailer).stream_.buffer_.data ++ newline.text ↔
      ¬ Exhausts l.stream_.buffer_.avail l.basename_.data_.length := by
  have hput : l.record = (l.log l.trailer).stream_.buffer_.data ++
      if newline.fits (l.log l.trailer).stream_.buffer_.avail then newline.text else [] := by
    rw [← LogStream.data_put, record_eq, LogStream.stream_append]
    rfl
  have htrailer : (l.log l.trailer).stream_.buffer_.avail =
      l.trailer.foldl Piece.room l.stream_.buffer_.avail := LogStream.avail_stream _ _
  rw [← newline_fits hroom, ← htrailer, hput]
  constructor
  · intro hdata
    by_contra hno
    rw [if_neg hno] at hdata
    exact List.cons_ne_nil _ _ (List.append_cancel_left hdata).symm
  · intro hyes
    rw [if_pos hyes]

/-- The room left by these pieces, from their lengths. -/
def roomLeft (pieces : List Piece) : Nat := pieces.foldl Piece.room kSmallBuffer

/-- All that is streamed for a record, up to the newline. -/
def streamed (env : LogEnv) (args : LoggerArgs) (pieces : List Piece) (l : Logger) : List Piece :=
  args.header env ++ pieces ++ l.trailer

section Record

variable (env : LogEnv) (file : SourceFile) (line : Int32) (args : LoggerArgs)
  (pieces : List Piece)

theorem stream_log :
    ((new env file line args).log pieces).stream_ =
      LogStream.new.stream (args.header env ++ pieces) := by
  rw [LogStream.stream_append, log, new]

theorem avail_log :
    ((new env file line args).log pieces).stream_.buffer_.avail =
      roomLeft (args.header env ++ pieces) := by
  rw [stream_log, LogStream.avail_stream]
  rfl

theorem record_stream :
    let l := (new env file line args).log pieces
    l.record =
      (LogStream.new.stream (streamed env args pieces l ++ [newline])).buffer_.data := by
  intro l
  rw [record_eq, stream_log, ← LogStream.stream_append, streamed, List.append_assoc _ l.trailer]

/-- A record is shorter than its buffer and has whole pieces, in order. -/
theorem record_pieces :
    let l := (new env file line args).log pieces
    l.record.length < kSmallBuffer ∧
      ∃ kept : List Piece, kept.Sublist (streamed env args pieces l ++ [newline]) ∧
        l.record = kept.flatMap Piece.text := by
  intro l
  rw [record_stream env file line args pieces]
  exact ⟨LogStream.length_stream_lt _, LogStream.stream_sublist LogStream.new _⟩

/-- A record that leaves `kMaxNumericSize` bytes of its buffer has all its pieces. -/
theorem record_whole :
    let l := (new env file line args).log pieces
    let all := streamed env args pieces l ++ [newline]
    (all.flatMap Piece.text).length + kMaxNumericSize ≤ kSmallBuffer →
      l.record = all.flatMap Piece.text := by
  intro l all hlength
  have hrecord : l.record = (LogStream.new.stream all).buffer_.data :=
    record_stream env file line args pieces
  rw [hrecord]
  exact LogStream.stream_whole hlength

end Record

/-- A record is one whole line, except where its pieces exhaust the buffer. -/
theorem record_line_iff (env : LogEnv) (file : SourceFile) (line : Int32) (args : LoggerArgs)
    (pieces : List Piece) :
    let l := (new env file line args).log pieces
    (l.record.length < kSmallBuffer ∧
      (∃ kept : List Piece, kept.Sublist (streamed env args pieces l ++ [newline]) ∧
        l.record = kept.flatMap Piece.text) ∧
      l.record = (l.log l.trailer).stream_.buffer_.data ++ newline.text) ↔
    ¬ Exhausts (roomLeft (args.header env ++ pieces)) file.data_.length := by
  intro l
  obtain ⟨hlength, hpieces⟩ := record_pieces env file line args pieces
  have hroom : 0 < l.stream_.buffer_.avail := by
    rw [stream_log]
    exact LogStream.avail_stream_pos (by decide) _
  have hnewline := newline_iff hroom
  rw [avail_log] at hnewline
  exact ⟨fun h => hnewline.mp h.2.2, fun h => ⟨hlength, hpieces, hnewline.mpr h⟩⟩

/-- With a string of 3957 bytes after the 38 of the header, `" - "` leaves two bytes, of which `':'`
takes one; the basename, the line and the newline are left out. -/
theorem record_line_fails :
    ¬ ∀ (env : LogEnv) (file : SourceFile) (line : Int32) (args : LoggerArgs)
      (pieces : List Piece),
      let l := (new env file line args).log pieces
      l.record.length < kSmallBuffer ∧
        (∃ kept : List Piece, kept.Sublist (streamed env args pieces l ++ [newline]) ∧
          l.record = kept.flatMap Piece.text) ∧
        l.record = (l.log l.trailer).stream_.buffer_.data ++ newline.text := by
  intro hall
  let env : LogEnv :=
    { t_time := ⟨ascii "20240229 12:00:00", rfl⟩, microseconds := 0, zoned := false, tid := 1,
      errno := 0, strerror := fun _ => [] }
  let file := SourceFile.ofPath (ascii "http/HttpServer.cc")
  let path : List Piece := [.string (List.replicate 3957 97)]
  have hline := (hall env file 28 .plain path).2.2
  have hroom : ((new env file 28 .plain).log path).stream_.buffer_.avail = 5 := by
    rw [avail_log]
    decide +kernel
  refine (newline_iff (by rw [hroom]; decide)).mp hline ?_
  rw [hroom]
  decide

end Logger

end Mymuduo
