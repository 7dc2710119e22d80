import Mymuduo.Base.TimeText
import Mymuduo.Lib.Transition

/-!
# `base/LogFile` and `FileUtil::AppendFile`

A `LogFile` appends to one file after the other. The clock, the name of the host and what the stream
does are answers of the system, which come with each call. A file keeps the calls that it got.

* `log_files_hold`: the files hold what the stream took of every line, in the order of the calls,
  under names that sort in the order of the files.
* `log_files_roll`: a file grows past `rollSize_` only in the second in which it was opened, and it
  has at most `checkEveryN_` lines of later days.
-/

namespace Mymuduo

open CString Transition

/-! ## The stream -/

/-- What `fflush(3)` and `fclose(3)` do with the buffer. -/
inductive FlushRet
  | ok
  /-- the error indicator is set, with this much written -/
  | error (n : Nat)
  deriving DecidableEq, Repr

/-- What `fwrite_unlocked(3)` takes, and how much of the buffer is written on this occasion. It
takes less than it is given only with the error indicator set. -/
inductive FwriteRet
  | all (written : Nat)
  | error (n written : Nat)
  deriving DecidableEq, Repr

/-- A stream that appends. -/
structure FILE where
  /-- what it added to the file -/
  disk : Bytes
  /-- what was taken and is not in the file -/
  buffer : Bytes
  error : Bool
  deriving DecidableEq, Repr

namespace FILE

def fopen : FILE := ⟨[], [], false⟩

/-- What was taken. -/
def content (fp : FILE) : Bytes := fp.disk ++ fp.buffer

/-- The next `n` bytes get into the file. -/
def write (fp : FILE) (n : Nat) : FILE :=
  { fp with disk := fp.disk ++ fp.buffer.take n, buffer := fp.buffer.drop n }

/-- What was taken, with the number of bytes. -/
def fwrite (fp : FILE) (data : Bytes) : FwriteRet → Nat × FILE
  | .all written => (data.length, { fp with buffer := fp.buffer ++ data }.write written)
  | .error n written =>
    (min n data.length,
      { fp with buffer := fp.buffer ++ data.take n, error := true }.write written)

/-- An error leaves in the buffer what was not written, to be written on a later occasion. This is
assumed of the library; one that drops it loses it. -/
def fflush (fp : FILE) : FlushRet → FILE
  | .ok => fp.write fp.buffer.length
  | .error n => { fp with error := true }.write n

end FILE

/-! ## The system -/

/-- The answers of the system during a call. -/
structure LogSys where
  /-- `time(2)`, first of `append_unlocked` and then of `getLogFileName` -/
  now : Int
  rollNow : Int
  hostname : Bytes
  pid : Int
  write : FwriteRet
  flush : FlushRet
  close : FlushRet
  deriving DecidableEq, Repr

/-- Nothing goes wrong with the stream. -/
def LogSys.NoError (sys : LogSys) : Prop :=
  (∃ n, sys.write = .all n) ∧ sys.flush = .ok ∧ sys.close = .ok

/-- A call of `append`. -/
structure LogCall where
  logline : Bytes
  sys : LogSys
  deriving DecidableEq, Repr

/-! ## `AppendFile` -/

structure AppendFile where
  filename : Bytes
  fp_ : FILE
  writtenBytes_ : Nat
  /-- the calls so far -/
  calls : List LogCall
  deriving DecidableEq, Repr

namespace AppendFile

def new (filename : Bytes) : AppendFile := ⟨filename, .fopen, 0, []⟩

/-- The loop makes one round: after it everything is written, or there is an error. -/
def append (f : AppendFile) (c : LogCall) : AppendFile :=
  let f := { f with calls := f.calls ++ [c] }
  if c.logline.length = 0 then f
  else
    let (n, fp) := f.fp_.fwrite c.logline c.sys.write
    if n ≠ c.logline.length ∧ fp.error = true then { f with fp_ := fp }
    else { f with fp_ := fp, writtenBytes_ := f.writtenBytes_ + n }

def flush (f : AppendFile) (ret : FlushRet) : AppendFile := { f with fp_ := f.fp_.fflush ret }

end AppendFile

/-! ## `LogFile` -/

def kRollPerSeconds_ : Int := 60 * 60 * 24

/-- The beginning of the day. -/
def periodOf (now : Int) : Int := now.tdiv kRollPerSeconds_ * kRollPerSeconds_

def getLogFileName (basename : Bytes) (sys : LogSys) : Bytes :=
  basename ++ (strftime (gmtime_r sys.rollNow) ++
    (sys.hostname ++ (ascii "." ++ (intText sys.pid ++ ascii ".log"))))

/-- The members that `rollFile` sets. -/
structure LogPeriod where
  startOfPeriod_ : Int
  lastRoll_ : Int
  lastFlush_ : Int
  file_ : AppendFile
  deriving DecidableEq, Repr

namespace LogPeriod

/-- What `rollFile` sets them to, if it rolls. -/
def roll (basename : Bytes) (lastRoll : Int) (sys : LogSys) : Option LogPeriod :=
  if lastRoll < sys.rollNow then
    some ⟨periodOf sys.rollNow, sys.rollNow, sys.rollNow, .new (getLogFileName basename sys)⟩
  else none

def append (p : LogPeriod) (c : LogCall) : LogPeriod := { p with file_ := p.file_.append c }

def flush (p : LogPeriod) (ret : FlushRet) : LogPeriod := { p with file_ := p.file_.flush ret }

end LogPeriod

structure LogFile extends LogPeriod where
  basename_ : Bytes
  rollSize_ : Int
  flushInterval_ : Int
  checkEveryN_ : Int
  count_ : Int
  /-- the ones before, whose files are closed -/
  closed : List LogPeriod
  deriving DecidableEq, Repr

namespace LogFile

/-- The constructor. If its `rollFile` does not roll, `file_` stays null and there is nothing to
append to. -/
def new (basename : Bytes) (rollSize flushInterval checkEveryN : Int) (sys : LogSys) :
    Option LogFile := do
  let period ← LogPeriod.roll basename 0 sys
  return ⟨period, basename, rollSize, flushInterval, checkEveryN, 0, []⟩

def rollFile (s : LogFile) (sys : LogSys) : Bool × LogFile :=
  match LogPeriod.roll s.basename_ s.lastRoll_ sys with
  | some period =>
    (true, { s with
      toLogPeriod := period
      closed := s.closed ++ [s.toLogPeriod.flush sys.close] })
  | none => (false, s)

def append_unlocked (s : LogFile) (c : LogCall) : LogFile :=
  let s := { s with toLogPeriod := s.toLogPeriod.append c }
  if s.rollSize_ < s.file_.writtenBytes_ then (s.rollFile c.sys).2
  else
    let s := { s with count_ := s.count_ + 1 }
    if s.checkEveryN_ ≤ s.count_ then
      let s := { s with count_ := 0 }
      if periodOf c.sys.now ≠ s.startOfPeriod_ then (s.rollFile c.sys).2
      else if s.flushInterval_ < c.sys.now - s.lastFlush_ then
        { s with toLogPeriod := { s.toLogPeriod with lastFlush_ := c.sys.now }.flush c.sys.flush }
      else s
    else s

def flush (s : LogFile) (sys : LogSys) : LogFile :=
  { s with toLogPeriod := s.toLogPeriod.flush sys.flush }

inductive Event
  | append (c : LogCall)
  | flush (sys : LogSys)
  | rollFile (sys : LogSys)
  deriving DecidableEq, Repr

def Event.sys : Event → LogSys
  | .append c => c.sys
  | .flush sys | .rollFile sys => sys

/-- A call, under the lock. -/
def step (s : LogFile) : Event → LogFile
  | .append c => s.append_unlocked c
  | .flush sys => s.flush sys
  | .rollFile sys => (s.rollFile sys).2

/-- The call of `append` that an event is. -/
def Event.call : Event → List LogCall
  | .append c => [c]
  | .flush _ | .rollFile _ => []

/-- The calls of `append`, in the order of the lock. -/
def appends (es : List Event) : List LogCall := es.flatMap Event.call

/-- All files, in the order in which they were opened. -/
def periods (s : LogFile) : List LogPeriod := s.closed ++ [s.toLogPeriod]

def files (s : LogFile) : List AppendFile := s.periods.map LogPeriod.file_

/-! ### What a file holds -/

/-- What the stream takes of a line. -/
def taken (c : LogCall) : Bytes :=
  match c.sys.write with
  | .all _ => c.logline
  | .error n _ => c.logline.take n

/-- A line counts if it is taken whole. -/
def counted (c : LogCall) : Nat := if taken c = c.logline then c.logline.length else 0

structure Held (f : AppendFile) : Prop where
  content : f.fp_.content = f.calls.flatMap taken
  writtenBytes_ : f.writtenBytes_ = (f.calls.map counted).sum

@[simp] theorem content_write (fp : FILE) (n : Nat) : (fp.write n).content = fp.content := by
  rw [FILE.write, FILE.content, List.append_assoc, List.take_append_drop, FILE.content]

@[simp] theorem content_fflush (fp : FILE) (ret : FlushRet) :
    (fp.fflush ret).content = fp.content := by
  cases ret with
  | ok => exact content_write fp _
  | error n => exact content_write _ n

theorem fwrite_spec (fp : FILE) (c : LogCall) :
    (fp.fwrite c.logline c.sys.write).1 = (taken c).length ∧
      (fp.fwrite c.logline c.sys.write).2.content = fp.content ++ taken c ∧
      ((taken c).length ≠ c.logline.length →
        (fp.fwrite c.logline c.sys.write).2.error = true) := by
  cases hwrite : c.sys.write with
  | all written =>
    rw [taken, hwrite]
    refine ⟨rfl, ?_, fun h => absurd rfl h⟩
    rw [FILE.fwrite, content_write, FILE.content, ← List.append_assoc, FILE.content]
  | error n written =>
    rw [taken, hwrite]
    refine ⟨List.length_take.symm, ?_, fun _ => rfl⟩
    rw [FILE.fwrite, content_write, FILE.content, ← List.append_assoc, FILE.content]

theorem taken_prefix (c : LogCall) : taken c <+: c.logline := by
  rw [taken]
  cases c.sys.write with
  | all => exact List.prefix_rfl
  | error n => exact List.take_prefix n _

theorem held_new (filename : Bytes) : Held (.new filename) := ⟨rfl, rfl⟩

theorem Held.append {f : AppendFile} (h : Held f) (c : LogCall) : Held (f.append c) := by
  obtain ⟨hlength, hcontent, herror⟩ := fwrite_spec f.fp_ c
  have hpre := taken_prefix c
  have hsum : ((f.calls ++ [c]).map counted).sum = f.writtenBytes_ + counted c := by
    rw [List.map_append, List.sum_append, h.writtenBytes_]
    rfl
  have hflat : (f.calls ++ [c]).flatMap taken = f.fp_.content ++ taken c := by
    rw [List.flatMap_append, h.content, List.flatMap_singleton]
  by_cases hempty : c.logline.length = 0
  · have hnil := List.eq_nil_of_length_eq_zero hempty
    rw [AppendFile.append, if_pos hempty]
    refine ⟨?_, ?_⟩
    · have htaken : taken c = [] := List.prefix_nil.mp (hnil ▸ hpre)
      rw [hflat, htaken, List.append_nil]
    · rw [hsum, counted, hempty, ite_self, Nat.add_zero]
  · rw [AppendFile.append, if_neg hempty]
    by_cases hwhole : taken c = c.logline
    · have hnot : ¬ ((f.fp_.fwrite c.logline c.sys.write).1 ≠ c.logline.length ∧
          (f.fp_.fwrite c.logline c.sys.write).2.error = true) := fun h =>
        h.1 (by rw [hlength, hwhole])
      simp only [if_neg hnot]
      refine ⟨hcontent.trans hflat.symm, ?_⟩
      rw [hsum, hlength, counted, if_pos hwhole, hwhole]
    · have hshort : (taken c).length ≠ c.logline.length := fun h => hwhole (hpre.eq_of_length h)
      have hstop : (f.fp_.fwrite c.logline c.sys.write).1 ≠ c.logline.length ∧
          (f.fp_.fwrite c.logline c.sys.write).2.error = true :=
        ⟨by rwa [hlength], herror hshort⟩
      simp only [if_pos hstop]
      refine ⟨hcontent.trans hflat.symm, ?_⟩
      rw [hsum, counted, if_neg hwhole, Nat.add_zero]

theorem Held.flush {f : AppendFile} (h : Held f) (ret : FlushRet) : Held (f.flush ret) :=
  ⟨(content_fflush _ _).trans h.content, h.writtenBytes_⟩

theorem calls_append (f : AppendFile) (c : LogCall) : (f.append c).calls = f.calls ++ [c] := by
  rw [AppendFile.append]
  split
  · rfl
  · dsimp only
    split <;> rfl

theorem filename_append (f : AppendFile) (c : LogCall) : (f.append c).filename = f.filename := by
  rw [AppendFile.append]
  split
  · rfl
  · dsimp only
    split <;> rfl

/-! ### The steps -/

/-- The line of a call is appended. -/
def appended (s : LogFile) (e : Event) : LogFile :=
  { s with toLogPeriod := e.call.foldl LogPeriod.append s.toLogPeriod }

/-- What `append_unlocked` does after that. -/
inductive AppendCases (s : LogFile) (sys : LogSys) : LogFile → Prop
  | refused : s.rollSize_ < s.file_.writtenBytes_ → sys.rollNow ≤ s.lastRoll_ →
    AppendCases s sys { s with count_ := s.count_ }
  | counts : ¬ s.rollSize_ < s.file_.writtenBytes_ → s.count_ + 1 < s.checkEveryN_ →
    AppendCases s sys { s with count_ := s.count_ + 1 }
  | checks : ¬ s.rollSize_ < s.file_.writtenBytes_ →
    periodOf sys.now = s.startOfPeriod_ ∨ sys.rollNow ≤ s.lastRoll_ →
    AppendCases s sys { s with count_ := 0 }
  | flushes : ¬ s.rollSize_ < s.file_.writtenBytes_ → periodOf sys.now = s.startOfPeriod_ →
    AppendCases s sys { s with
      count_ := 0
      toLogPeriod := { s.toLogPeriod with lastFlush_ := sys.now }.flush sys.flush }
  | rolls (count : Int) (period : LogPeriod) : count = s.count_ ∨ count = 0 →
    LogPeriod.roll s.basename_ s.lastRoll_ sys = some period →
    AppendCases s sys { s with
      count_ := count
      toLogPeriod := period
      closed := s.closed ++ [s.toLogPeriod.flush sys.close] }

/-- What a call does after that. -/
inductive Outcome (s : LogFile) (sys : LogSys) : LogFile → Prop
  | stays (count : Int) : Outcome s sys { s with count_ := count }
  | flushes (count lastFlush : Int) :
    Outcome s sys { s with
      count_ := count
      toLogPeriod := { s.toLogPeriod with lastFlush_ := lastFlush }.flush sys.flush }
  | rolls (count : Int) (period : LogPeriod) :
    LogPeriod.roll s.basename_ s.lastRoll_ sys = some period →
    Outcome s sys { s with
      count_ := count
      toLogPeriod := period
      closed := s.closed ++ [s.toLogPeriod.flush sys.close] }

theorem roll_eq_none_iff {basename : Bytes} {lastRoll : Int} {sys : LogSys} :
    LogPeriod.roll basename lastRoll sys = none ↔ sys.rollNow ≤ lastRoll := by
  rw [LogPeriod.roll]
  split
  · next h => simpa using h
  · next h => simpa using h

theorem roll_eq_some {basename : Bytes} {lastRoll : Int} {sys : LogSys} {period : LogPeriod}
    (h : LogPeriod.roll basename lastRoll sys = some period) : lastRoll < sys.rollNow ∧
      period = ⟨periodOf sys.rollNow, sys.rollNow, sys.rollNow,
        .new (getLogFileName basename sys)⟩ := by
  rw [LogPeriod.roll] at h
  split at h
  · next hlt => exact ⟨hlt, (Option.some.inj h).symm⟩
  · cases h

theorem append_cases (s : LogFile) (c : LogCall) :
    AppendCases (s.appended (.append c)) c.sys (s.append_unlocked c) := by
  have hs : { s with toLogPeriod := s.toLogPeriod.append c } = s.appended (.append c) := rfl
  rw [append_unlocked, hs]
  generalize s.appended (.append c) = s
  by_cases hsize : s.rollSize_ < s.file_.writtenBytes_
  · rw [if_pos hsize, rollFile]
    cases hroll : LogPeriod.roll s.basename_ s.lastRoll_ c.sys with
    | none => exact .refused hsize (roll_eq_none_iff.mp hroll)
    | some period => exact .rolls s.count_ period (.inl rfl) hroll
  · rw [if_neg hsize]
    by_cases hcheck : s.checkEveryN_ ≤ s.count_ + 1
    · rw [if_pos hcheck]
      by_cases hday : periodOf c.sys.now = s.startOfPeriod_
      · rw [if_neg (not_not_intro hday)]
        split
        · exact .flushes hsize hday
        · exact .checks hsize (.inl hday)
      · rw [if_pos hday, rollFile]
        cases hroll : LogPeriod.roll s.basename_ s.lastRoll_ c.sys with
        | none => exact .checks hsize (.inr (roll_eq_none_iff.mp hroll))
        | some period => exact .rolls 0 period (.inr rfl) hroll
    · rw [if_neg hcheck]
      exact .counts hsize (Int.not_le.mp hcheck)

theorem rollFile_outcome (s : LogFile) (sys : LogSys) : Outcome s sys (s.rollFile sys).2 := by
  rw [rollFile]
  cases hroll : LogPeriod.roll s.basename_ s.lastRoll_ sys with
  | none => exact .stays s.count_
  | some period => exact .rolls s.count_ period hroll

theorem step_outcome (s : LogFile) (e : Event) : Outcome (s.appended e) e.sys (s.step e) := by
  cases e with
  | flush sys => exact .flushes s.count_ s.lastFlush_
  | rollFile sys => exact rollFile_outcome s sys
  | append c =>
    show Outcome _ _ (s.append_unlocked c)
    have hcases := append_cases s c
    generalize s.append_unlocked c = s' at hcases
    cases hcases with
    | refused => exact .stays _
    | counts => exact .stays _
    | checks => exact .stays _
    | flushes => exact .flushes 0 _
    | rolls count period _ hroll => exact .rolls count period hroll

/-! ### All periods -/

theorem mem_periods {s : LogFile} {p : LogPeriod} :
    p ∈ s.periods ↔ p ∈ s.closed ∨ p = s.toLogPeriod := by
  rw [periods, List.mem_append, List.mem_singleton]

/-- What flushing keeps and a new period has, every period has. -/
theorem Outcome.forall_periods {P : LogPeriod → Prop} {s s' : LogFile} {sys : LogSys}
    (h : Outcome s sys s')
    (hflush : ∀ p lastFlush ret, P p → P ({ p with lastFlush_ := lastFlush }.flush ret))
    (hnew : ∀ p, LogPeriod.roll s.basename_ s.lastRoll_ sys = some p → P p)
    (hp : ∀ p ∈ s.periods, P p) : ∀ p ∈ s'.periods, P p := by
  have hclosed : ∀ p ∈ s.closed, P p := fun p hmem => hp p (mem_periods.mpr (.inl hmem))
  have hopen : P s.toLogPeriod := hp _ (mem_periods.mpr (.inr rfl))
  intro p hmem
  cases h with
  | stays => exact hp p hmem
  | flushes count lastFlush =>
    rcases mem_periods.mp hmem with hmem | rfl
    · exact hclosed p hmem
    · exact hflush _ lastFlush _ hopen
  | rolls count period hroll =>
    rcases mem_periods.mp hmem with hmem | rfl
    · rcases List.mem_append.mp hmem with hmem | hmem
      · exact hclosed p hmem
      · rw [List.mem_singleton.mp hmem]
        exact hflush s.toLogPeriod s.lastFlush_ _ hopen
    · exact hnew _ hroll

theorem forall_periods_appended {P : LogPeriod → Prop} {s : LogFile}
    (happend : ∀ p c, P p → P (p.append c)) (hp : ∀ p ∈ s.periods, P p) (e : Event) :
    ∀ p ∈ (s.appended e).periods, P p := by
  intro p hmem
  rcases mem_periods.mp hmem with hmem | rfl
  · exact hp p (mem_periods.mpr (.inl hmem))
  · have hopen : P s.toLogPeriod := hp _ (mem_periods.mpr (.inr rfl))
    cases e with
    | append c => exact happend _ c hopen
    | flush => exact hopen
    | rollFile => exact hopen

/-! ### Every line is in its file -/

/-- The lines are in the files in which `append_unlocked` put them, in order. -/
structure Kept (s : LogFile) (calls : List LogCall) : Prop where
  calls : s.files.flatMap AppendFile.calls = calls
  held : ∀ p ∈ s.periods, Held p.file_

theorem flatMap_calls (s : LogFile) :
    s.files.flatMap AppendFile.calls =
      s.closed.flatMap (fun p => p.file_.calls) ++ s.file_.calls := by
  rw [files, List.flatMap_map, periods, List.flatMap_append, List.flatMap_singleton]

theorem Kept.outcome {s s' : LogFile} {sys : LogSys} {calls : List LogCall} (h : Kept s calls)
    (hout : Outcome s sys s') : Kept s' calls := by
  constructor
  · rw [← h.calls, flatMap_calls, flatMap_calls]
    cases hout with
    | stays => rfl
    | flushes => rfl
    | rolls count period hroll =>
      obtain ⟨-, rfl⟩ := roll_eq_some hroll
      show List.flatMap _ (s.closed ++ [s.toLogPeriod.flush sys.close]) ++ [] = _
      rw [List.append_nil, List.flatMap_append, List.flatMap_singleton]
      rfl
  · refine hout.forall_periods (fun p _ ret hp => hp.flush ret) (fun p hroll => ?_) h.held
    obtain ⟨-, rfl⟩ := roll_eq_some hroll
    exact held_new _

theorem Kept.appended {s : LogFile} {calls : List LogCall} (h : Kept s calls) (e : Event) :
    Kept (s.appended e) (calls ++ e.call) := by
  constructor
  · rw [← h.calls, flatMap_calls, flatMap_calls, List.append_assoc]
    refine congrArg (List.flatMap _ s.closed ++ ·) ?_
    cases e with
    | append c => exact calls_append _ c
    | flush => exact (List.append_nil _).symm
    | rollFile => exact (List.append_nil _).symm
  · exact forall_periods_appended (fun p c hp => hp.append c) h.held e

theorem Kept.run {s : LogFile} (h : Kept s []) (es : List Event) :
    Kept (run step s es) (appends es) := by
  have hall : Meets (fun _ _ => True) step s es := meets_of_always fun _ _ => trivial
  have hledger := run_ledger (fun (_ : LogFile) e => Event.call e)
    (fun s e _ hs _ => (hs.appended e).outcome (step_outcome s e)) h hall
  have hcollect : ∀ (es : List Event) (s : LogFile),
      collect (fun _ e => Event.call e) step s es = appends es := fun es => by
    induction es with
    | nil => exact fun _ => rfl
    | cons e es ih => exact fun s => by rw [collect, ih, appends, appends, List.flatMap_cons]
  rwa [hcollect] at hledger

theorem new_eq_some {basename : Bytes} {rollSize flushInterval checkEveryN : Int} {sys : LogSys}
    {s : LogFile} (h : LogFile.new basename rollSize flushInterval checkEveryN sys = some s) :
    ∃ p, LogPeriod.roll basename 0 sys = some p ∧
      s = ⟨p, basename, rollSize, flushInterval, checkEveryN, 0, []⟩ := by
  obtain ⟨p, hroll, hs⟩ := Option.bind_eq_some_iff.mp h
  exact ⟨p, hroll, (Option.some.inj hs).symm⟩

theorem kept_new {basename : Bytes} {rollSize flushInterval checkEveryN : Int} {sys : LogSys}
    {s : LogFile} (h : LogFile.new basename rollSize flushInterval checkEveryN sys = some s) :
    Kept s [] := by
  obtain ⟨p, hroll, rfl⟩ := new_eq_some h
  obtain ⟨-, rfl⟩ := roll_eq_some hroll
  refine ⟨rfl, fun q hq => ?_⟩
  rcases mem_periods.mp hq with hmem | rfl
  · cases hmem
  · exact held_new _

/-- With no error of `fclose` nothing stays in the buffer of a closed file. -/
theorem closed_written {s : LogFile} {es : List Event} (hclose : ∀ e ∈ es, e.sys.close = .ok)
    (h : ∀ p ∈ s.closed, p.file_.fp_.buffer = []) :
    ∀ p ∈ (run step s es).closed, p.file_.fp_.buffer = [] := by
  have hmeets : Meets (fun (_ : LogFile) (e : Event) => e.sys.close = .ok) step s es :=
    meets_of_forall hclose
  refine run_invariant (I := fun s : LogFile => ∀ p ∈ s.closed, p.file_.fp_.buffer = [])
    (fun s e hs hok => ?_) h hmeets
  have hout := step_outcome s e
  generalize s.step e = s' at hout
  intro p hmem
  cases hout with
  | stays => exact hs p hmem
  | flushes => exact hs p hmem
  | rolls count period hroll =>
    rcases List.mem_append.mp hmem with hmem | hmem
    · exact hs p hmem
    · rw [List.mem_singleton.mp hmem, hok]
      exact List.drop_length

/-! ### The names sort -/

/-- The file is named after the reading with which it was opened. -/
def Named (basename : Bytes) (p : LogPeriod) : Prop :=
  0 < p.lastRoll_ ∧ p.lastRoll_ < year10000 ∧
    ∃ rest, p.file_.filename = basename ++ (strftime (gmtime_r p.lastRoll_) ++ rest)

structure NamesSort (s : LogFile) : Prop where
  named : ∀ p ∈ s.periods, Named s.basename_ p
  lastRoll_ : (s.periods.map LogPeriod.lastRoll_).Pairwise (· < ·)

theorem Named.lt_iff {basename : Bytes} {p q : LogPeriod} (hp : Named basename p)
    (hq : Named basename q) (h : p.lastRoll_ < q.lastRoll_) :
    p.file_.filename < q.file_.filename := by
  obtain ⟨hp0, hp1, rest, hrest⟩ := hp
  obtain ⟨hq0, hq1, rest', hrest'⟩ := hq
  rw [hrest, hrest']
  exact (strftime_lt_iff hp0.le hp1 hq0.le hq1 basename rest rest').mpr (.inl h)

theorem NamesSort.filenames {s : LogFile} (h : NamesSort s) :
    (s.files.map AppendFile.filename).Pairwise (· < ·) := by
  have hsorted := List.pairwise_map.mp h.lastRoll_
  rw [files, List.map_map, List.pairwise_map]
  exact hsorted.imp_of_mem fun hp hq hlt => (h.named _ hp).lt_iff (h.named _ hq) hlt

theorem named_roll {basename : Bytes} {lastRoll : Int} {sys : LogSys} {p : LogPeriod}
    (hroll : LogPeriod.roll basename lastRoll sys = some p) (h0 : 0 ≤ lastRoll)
    (hyear : sys.rollNow < year10000) : Named basename p := by
  obtain ⟨hlt, rfl⟩ := roll_eq_some hroll
  exact ⟨h0.trans_lt hlt, hyear, _, rfl⟩

theorem NamesSort.outcome {s s' : LogFile} {sys : LogSys} (h : NamesSort s)
    (hout : Outcome s sys s') (hyear : sys.rollNow < year10000) : NamesSort s' := by
  have hopen := h.named _ (mem_periods.mpr (.inr rfl))
  have hbasename : s'.basename_ = s.basename_ := by cases hout <;> rfl
  constructor
  · rw [hbasename]
    exact hout.forall_periods (fun p _ ret hp => hp)
      (fun p hroll => named_roll hroll hopen.1.le hyear) h.named
  · have hsorted := h.lastRoll_
    rw [periods, List.map_append, List.map_singleton] at hsorted
    rw [periods, List.map_append, List.map_singleton]
    cases hout with
    | stays => exact hsorted
    | flushes => exact hsorted
    | rolls count period hroll =>
      obtain ⟨hlt, rfl⟩ := roll_eq_some hroll
      rw [List.map_append, List.map_singleton]
      refine List.pairwise_append.mpr ⟨hsorted, List.pairwise_singleton _ _, ?_⟩
      intro roll hmem roll' hroll'
      rw [List.mem_singleton.mp hroll']
      rcases List.mem_append.mp hmem with hmem | hmem
      · have hbefore := (List.pairwise_append.mp hsorted).2.2 roll hmem _ List.mem_cons_self
        exact Int.lt_trans hbefore hlt
      · rw [List.mem_singleton.mp hmem]
        exact hlt

theorem NamesSort.appended {s : LogFile} (h : NamesSort s) (e : Event) :
    NamesSort (s.appended e) := by
  have hsame : (s.appended e).lastRoll_ = s.lastRoll_ := by cases e <;> rfl
  constructor
  · refine forall_periods_appended (P := Named s.basename_) (fun p c hp => ?_) h.named e
    obtain ⟨h0, h1, rest, hrest⟩ := hp
    exact ⟨h0, h1, rest, (filename_append _ c).trans hrest⟩
  · have hsorted := h.lastRoll_
    rw [periods, List.map_append, List.map_singleton] at hsorted ⊢
    rw [hsame]
    exact hsorted

theorem NamesSort.run {s : LogFile} (h : NamesSort s) {es : List Event}
    (hyears : ∀ e ∈ es, e.sys.rollNow < year10000) : NamesSort (run step s es) := by
  have hmeets : Meets (fun (_ : LogFile) (e : Event) => e.sys.rollNow < year10000) step s es :=
    meets_of_forall hyears
  exact run_invariant (fun s e hs hyear => (hs.appended e).outcome (step_outcome s e) hyear) h
    hmeets

theorem namesSort_new {basename : Bytes} {rollSize flushInterval checkEveryN : Int} {sys : LogSys}
    {s : LogFile} (h : LogFile.new basename rollSize flushInterval checkEveryN sys = some s)
    (hyear : sys.rollNow < year10000) : NamesSort s := by
  obtain ⟨p, hroll, rfl⟩ := new_eq_some h
  have hnamed : Named basename p := named_roll hroll (Int.le_refl 0) hyear
  refine ⟨fun q hq => ?_, List.pairwise_singleton _ _⟩
  rcases mem_periods.mp hq with hmem | rfl
  · cases hmem
  · exact hnamed

theorem taken_of_noError {c : LogCall} (h : c.sys.NoError) : taken c = c.logline := by
  obtain ⟨n, hn⟩ := h.1
  rw [taken, hn]

/-- With no error the files hold the lines. -/
theorem Kept.content_eq {s : LogFile} {calls : List LogCall} (h : Kept s calls)
    (herror : ∀ c ∈ calls, c.sys.NoError) {f : AppendFile} (hf : f ∈ s.files) :
    f.fp_.content = f.calls.flatMap LogCall.logline := by
  obtain ⟨p, hp, rfl⟩ := List.mem_map.mp hf
  rw [(h.held p hp).content, List.flatMap_def, List.flatMap_def]
  refine congrArg List.flatten (List.map_congr_left fun c hc => taken_of_noError ?_)
  exact herror c (h.calls ▸ List.mem_flatMap.mpr ⟨_, hf, hc⟩)

theorem Kept.flatMap_content {s : LogFile} {calls : List LogCall} (h : Kept s calls)
    (herror : ∀ c ∈ calls, c.sys.NoError) :
    s.files.flatMap (fun f => f.fp_.content) = calls.flatMap LogCall.logline := by
  rw [← h.calls, List.flatMap_assoc]
  exact List.flatMap_congr fun f hf => h.content_eq herror hf

theorem mem_appends {c : LogCall} {es : List Event} (h : c ∈ appends es) : .append c ∈ es := by
  obtain ⟨e, he, hc⟩ := List.mem_flatMap.mp h
  cases e with
  | append c' => rwa [List.mem_singleton.mp hc]
  | flush => cases hc
  | rollFile => cases hc

/-- The files hold what the stream took of every line, in the order of the calls, and their names
sort in the order in which they were opened. With no error of the stream they hold the lines, and
of the files that were closed nothing is left in a buffer. -/
theorem log_files_hold (basename : Bytes) (rollSize flushInterval checkEveryN : Int) (sys : LogSys)
    (s : LogFile) (es : List Event)
    (hnew : LogFile.new basename rollSize flushInterval checkEveryN sys = some s)
    (hyear : sys.rollNow < year10000) (hyears : ∀ e ∈ es, e.sys.rollNow < year10000) :
    (run step s es).files.flatMap AppendFile.calls = appends es ∧
      (∀ f ∈ (run step s es).files, f.fp_.content = f.calls.flatMap taken ∧
        f.writtenBytes_ = (f.calls.map counted).sum) ∧
      ((run step s es).files.map AppendFile.filename).Pairwise (· < ·) ∧
      ((∀ e ∈ es, e.sys.NoError) →
        (run step s es).files.flatMap (fun f => f.fp_.content) =
          (appends es).flatMap LogCall.logline ∧
        ∀ p ∈ (run step s es).closed,
          p.file_.fp_.disk = p.file_.calls.flatMap LogCall.logline) := by
  have hkept := (kept_new hnew).run es
  have hnames := (namesSort_new hnew hyear).run hyears
  have hheld : ∀ f ∈ (run step s es).files, Held f := fun f hf => by
    obtain ⟨p, hp, rfl⟩ := List.mem_map.mp hf
    exact hkept.held p hp
  refine ⟨hkept.calls, fun f hf => ⟨(hheld f hf).content, (hheld f hf).writtenBytes_⟩,
    hnames.filenames, fun herror => ?_⟩
  have herrors : ∀ c ∈ appends es, c.sys.NoError := fun c hc => herror _ (mem_appends hc)
  refine ⟨hkept.flatMap_content herrors, fun p hp => ?_⟩
  have hwritten := closed_written (s := s) (fun e he => (herror e he).2.2) (by
    obtain ⟨q, -, rfl⟩ := new_eq_some hnew
    exact List.forall_mem_nil _) p hp
  have hline := hkept.content_eq herrors (List.mem_map_of_mem (mem_periods.mpr (.inl hp)))
  rwa [FILE.content, hwritten, List.append_nil] at hline

/-- The answers at the time `t`, with nothing written yet. -/
def answersAt (t : Int) : LogSys := ⟨t, t, ascii "host", 1, .all 0, .ok, .ok⟩

theorem answersAt_noError (t : Int) : (answersAt t).NoError := ⟨⟨0, rfl⟩, rfl, rfl⟩

theorem log_files_hold_rolled : ∃ s, LogFile.new (ascii "log") 3 3 2 (answersAt 10) = some s ∧
    (run step s [.append ⟨ascii "abcd", answersAt 11⟩, .append ⟨ascii "ef", answersAt 12⟩]
      ).files.flatMap (fun f => f.fp_.content) = ascii "abcdef" := by
  refine ⟨_, rfl, ((log_files_hold (ascii "log") 3 3 2 (answersAt 10) _ _ rfl ?_ ?_).2.2.2 ?_).1⟩
  · decide
  · decide
  · intro e he
    rcases List.mem_pair.mp he with rfl | rfl <;> exact answersAt_noError _

/-! ### When a file is over -/

/-- The calls before the size rolls the file: those after which it is larger were made in the second
in which it was opened. -/
def SizeKept (rollSize opened : Int) (calls : List LogCall) : Prop :=
  ∀ before c, before ++ [c] <+: calls → rollSize < ((before ++ [c]).map counted).sum →
    c.sys.now = opened

/-- The calls on another day than the one on which the file was opened. -/
def lateCalls (opened : Int) (calls : List LogCall) : Nat :=
  calls.countP fun c => periodOf c.sys.now ≠ periodOf opened

theorem periodOf_mono {t t' : Int} (h : t ≤ t') : periodOf t ≤ periodOf t' :=
  Int.mul_le_mul_of_nonneg_right (Int.tdiv_le_tdiv (by decide) h) (by decide)

theorem SizeKept.mono {rollSize opened : Int} {calls calls' : List LogCall}
    (h : SizeKept rollSize opened calls) (hpre : calls' <+: calls) :
    SizeKept rollSize opened calls' :=
  fun before c hbefore => h before c (hbefore.trans hpre)

theorem SizeKept.append {rollSize opened : Int} {calls : List LogCall} {c : LogCall}
    (h : SizeKept rollSize opened calls)
    (hc : rollSize < ((calls ++ [c]).map counted).sum → c.sys.now = opened) :
    SizeKept rollSize opened (calls ++ [c]) := by
  intro before c' hpre hsize
  rcases List.prefix_concat_iff.mp hpre with heq | hpre
  · obtain ⟨rfl, hlast⟩ := List.append_inj' heq rfl
    obtain rfl := List.singleton_inj.mp hlast
    exact hc hsize
  · exact h before c' hpre hsize

/-- A file that is over. -/
structure Over (rollSize checkEveryN : Int) (p : LogPeriod) : Prop where
  size : SizeKept rollSize p.lastRoll_ p.file_.calls.dropLast
  late : (lateCalls p.lastRoll_ p.file_.calls : Int) ≤ max 1 checkEveryN

/-- The file that gets the lines, at some time. -/
structure Open (clock : Int) (s : LogFile) : Prop where
  held : Held s.file_
  startOfPeriod_ : s.startOfPeriod_ = periodOf s.lastRoll_
  lastRoll_ : s.lastRoll_ ≤ clock
  readings : ∀ c ∈ s.file_.calls, s.lastRoll_ ≤ c.sys.now ∧ c.sys.now ≤ clock
  size : SizeKept s.rollSize_ s.lastRoll_ s.file_.calls
  late : (lateCalls s.lastRoll_ s.file_.calls : Int) ≤ s.count_
  count_ : s.count_ < max 1 s.checkEveryN_
  closed : ∀ p ∈ s.closed, Over s.rollSize_ s.checkEveryN_ p

theorem lateCalls_append (opened : Int) (calls : List LogCall) (c : LogCall) :
    lateCalls opened (calls ++ [c]) =
      lateCalls opened calls + if periodOf c.sys.now ≠ periodOf opened then 1 else 0 := by
  rw [lateCalls, List.countP_append, List.countP_singleton, lateCalls]
  simp only [decide_eq_true_eq]

/-- No call is late while the clock is in the day in which the file was opened. -/
theorem lateCalls_eq_zero {opened now : Int} {calls : List LogCall}
    (hday : periodOf now = periodOf opened)
    (h : ∀ c ∈ calls, opened ≤ c.sys.now ∧ c.sys.now ≤ now) : lateCalls opened calls = 0 := by
  refine List.countP_eq_zero.mpr fun c hc => ?_
  obtain ⟨hfrom, hto⟩ := h c hc
  have hsame : periodOf c.sys.now = periodOf opened :=
    Int.le_antisymm ((periodOf_mono hto).trans_eq hday) (periodOf_mono hfrom)
  simpa using hsame

/-- A file that is over, and a new one. -/
theorem Open.rolls {clock : Int} {s : LogFile} {sys : LogSys} {count : Int} {period : LogPeriod}
    (hroll : LogPeriod.roll s.basename_ s.lastRoll_ sys = some period)
    (hcount : 0 ≤ count ∧ count < max 1 s.checkEveryN_)
    (hclosed : ∀ p ∈ s.closed, Over s.rollSize_ s.checkEveryN_ p)
    (hover : Over s.rollSize_ s.checkEveryN_ (s.toLogPeriod.flush sys.close))
    (hclock : sys.rollNow ≤ clock) :
    Open clock { s with
      count_ := count
      toLogPeriod := period
      closed := s.closed ++ [s.toLogPeriod.flush sys.close] } := by
  obtain ⟨hlt, rfl⟩ := roll_eq_some hroll
  refine ⟨held_new _, rfl, hclock, List.forall_mem_nil _, ?_, hcount.1, hcount.2, ?_⟩
  · intro before c hpre
    exact absurd (List.prefix_nil.mp hpre) (List.append_ne_nil_of_right_ne_nil _ (by simp))
  · intro p hp
    rcases List.mem_append.mp hp with hp | hp
    · exact ⟨(hclosed p hp).size, (hclosed p hp).late⟩
    · rw [List.mem_singleton.mp hp]
      exact ⟨hover.size, hover.late⟩

theorem Open.append {clock : Int} {s : LogFile} (h : Open clock s) {c : LogCall}
    (hnow : clock ≤ c.sys.now) (hroll : c.sys.now ≤ c.sys.rollNow) :
    Open c.sys.rollNow (s.append_unlocked c) := by
  have hcases := append_cases s c
  generalize s.append_unlocked c = s' at hcases
  have hcalls : (s.appended (.append c)).file_.calls = s.file_.calls ++ [c] := calls_append _ c
  have hheld : Held (s.appended (.append c)).file_ := h.held.append c
  have hlate := lateCalls_append s.lastRoll_ s.file_.calls c
  have hcount0 : 0 ≤ s.count_ := by
    have := h.late
    omega
  have hreadings : ∀ d ∈ (s.appended (.append c)).file_.calls,
      s.lastRoll_ ≤ d.sys.now ∧ d.sys.now ≤ c.sys.now := fun d hd => by
    rcases List.mem_append.mp (hcalls ▸ hd) with hd | hd
    · exact ⟨(h.readings d hd).1, (h.readings d hd).2.trans hnow⟩
    · rw [List.mem_singleton.mp hd]
      exact ⟨h.lastRoll_.trans hnow, Int.le_refl _⟩
  have hreadings' : ∀ d ∈ (s.appended (.append c)).file_.calls,
      s.lastRoll_ ≤ d.sys.now ∧ d.sys.now ≤ c.sys.rollNow := fun d hd =>
    ⟨(hreadings d hd).1, (hreadings d hd).2.trans hroll⟩
  have hlast : s.lastRoll_ ≤ c.sys.rollNow := (h.lastRoll_.trans hnow).trans hroll
  have hsmall : ¬ s.rollSize_ < (s.appended (.append c)).file_.writtenBytes_ →
      SizeKept s.rollSize_ s.lastRoll_ (s.appended (.append c)).file_.calls := fun hsize => by
    rw [hcalls]
    refine h.size.append fun hmore => absurd ?_ hsize
    rwa [hheld.writtenBytes_, hcalls]
  -- a roll is refused only in the second in which the file was opened
  have hsecond : c.sys.rollNow ≤ s.lastRoll_ → c.sys.now = s.lastRoll_ := fun hrefused =>
    Int.le_antisymm (hroll.trans hrefused) (h.lastRoll_.trans hnow)
  cases hcases with
  | refused hsize hrefused =>
    have hsame := hsecond hrefused
    refine ⟨hheld, h.startOfPeriod_, hlast, hreadings', ?_, ?_, h.count_, h.closed⟩
    · show SizeKept _ _ (s.appended (.append c)).file_.calls
      rw [hcalls]
      exact h.size.append fun _ => hsame
    · show (lateCalls _ (s.appended (.append c)).file_.calls : Int) ≤ _
      rw [hcalls]
      rw [hsame, if_neg (not_not_intro rfl), Nat.add_zero] at hlate
      exact hlate ▸ h.late
  | counts hsize hcount =>
    refine ⟨hheld, h.startOfPeriod_, hlast, hreadings', hsmall hsize, ?_, ?_, h.closed⟩
    · show (lateCalls s.lastRoll_ (s.appended (.append c)).file_.calls : Int) ≤ s.count_ + 1
      rw [hcalls]
      have := h.late
      split at hlate <;> omega
    · exact lt_max_of_lt_right hcount
  | checks hsize hday =>
    have hday' : periodOf c.sys.now = periodOf s.lastRoll_ := by
      rcases hday with hday | hrefused
      · exact hday.trans h.startOfPeriod_
      · rw [hsecond hrefused]
    have hzero := lateCalls_eq_zero hday' hreadings
    refine ⟨hheld, h.startOfPeriod_, hlast, hreadings', hsmall hsize, ?_, ?_, h.closed⟩
    · exact (congrArg Int.ofNat hzero).le
    · exact lt_max_of_lt_left Int.zero_lt_one
  | flushes hsize hday =>
    have hzero := lateCalls_eq_zero (hday.trans h.startOfPeriod_) hreadings
    refine ⟨hheld.flush _, h.startOfPeriod_, hlast, hreadings', hsmall hsize, ?_, ?_, h.closed⟩
    · exact (congrArg Int.ofNat hzero).le
    · exact lt_max_of_lt_left Int.zero_lt_one
  | rolls count period hcount hperiod =>
    have hmax := h.count_
    refine Open.rolls hperiod ?_ h.closed ⟨?_, ?_⟩ (Int.le_refl _)
    · rcases hcount with rfl | rfl
      · exact ⟨hcount0, h.count_⟩
      · exact ⟨Int.le_refl 0, lt_max_of_lt_left Int.zero_lt_one⟩
    · show SizeKept _ _ (s.appended (.append c)).file_.calls.dropLast
      rw [hcalls, List.dropLast_concat]
      exact h.size
    · show (lateCalls s.lastRoll_ (s.appended (.append c)).file_.calls : Int) ≤
        max 1 s.checkEveryN_
      rw [hcalls]
      have := h.late
      split at hlate <;> omega

theorem Open.step {clock : Int} {s : LogFile} (h : Open clock s) {e : Event}
    (hnow : clock ≤ e.sys.now) (hroll : e.sys.now ≤ e.sys.rollNow) :
    Open e.sys.rollNow (s.step e) := by
  have hlast := (h.lastRoll_.trans hnow).trans hroll
  have hreadings : ∀ c ∈ s.file_.calls, s.lastRoll_ ≤ c.sys.now ∧ c.sys.now ≤ e.sys.rollNow :=
    fun c hc => ⟨(h.readings c hc).1, ((h.readings c hc).2.trans hnow).trans hroll⟩
  cases e with
  | append c => exact h.append hnow hroll
  | flush sys =>
    exact ⟨h.held.flush _, h.startOfPeriod_, hlast, hreadings, h.size, h.late, h.count_, h.closed⟩
  | rollFile sys =>
    show Open _ (s.rollFile sys).2
    rw [rollFile]
    cases hperiod : LogPeriod.roll s.basename_ s.lastRoll_ sys with
    | none =>
      exact ⟨h.held, h.startOfPeriod_, hlast, hreadings, h.size, h.late, h.count_, h.closed⟩
    | some period =>
      have hcount0 : 0 ≤ s.count_ := (Int.natCast_nonneg _).trans h.late
      refine Open.rolls hperiod ⟨hcount0, h.count_⟩ h.closed ⟨?_, ?_⟩ (Int.le_refl _)
      · exact h.size.mono (List.dropLast_prefix _)
      · exact h.late.trans h.count_.le

theorem open_new {basename : Bytes} {rollSize flushInterval checkEveryN : Int} {sys : LogSys}
    {s : LogFile} (h : LogFile.new basename rollSize flushInterval checkEveryN sys = some s) :
    Open sys.rollNow s := by
  obtain ⟨p, hroll, rfl⟩ := new_eq_some h
  obtain ⟨-, rfl⟩ := roll_eq_some hroll
  refine ⟨held_new _, rfl, Int.le_refl _, List.forall_mem_nil _, ?_, Int.le_refl 0,
    lt_max_of_lt_left Int.zero_lt_one, List.forall_mem_nil _⟩
  intro before c hpre
  exact absurd (List.prefix_nil.mp hpre) (List.append_ne_nil_of_right_ne_nil _ (by simp))

/-- The readings of the clock during a call. -/
def Event.readings (e : Event) : List Int := [e.sys.now, e.sys.rollNow]

theorem Open.run {clock : Int} {s : LogFile} {es : List Event} (h : Open clock s)
    (hclock : (clock :: es.flatMap Event.readings).Pairwise (· ≤ ·)) :
    ∃ clock', Open clock' (run LogFile.step s es) := by
  induction es generalizing clock s with
  | nil => exact ⟨clock, h⟩
  | cons e es ih =>
    have hpair : (clock :: e.sys.now :: e.sys.rollNow :: es.flatMap Event.readings).Pairwise
        (· ≤ ·) := hclock
    simp only [List.pairwise_cons] at hpair
    obtain ⟨hfirst, hsecond, hthird, hrest⟩ := hpair
    have hnow : clock ≤ e.sys.now := hfirst _ List.mem_cons_self
    have hroll : e.sys.now ≤ e.sys.rollNow := hsecond _ List.mem_cons_self
    exact ih (h.step hnow hroll) (List.pairwise_cons.mpr ⟨hthird, hrest⟩)

/-- With a clock that does not go back, a file grows past `rollSize_` before its last line only in
the second in which it was opened, and it has at most `checkEveryN_` lines of later days. -/
theorem log_files_roll (basename : Bytes) (rollSize flushInterval checkEveryN : Int) (sys : LogSys)
    (s : LogFile) (es : List Event)
    (hnew : LogFile.new basename rollSize flushInterval checkEveryN sys = some s)
    (hclock : (sys.rollNow :: es.flatMap Event.readings).Pairwise (· ≤ ·)) :
    ∀ p ∈ (run step s es).periods,
      SizeKept rollSize p.lastRoll_ p.file_.calls.dropLast ∧
      (lateCalls p.lastRoll_ p.file_.calls : Int) ≤ max 1 checkEveryN := by
  have hkeeps : ∀ (s : LogFile) e, s.rollSize_ = rollSize ∧ s.checkEveryN_ = checkEveryN →
      (s.step e).rollSize_ = rollSize ∧ (s.step e).checkEveryN_ = checkEveryN := fun s e hs => by
    have hout := step_outcome s e
    generalize s.step e = s' at hout
    cases hout <;> exact hs
  have hnumbers : (run step s es).rollSize_ = rollSize ∧
      (run step s es).checkEveryN_ = checkEveryN := by
    refine run_preserves hkeeps es ?_
    obtain ⟨q, -, rfl⟩ := new_eq_some hnew
    exact ⟨rfl, rfl⟩
  obtain ⟨clock, hopen⟩ := (open_new hnew).run hclock
  intro p hp
  rcases mem_periods.mp hp with hp | rfl
  · have hover := hopen.closed p hp
    rw [hnumbers.1, hnumbers.2] at hover
    exact ⟨hover.size, hover.late⟩
  · have hsize := hopen.size
    have hlate := hopen.late.trans hopen.count_.le
    rw [hnumbers.1] at hsize
    rw [hnumbers.2] at hlate
    exact ⟨hsize.mono (List.dropLast_prefix _), hlate⟩

theorem log_files_roll_days : ∃ s, LogFile.new (ascii "log") 3 3 2 (answersAt 10) = some s ∧
    ∀ p ∈ (run step s [.append ⟨ascii "a", answersAt 86400⟩, .append ⟨ascii "b", answersAt 86401⟩,
        .append ⟨ascii "c", answersAt 86402⟩]).periods,
      (lateCalls p.lastRoll_ p.file_.calls : Int) ≤ 2 :=
  ⟨_, rfl, fun p hp =>
    (log_files_roll (ascii "log") 3 3 2 (answersAt 10) _ _ rfl (by decide) p hp).2⟩

end LogFile

end Mymuduo
