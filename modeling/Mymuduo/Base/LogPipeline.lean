import Mymuduo.Base.AsyncLogging
import Mymuduo.Base.LogFile

/-!
# The backend thread with its `LogFile`

`threadFunc` of `AsyncLogging` owns the `LogFile`: it makes it when it starts, appends each buffer
and each notice, and flushes it at the end of an iteration and at its own end.

* `logged_on_disk`: at any time of any interleaving every line is in the files, in the buffer of the
  stream, with the backend or with the threads that log, once and in order. Between two iterations
  nothing is left with the backend or in the stream.
-/

namespace Mymuduo

open CString Transition AsyncLogging

structure LogPipeline where
  logging : AsyncLogging
  /-- the local variable of `threadFunc` -/
  output : Option LogFile
  deriving DecidableEq, Repr

namespace LogPipeline

def new : LogPipeline := ⟨.new, none⟩

/-- `threadFunc` makes its `LogFile`. -/
def outputAfter (basename : Bytes) (rollSize : Int) (s : LogPipeline) (e : AsyncLogging.Event)
    (sys : LogSys) : Option LogFile :=
  match e, s.logging.pc with
  | .start, .notStarted => LogFile.new basename rollSize 3 1024 sys
  | _, _ => s.output

/-- The `output.append` of an effect. -/
def appendOf (sys : LogSys) : LogEffect → List LogFile.Event
  | .written data | .notice data => [.append ⟨data, sys⟩]
  | .appended _ | .takenOver _ => []

/-- `output.flush()` stands at the end of an iteration and after the loop. -/
def flushBetween (sys : LogSys) : BackendPc → BackendPc → List LogFile.Event
  | .writing _, .test | .test, .done => [.flush sys]
  | _, _ => []

/-- What a step calls. -/
def calls (s s' : AsyncLogging) (sys : LogSys) : List LogFile.Event :=
  (s'.trace.drop s.trace.length).flatMap (appendOf sys) ++ flushBetween sys s.pc s'.pc

/-- A step of the threads, with what the system answers to the `LogFile`. -/
def step (basename : Bytes) (rollSize : Int) (s : LogPipeline) (e : AsyncLogging.Event × LogSys) :
    LogPipeline :=
  let logging := s.logging.step e.1
  { logging
    output := (outputAfter basename rollSize s e.1 e.2).map fun output =>
      run LogFile.step output (calls s.logging logging e.2) }

def onDisk (s : LogPipeline) : Bytes :=
  s.output.elim [] fun f => f.files.flatMap fun file => file.fp_.disk

def inStream (s : LogPipeline) : Bytes := s.output.elim [] fun f => f.file_.fp_.buffer

/-! ## What the backend gives to the `LogFile` -/

def given (s : AsyncLogging) : List Bytes :=
  s.trace.filterMap fun
    | .written data | .notice data => some data
    | _ => none

/-- What it has not given of the batch yet. -/
def rest (s : AsyncLogging) : List Bytes :=
  match s.pc with
  | .writing n => (s.buffersToWrite.drop n).map contents
  | _ => s.buffersToWrite.map contents

theorem given_emit {s s' : AsyncLogging} {e : LogEffect} (h : s'.trace = s.trace ++ [e]) :
    given s' = given s ++
      (match e with | .written data | .notice data => [data] | _ => []) := by
  cases e <;> simp [h, given]

/-- What is written and what is left make up what is left of the batches. -/
theorem written_append_rest {s : AsyncLogging} (h : Content s) (hs : Sound s) :
    s.written ++ rest s = s.survivors := by
  have hout := h.output
  have hlocals := hs.locals
  unfold Written at hout
  unfold Locals at hlocals
  unfold rest survivors
  cases hpc : s.pc with
  | takenOver =>
    rw [hpc] at hout
    obtain ⟨bs, hbatches, hwritten⟩ := hout
    simp [hbatches, hwritten]
  | writing n =>
    rw [hpc] at hout
    obtain ⟨bs, batch, hbatches, hkept, hle, hwritten⟩ := hout
    simp only
    rw [hwritten, List.map_drop, hkept, List.append_assoc, List.take_append_drop, hbatches,
      List.flatMap_append, List.flatMap_singleton]
  | notStarted =>
    rw [hpc] at hout hlocals
    exact (congrArg _ (congrArg _ hlocals)).trans ((List.append_nil _).trans hout)
  | test | lock | waiting | done =>
    rw [hpc] at hout hlocals
    exact (congrArg _ (congrArg _ hlocals.2.2)).trans ((List.append_nil _).trans hout)

/-- Only for a batch of more than 25 buffers there is a notice. -/
def Plain (s : AsyncLogging) : Prop :=
  (∀ batch ∈ s.batches, batch.length ≤ 25) → given s = s.written

theorem Plain.emit {s s' : AsyncLogging} {e : LogEffect} (h : Plain s)
    (htrace : s'.trace = s.trace ++ [e]) (hnotice : ∀ buf, e ≠ .notice buf) : Plain s' := by
  have hbatches := batches_emit htrace
  intro hfew
  rw [given_emit htrace, written_emit htrace, h fun batch hbatch => hfew batch ?_]
  · cases e with
    | notice buf => exact absurd rfl (hnotice buf)
    | _ => rfl
  · rw [hbatches]
    exact List.mem_append_left _ hbatch

theorem Plain.step {s : AsyncLogging} (h : Plain s) (hs : Sound s) (hc : Content s)
    (e : AsyncLogging.Event) : Plain (s.step e) := by
  rcases hs.step_cases e with ⟨heq, -⟩ | hcases
  · rwa [heq]
  have hout := hc.output
  generalize s.step e = s' at hcases
  cases hcases with
  | @append line | @appendNext line => exact h.emit (e := .appended line) rfl (by simp)
  | takeOver => exact h.emit (e := .takenOver s.pending) rfl (by simp)
  | @write now n b => exact h.emit (e := .written b.data) rfl (by simp)
  | @drop now hpc hlarge =>
    -- the batch is the last one
    simp only [Written, hpc] at hout
    obtain ⟨bs, hlast, -⟩ := hout
    intro hfew
    have hsmall := hfew (s.buffersToWrite.map contents) (by
      rw [batches_emit (s := s) (e := .notice (droppedMessage now s.buffersToWrite.length)) rfl,
        hlast, List.append_nil]
      exact List.mem_append_right _ List.mem_cons_self)
    rw [List.length_map] at hsmall
    exact absurd hsmall (Nat.not_le.mpr hlarge)
  | start | stop | goOn | leave | wait | keep | recycle => exact h

/-! ## What the `LogFile` does with it -/

/-- The files hold what was given, and no closed file has something in its buffer. -/
structure Holds (texts : List Bytes) (f : LogFile) : Prop where
  kept : ∃ calls, LogFile.Kept f calls ∧ (∀ c ∈ calls, c.sys.NoError) ∧
    calls.flatMap LogCall.logline = texts.flatten
  closed : ∀ p ∈ f.closed, p.file_.fp_.buffer = []

variable {sys : LogSys}

theorem Holds.append {texts : List Bytes} {f : LogFile} (h : Holds texts f) (hsys : sys.NoError)
    (data : Bytes) : Holds (texts ++ [data]) (f.step (.append ⟨data, sys⟩)) := by
  obtain ⟨calls, hkept, herror, htexts⟩ := h.kept
  refine ⟨⟨calls ++ [⟨data, sys⟩], ?_, ?_, ?_⟩, ?_⟩
  · exact (hkept.appended (.append ⟨data, sys⟩)).outcome (LogFile.step_outcome f _)
  · intro c hc
    rcases List.mem_append.mp hc with hc | hc
    · exact herror c hc
    · rw [List.mem_singleton.mp hc]
      exact hsys
  · rw [List.flatMap_append, List.flatten_append, htexts, List.flatMap_singleton,
      List.flatten_singleton]
  · have hclose : ∀ e ∈ [LogFile.Event.append ⟨data, sys⟩], e.sys.close = .ok := fun e he => by
      rw [List.mem_singleton.mp he]
      exact hsys.2.2
    exact LogFile.closed_written hclose h.closed

theorem Holds.flush {texts : List Bytes} {f : LogFile} (h : Holds texts f) (hsys : sys.NoError) :
    Holds texts (f.step (.flush sys)) ∧ (f.step (.flush sys)).file_.fp_.buffer = [] := by
  obtain ⟨calls, hkept, herror, htexts⟩ := h.kept
  refine ⟨⟨⟨calls, ?_, herror, htexts⟩, h.closed⟩, ?_⟩
  · have hstep := (hkept.appended (.flush sys)).outcome (LogFile.step_outcome f _)
    rwa [LogFile.Event.call, List.append_nil] at hstep
  · show (f.file_.fp_.fflush sys.flush).buffer = []
    rw [hsys.2.1]
    exact List.drop_length

theorem Holds.content {texts : List Bytes} {f : LogFile} (h : Holds texts f) :
    f.files.flatMap (fun file => file.fp_.disk) ++ f.file_.fp_.buffer = texts.flatten := by
  obtain ⟨calls, hkept, herror, htexts⟩ := h.kept
  have hfiles := hkept.flatMap_content herror
  have hclosed : f.closed.flatMap (fun p => p.file_.fp_.content) =
      f.closed.flatMap (fun p => p.file_.fp_.disk) := List.flatMap_congr fun p hp => by
    rw [FILE.content, h.closed p hp, List.append_nil]
  rw [← htexts, ← hfiles, LogFile.files, List.flatMap_map, List.flatMap_map, LogFile.periods,
    List.flatMap_append, List.flatMap_append, List.flatMap_singleton, List.flatMap_singleton,
    hclosed, FILE.content, List.append_assoc]

theorem holds_new {basename : Bytes} {rollSize flushInterval checkEveryN : Int} {f : LogFile}
    (h : LogFile.new basename rollSize flushInterval checkEveryN sys = some f) :
    Holds [] f ∧ f.file_.fp_.buffer = [] := by
  have hkept := LogFile.kept_new h
  obtain ⟨p, hroll, rfl⟩ := LogFile.new_eq_some h
  obtain ⟨-, rfl⟩ := LogFile.roll_eq_some hroll
  exact ⟨⟨⟨[], hkept, List.forall_mem_nil _, rfl⟩, List.forall_mem_nil _⟩, rfl⟩

/-! ## A step of both -/

/-- The backend is between two iterations. -/
def Idle (pc : BackendPc) : Prop := pc = .test ∨ pc = .lock ∨ pc = .waiting ∨ pc = .done

/-- What a step does to the `LogFile`. -/
inductive Calls (s s' : AsyncLogging) (sys : LogSys) : Prop
  | quiet : calls s s' sys = [] → given s' = given s → (Idle s'.pc → Idle s.pc) → Calls s s' sys
  | gives (data : Bytes) : calls s s' sys = [.append ⟨data, sys⟩] →
    given s' = given s ++ [data] → ¬ Idle s'.pc → Calls s s' sys
  | flushes : calls s s' sys = [.flush sys] → given s' = given s → Calls s s' sys

theorem calls_eq {s s' : AsyncLogging} {es : List LogFile.Event} (htrace : s'.trace = s.trace)
    (hflush : flushBetween sys s.pc s'.pc = es) : calls s s' sys = es := by
  rw [calls, htrace, List.drop_length, hflush]
  rfl

theorem calls_emit {s s' : AsyncLogging} {e : LogEffect} (htrace : s'.trace = s.trace ++ [e])
    (hflush : flushBetween sys s.pc s'.pc = []) : calls s s' sys = appendOf sys e := by
  rw [calls, htrace, List.drop_left, List.flatMap_singleton, hflush, List.append_nil]

@[simp] theorem flushBetween_self (pc : BackendPc) : flushBetween sys pc pc = [] := by
  cases pc <;> rfl

theorem step_calls {s s' : AsyncLogging} {e : AsyncLogging.Event} (h : StepCases s e s')
    (hstart : e ≠ .start) : Calls s s' sys ∧ s.pc ≠ .notStarted ∧ s'.pc ≠ .notStarted ∨
      calls s s' sys = [] ∧ given s' = given s ∧ s'.pc = s.pc := by
  cases h with
  | start => exact absurd rfl hstart
  | @append line | @appendNext line =>
    refine .inr ⟨?_, (given_emit (e := .appended line) rfl).trans (List.append_nil _), rfl⟩
    exact calls_emit (e := .appended line) rfl (flushBetween_self _)
  | stop => exact .inr ⟨calls_eq rfl (flushBetween_self _), rfl, rfl⟩
  | goOn hpc =>
    have hnone : flushBetween sys s.pc .lock = [] := by rw [hpc]; rfl
    exact .inl ⟨.quiet (calls_eq rfl hnone) rfl fun _ => .inl hpc, by simp [hpc]⟩
  | leave hpc =>
    have hone : flushBetween sys s.pc .done = [.flush sys] := by rw [hpc]; rfl
    exact .inl ⟨.flushes (calls_eq rfl hone) rfl, by simp [hpc]⟩
  | wait hpc =>
    have hnone : flushBetween sys s.pc .waiting = [] := by rw [hpc]; rfl
    exact .inl ⟨.quiet (calls_eq rfl hnone) rfl fun _ => .inr (.inl hpc), by simp [hpc]⟩
  | takeOver hpc =>
    have hnone : flushBetween sys s.pc .takenOver = [] := by
      rcases hpc with hpc | hpc <;> rw [hpc] <;> rfl
    refine .inl ⟨.quiet (calls_emit (e := .takenOver s.pending) rfl hnone) ?_
      fun _ => .inr (hpc.imp_right .inl), ?_, ?_⟩
    · exact (given_emit (e := .takenOver s.pending) rfl).trans (List.append_nil _)
    · rcases hpc with hpc | hpc <;> simp [hpc]
    · simp [takeOver]
  | keep hpc =>
    have hnone : flushBetween sys s.pc (.writing 0) = [] := by rw [hpc]; rfl
    exact .inl ⟨.quiet (calls_eq rfl hnone) rfl (by simp [Idle]), by simp [hpc]⟩
  | @drop now hpc =>
    have hnone : flushBetween sys s.pc (.writing 0) = [] := by rw [hpc]; rfl
    let text := droppedMessage now s.buffersToWrite.length
    exact .inl ⟨.gives text (calls_emit (e := .notice text) rfl hnone)
      (given_emit (e := .notice text) rfl) (by simp [Idle]), by simp [hpc]⟩
  | @write now n b hpc =>
    have hnone : flushBetween sys s.pc (.writing (n + 1)) = [] := by rw [hpc]; rfl
    exact .inl ⟨.gives b.data (calls_emit (e := .written b.data) rfl hnone)
      (given_emit (e := .written b.data) rfl) (by simp [Idle]), by simp [hpc]⟩
  | recycle hpc =>
    have hone : flushBetween sys s.pc .test = [.flush sys] := by rw [hpc]; rfl
    exact .inl ⟨.flushes (calls_eq rfl hone) rfl, by simp [hpc]⟩

/-- The backend has its `LogFile` from its start on, and it is flushed between two iterations. -/
def OutputHolds (s : LogPipeline) : Prop :=
  match s.output with
  | none => s.logging.pc = .notStarted ∧ given s.logging = []
  | some f => s.logging.pc ≠ .notStarted ∧ Holds (given s.logging) f ∧
    (Idle s.logging.pc → f.file_.fp_.buffer = [])

structure Linked (s : LogPipeline) : Prop where
  sound : Sound s.logging
  content : Content s.logging
  plain : Plain s.logging
  output : OutputHolds s

theorem linked_new : Linked new :=
  ⟨sound_new, content_new, fun _ => rfl, rfl, rfl⟩

theorem outputAfter_eq {basename : Bytes} {rollSize : Int} {s : LogPipeline}
    {e : AsyncLogging.Event} (h : e ≠ .start ∨ s.logging.pc ≠ .notStarted) :
    outputAfter basename rollSize s e sys = s.output := by
  rw [outputAfter]
  rintro rfl
  exact h.resolve_left (not_not_intro rfl)

theorem OutputHolds.start {basename : Bytes} {rollSize : Int} {s : LogPipeline}
    (h : OutputHolds s) (hs : Sound s.logging) (hpc : s.logging.pc = .notStarted)
    (hclock : 0 < sys.rollNow) : OutputHolds (step basename rollSize s (.start, sys)) := by
  have hgiven : given s.logging = [] := by
    unfold OutputHolds at h
    split at h
    · exact h.2
    · exact absurd hpc h.1
  have hlogging : s.logging.step .start = { s.logging with
      running_ := true, newBuffer1 := some .new, newBuffer2 := some .new, pc := .test } := by
    simp only [AsyncLogging.step, hs.aborted, perform, AsyncLogging.start, hpc]
    rfl
  obtain ⟨f, hf⟩ : ∃ f, LogFile.new basename rollSize 3 1024 sys = some f := by
    rw [LogFile.new, LogPeriod.roll, if_pos hclock]
    exact ⟨_, rfl⟩
  have houtput : (step basename rollSize s (.start, sys)).output = some f := by
    have hcalls : calls s.logging (s.logging.step .start) sys = [] := by
      rw [hlogging]
      exact calls_eq rfl (by rw [hpc]; rfl)
    simp only [step, outputAfter, hpc, hf, Option.map_some, hcalls, run_nil]
  obtain ⟨hholds, hbuffer⟩ := holds_new hf
  unfold OutputHolds
  rw [houtput]
  refine ⟨?_, ?_, fun _ => hbuffer⟩
  · show (s.logging.step .start).pc ≠ _
    rw [hlogging]
    intro heq
    cases heq
  · show Holds (given (s.logging.step .start)) f
    rw [hlogging]
    exact hgiven ▸ hholds

theorem OutputHolds.step {basename : Bytes} {rollSize : Int} {s : LogPipeline}
    (h : OutputHolds s) {e : AsyncLogging.Event} (hsys : sys.NoError)
    (hstart : e ≠ .start ∨ s.logging.pc ≠ .notStarted)
    (hcalls : Calls s.logging (s.logging.step e) sys ∧ s.logging.pc ≠ .notStarted ∧
        (s.logging.step e).pc ≠ .notStarted ∨
      calls s.logging (s.logging.step e) sys = [] ∧
        given (s.logging.step e) = given s.logging ∧ (s.logging.step e).pc = s.logging.pc) :
    OutputHolds (step basename rollSize s (e, sys)) := by
  have houtput : (LogPipeline.step basename rollSize s (e, sys)).output =
      s.output.map fun f => run LogFile.step f (calls s.logging (s.logging.step e) sys) := by
    rw [LogPipeline.step, outputAfter_eq hstart]
  have hlogging : (LogPipeline.step basename rollSize s (e, sys)).logging = s.logging.step e := rfl
  unfold OutputHolds at h ⊢
  rw [houtput, hlogging]
  generalize s.logging.step e = s' at hcalls
  cases hf : s.output with
  | none =>
    rw [hf] at h
    rcases hcalls with ⟨-, hpc, -⟩ | ⟨-, hgiven, hpc⟩
    · exact absurd h.1 hpc
    · exact ⟨hpc.trans h.1, hgiven.trans h.2⟩
  | some f =>
    rw [hf] at h
    obtain ⟨hpc, hholds, hbuffer⟩ := h
    rcases hcalls with ⟨hcalls, -, hpc'⟩ | ⟨hnone, hgiven, hpc'⟩
    · cases hcalls with
      | quiet hnone hgiven hidle =>
        rw [hnone, hgiven]
        exact ⟨hpc', hholds, fun hidle' => hbuffer (hidle hidle')⟩
      | gives data hone hgiven hidle =>
        rw [hone, hgiven]
        exact ⟨hpc', hholds.append hsys data, fun hidle' => absurd hidle' hidle⟩
      | flushes hone hgiven =>
        rw [hone, hgiven]
        obtain ⟨hholds', hbuffer'⟩ := hholds.flush hsys
        exact ⟨hpc', hholds', fun _ => hbuffer'⟩
    · rw [hnone, hgiven, hpc']
      exact ⟨hpc, hholds, hbuffer⟩

theorem Linked.step {basename : Bytes} {rollSize : Int} {s : LogPipeline} (h : Linked s)
    {e : AsyncLogging.Event × LogSys} (hshort : Short e.1) (hsys : e.2.NoError)
    (hclock : 0 < e.2.rollNow) : Linked (step basename rollSize s e) := by
  obtain ⟨e, sys⟩ := e
  refine ⟨h.sound.step e, h.content.step h.sound hshort, h.plain.step h.sound h.content e, ?_⟩
  by_cases hstart : e = .start ∧ s.logging.pc = .notStarted
  · obtain ⟨rfl, hpc⟩ := hstart
    exact h.output.start h.sound hpc hclock
  have hnot : e ≠ .start ∨ s.logging.pc ≠ .notStarted := not_and_or.mp hstart
  have hsame : s.logging.step e = s.logging →
      calls s.logging (s.logging.step e) sys = [] ∧ given (s.logging.step e) = given s.logging ∧
        (s.logging.step e).pc = s.logging.pc := fun heq => by
    rw [heq]
    exact ⟨calls_eq rfl (flushBetween_self _), rfl, rfl⟩
  refine h.output.step hsys hnot ?_
  rcases h.sound.step_cases e with ⟨heq, -⟩ | hcases
  · exact .inr (hsame heq)
  · by_cases hagain : e = .start
    · have hpc := hnot.resolve_left (not_not_intro hagain)
      subst hagain
      refine .inr (hsame ?_)
      have hstays : s.logging.start = s.logging := by
        unfold AsyncLogging.start
        split
        · next hpc' => exact absurd hpc' hpc
        · rfl
      rw [AsyncLogging.step, h.sound.aborted, perform, hstays]
      rfl
    · exact step_calls hcases hagain

theorem logging_run (basename : Bytes) (rollSize : Int) (s : LogPipeline)
    (es : List (AsyncLogging.Event × LogSys)) :
    (run (step basename rollSize) s es).logging =
      run AsyncLogging.step s.logging (es.map Prod.fst) := by
  induction es generalizing s with
  | nil => rfl
  | cons e es ih => exact ih _

/-- For lines that are shorter than a buffer, a stream that has no error and a clock that is past 0:
every line is in the files, in the buffer of the stream, with the backend or with the threads that
log, once and in order, unless an iteration found more than 25 buffers. The files and the stream
have what the backend gave to them in any case, and between two iterations nothing is left with the
backend or in the stream. -/
theorem logged_on_disk (basename : Bytes) (rollSize : Int) (es : List (AsyncLogging.Event × LogSys))
    (hshort : ∀ e ∈ es, Short e.1) (herror : ∀ e ∈ es, e.2.NoError)
    (hclock : ∀ e ∈ es, 0 < e.2.rollNow) :
    let s := run (step basename rollSize) new es
    s.onDisk ++ s.inStream = (given s.logging).flatten ∧
      ((∀ batch ∈ s.logging.batches, batch.length ≤ 25) →
        s.onDisk ++ s.inStream ++ (rest s.logging ++ s.logging.pending).flatten =
          (lines (es.map Prod.fst)).flatten) ∧
      (s.logging.pc = .test ∨ s.logging.pc = .lock ∨ s.logging.pc = .waiting ∨
          s.logging.pc = .done → s.inStream = [] ∧ rest s.logging = []) := by
  intro s
  have hmeets : Meets (fun (_ : LogPipeline) (e : AsyncLogging.Event × LogSys) =>
      Short e.1 ∧ e.2.NoError ∧ 0 < e.2.rollNow) (step basename rollSize) new es :=
    meets_of_forall fun e he => ⟨hshort e he, herror e he, hclock e he⟩
  have hlinked : Linked s :=
    run_invariant (fun s e hs hok => hs.step hok.1 hok.2.1 hok.2.2) linked_new hmeets
  have hholds : s.onDisk ++ s.inStream = (given s.logging).flatten := by
    have houtput := hlinked.output
    unfold OutputHolds at houtput
    unfold onDisk inStream
    cases hf : s.output with
    | none =>
      rw [hf] at houtput
      rw [houtput.2]
      rfl
    | some f =>
      rw [hf] at houtput
      exact houtput.2.1.content
  refine ⟨hholds, fun hfew => ?_, fun hidle => ⟨?_, ?_⟩⟩
  · have hshort' : ∀ e ∈ es.map Prod.fst, Short e := List.forall_mem_map.mpr hshort
    obtain ⟨-, hcontent, happended⟩ := content_run hshort'
    have hlogging : s.logging = run AsyncLogging.step .new (es.map Prod.fst) :=
      logging_run basename rollSize new es
    rw [← hlogging] at hcontent happended
    calc s.onDisk ++ s.inStream ++ (rest s.logging ++ s.logging.pending).flatten
        = (s.logging.written ++ rest s.logging).flatten ++ s.logging.pending.flatten := by
          rw [hholds, hlinked.plain hfew, List.flatten_append, List.flatten_append,
            List.append_assoc]
      _ = s.logging.batches.flatten.flatten ++ s.logging.pending.flatten := by
          rw [written_append_rest hcontent hlinked.sound, survivors_eq_flatten hfew]
      _ = (lines (es.map Prod.fst)).flatten := by
          rw [← happended]
          exact hcontent.complete
  · have houtput := hlinked.output
    unfold OutputHolds at houtput
    unfold inStream
    cases hf : s.output with
    | none => rfl
    | some f =>
      rw [hf] at houtput
      exact houtput.2.2 hidle
  · have hlocals := hlinked.sound.locals
    unfold Locals at hlocals
    unfold rest
    rcases hidle with hpc | hpc | hpc | hpc <;> rw [hpc] at hlocals ⊢ <;>
      simp only [hlocals.2.2, List.map_nil]

/-- The backend writes two lines, finds that it is to stop and leaves. -/
theorem logged_on_disk_stop :
    let es := [.start, .append [1], .backend [], .backend [], .append [2], .backend [], .backend [],
      .backend [], .stop, .backend [], .backend []].map fun e => (e, LogFile.answersAt 10)
    let s := run (step (ascii "log") 100) new es
    s.logging.pc = .done ∧ s.onDisk = [1, 2] := by
  intro es s
  have h := logged_on_disk (ascii "log") 100 es (by decide) (fun e he => ?_) (fun e he => ?_)
  · have hpc : s.logging.pc = .done := by decide +kernel
    have hgiven : given s.logging = [[1, 2]] := by decide +kernel
    have hholds := h.1
    rw [(h.2.2 (.inr (.inr (.inr hpc)))).1, List.append_nil, hgiven] at hholds
    exact ⟨hpc, hholds⟩
  · obtain ⟨e', -, rfl⟩ := List.mem_map.mp he
    exact LogFile.answersAt_noError 10
  · obtain ⟨e', -, rfl⟩ := List.mem_map.mp he
    show (0 : Int) < 10
    decide

end LogPipeline

end Mymuduo
