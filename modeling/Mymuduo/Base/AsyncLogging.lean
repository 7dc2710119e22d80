import Mymuduo.Base.LogStream
import Mymuduo.Lib.Transition

/-!
# `base/AsyncLogging`

The threads that log and the backend thread of `threadFunc`. `append` and the critical section of
the backend hold `mutex_` and are one step each; what the backend does between them it does on its
own buffers, one `output.append` a step. It may wake from `waitForSeconds` at any time: when it is
notified, when the time is over, or for no reason.

A `BufferPtr` is null when it has been moved from. `aborted` stands for an assertion that failed and
for a null pointer that was followed.

* `Sound.step`: neither happens. The backend gets its two spare buffers back from what it has taken
  over, since the `nextBuffer_` that it has to replace stands for a second buffer there.
* `append_kept_once`: every line is kept once and in order, up to the buffers that an iteration
  drops.
-/

namespace Mymuduo

open CString Transition

/-! ## `AsyncLogging` -/

/-- `std::unique_ptr<Buffer>` -/
abbrev BufferPtr := Option (FixedBuffer kLargeBuffer)

/-- The bytes that `output.append(buffer->data(), buffer->length())` is given. -/
def contents (p : BufferPtr) : Bytes := p.elim [] FixedBuffer.data

/-- Where the backend is in `threadFunc`. -/
inductive BackendPc
  | notStarted
  /-- about to test `running_` -/
  | test
  /-- about to lock `mutex_` -/
  | lock
  /-- in `waitForSeconds` -/
  | waiting
  /-- out of the critical section, before `buffersToWrite.size() > 25` is tested -/
  | takenOver
  /-- in the loop over `buffersToWrite`, with this many written -/
  | writing (n : Nat)
  | done
  deriving DecidableEq, Repr

inductive LogEffect
  | appended (line : Bytes)
  /-- what the backend found in the critical section -/
  | takenOver (buffers : List Bytes)
  /-- `output.append` of the message about dropped buffers -/
  | notice (buf : Bytes)
  /-- `output.append` of a buffer -/
  | written (data : Bytes)
  deriving DecidableEq, Repr

structure AsyncLogging where
  running_ : Bool
  currentBuffer_ : BufferPtr
  nextBuffer_ : BufferPtr
  buffers_ : List BufferPtr
  pc : BackendPc
  newBuffer1 : BufferPtr
  newBuffer2 : BufferPtr
  buffersToWrite : List BufferPtr
  aborted : Bool
  trace : List LogEffect
  deriving DecidableEq, Repr

namespace AsyncLogging

def new : AsyncLogging where
  running_ := false
  currentBuffer_ := some .new
  nextBuffer_ := some .new
  buffers_ := []
  pc := .notStarted
  newBuffer1 := none
  newBuffer2 := none
  buffersToWrite := []
  aborted := false
  trace := []

def emit (s : AsyncLogging) (e : LogEffect) : AsyncLogging := { s with trace := s.trace ++ [e] }

def append (s : AsyncLogging) (line : Bytes) : Option AsyncLogging := do
  let currentBuffer ← s.currentBuffer_
  let s := s.emit (.appended line)
  if line.length < currentBuffer.avail then
    some { s with currentBuffer_ := some (currentBuffer.append line) }
  else
    -- rarely, `nextBuffer_` is null as well
    let nextBuffer := s.nextBuffer_.getD .new
    some
      { s with
        buffers_ := s.buffers_ ++ [s.currentBuffer_]
        currentBuffer_ := some (nextBuffer.append line)
        nextBuffer_ := none }

/-- `start` returns when the backend is in `threadFunc`. -/
def start (s : AsyncLogging) : AsyncLogging :=
  match s.pc with
  | .notStarted =>
    { s with running_ := true, newBuffer1 := some .new, newBuffer2 := some .new, pc := .test }
  | _ => s

/-- `running_ = false;` -/
def stop (s : AsyncLogging) : AsyncLogging := { s with running_ := false }

/-! ### The backend -/

/-- `p && p->length() == 0` -/
def isSpare (p : BufferPtr) : Bool := p.any fun b => b.length = 0

/-- `while (running_)`, and the assertions at its top. -/
def testRunning (s : AsyncLogging) : Option AsyncLogging :=
  if s.running_ then
    if isSpare s.newBuffer1 && isSpare s.newBuffer2 && s.buffersToWrite.isEmpty then
      some { s with pc := .lock }
    else none
  else some { s with pc := .done }

/-- The critical section, from the end of the wait on. -/
def takeOver (s : AsyncLogging) : AsyncLogging :=
  let buffers := s.buffers_ ++ [s.currentBuffer_]
  { s.emit (.takenOver (buffers.map contents)) with
    currentBuffer_ := s.newBuffer1
    newBuffer1 := none
    buffersToWrite := buffers
    buffers_ := s.buffersToWrite
    -- `if (!nextBuffer_)`
    nextBuffer_ := if s.nextBuffer_.isSome then s.nextBuffer_ else s.newBuffer2
    newBuffer2 := if s.nextBuffer_.isSome then s.newBuffer2 else none
    pc := .takenOver }

def lock (s : AsyncLogging) : AsyncLogging :=
  if s.buffers_.isEmpty then { s with pc := .waiting } else s.takeOver

def droppedMessage (now : Bytes) (size : Nat) : Bytes :=
  snprintf 256 (ascii "Dropped log messages at " ++ now ++ ascii ", " ++ natText (size - 2) ++
    ascii " larger buffers\n")

def dropLarger (s : AsyncLogging) (now : Bytes) : Option AsyncLogging :=
  if s.buffersToWrite.isEmpty then none
  else if 25 < s.buffersToWrite.length then
    some
      { s.emit (.notice (droppedMessage now s.buffersToWrite.length)) with
        buffersToWrite := s.buffersToWrite.take 2
        pc := .writing 0 }
  else some { s with pc := .writing 0 }

/-- A spare buffer that is gone is replaced by the last of `buffers`. -/
def refill (spare : BufferPtr) (buffers : List BufferPtr) : Option (BufferPtr × List BufferPtr) :=
  match spare with
  | some b => some (some b, buffers)
  | none => do
    let back ← buffers.getLast?
    let b ← back
    some (some b.reset, buffers.dropLast)

/-- From the end of the loop over `buffersToWrite` to the end of the iteration. -/
def recycle (s : AsyncLogging) : Option AsyncLogging := do
  let buffers := if 2 < s.buffersToWrite.length then s.buffersToWrite.take 2 else s.buffersToWrite
  let (newBuffer1, buffers) ← refill s.newBuffer1 buffers
  let (newBuffer2, _) ← refill s.newBuffer2 buffers
  some
    { s with
      newBuffer1 := newBuffer1
      newBuffer2 := newBuffer2
      buffersToWrite := []
      pc := .test }

/-- `for (const auto &buffer : buffersToWrite)` -/
def writeNext (s : AsyncLogging) (n : Nat) : Option AsyncLogging :=
  match s.buffersToWrite[n]? with
  | some buffer => do
    let b ← buffer
    some { s.emit (.written b.data) with pc := .writing (n + 1) }
  | none => s.recycle

/-- The next step of the backend. -/
def backend (s : AsyncLogging) (now : Bytes) : Option AsyncLogging :=
  match s.pc with
  | .notStarted => some s
  | .test => s.testRunning
  | .lock => some s.lock
  | .waiting => some s.takeOver
  | .takenOver => s.dropLarger now
  | .writing n => s.writeNext n
  | .done => some s

inductive Event
  | append (line : Bytes)
  | start
  | stop
  /-- the backend, with the time that it may have to print -/
  | backend (now : Bytes)
  deriving DecidableEq, Repr

/-- The lines given to `append`, in the order of the lock. -/
def lines (es : List Event) : List Bytes :=
  es.filterMap fun
    | .append line => some line
    | _ => none

def perform (s : AsyncLogging) : Event → Option AsyncLogging
  | .append line => s.append line
  | .start => some s.start
  | .stop => some s.stop
  | .backend now => s.backend now

def step (s : AsyncLogging) (e : Event) : AsyncLogging :=
  if s.aborted then s else (s.perform e).getD { s with aborted := true }

/-! ## No assertion fails -/

/-- The buffers of the backend, at each place in its loop. -/
def Locals (s : AsyncLogging) : Prop :=
  match s.pc with
  | .notStarted => s.buffersToWrite = []
  | .takenOver | .writing _ =>
    s.newBuffer1 = none ∧ none ∉ s.buffersToWrite ∧ s.buffersToWrite ≠ [] ∧
      (s.newBuffer2 = some .new ∨ s.newBuffer2 = none ∧ 2 ≤ s.buffersToWrite.length)
  | _ => s.newBuffer1 = some .new ∧ s.newBuffer2 = some .new ∧ s.buffersToWrite = []

structure Sound (s : AsyncLogging) : Prop where
  aborted : s.aborted = false
  currentBuffer_ : s.currentBuffer_ ≠ none
  nextBuffer_ : s.nextBuffer_ = some .new ∨ s.nextBuffer_ = none ∧ s.buffers_ ≠ []
  buffers_ : none ∉ s.buffers_
  locals : Locals s

theorem sound_new : Sound new :=
  ⟨rfl, nofun, .inl rfl, nofun, rfl⟩

/-- The steps that change something. -/
inductive StepCases (s : AsyncLogging) : Event → AsyncLogging → Prop
  | append {line currentBuffer} : s.currentBuffer_ = some currentBuffer →
    line.length < currentBuffer.avail →
    StepCases s (.append line)
      { s.emit (.appended line) with currentBuffer_ := some (currentBuffer.append line) }
  | appendNext {line currentBuffer} : s.currentBuffer_ = some currentBuffer →
    StepCases s (.append line)
      { s.emit (.appended line) with
        buffers_ := s.buffers_ ++ [some currentBuffer]
        currentBuffer_ := some (FixedBuffer.new.append line)
        nextBuffer_ := none }
  | start : s.pc = .notStarted →
    StepCases s .start
      { s with running_ := true, newBuffer1 := some .new, newBuffer2 := some .new, pc := .test }
  | stop : StepCases s .stop { s with running_ := false }
  | goOn {now} : s.pc = .test → s.running_ = true →
    StepCases s (.backend now) { s with pc := .lock }
  | leave {now} : s.pc = .test → s.running_ = false →
    StepCases s (.backend now) { s with pc := .done }
  | wait {now} : s.pc = .lock → s.buffers_ = [] →
    StepCases s (.backend now) { s with pc := .waiting }
  | takeOver {now} : s.pc = .lock ∨ s.pc = .waiting → StepCases s (.backend now) s.takeOver
  | keep {now} : s.pc = .takenOver → s.buffersToWrite.length ≤ 25 →
    StepCases s (.backend now) { s with pc := .writing 0 }
  | drop {now} : s.pc = .takenOver → 25 < s.buffersToWrite.length →
    StepCases s (.backend now)
      { s.emit (.notice (droppedMessage now s.buffersToWrite.length)) with
        buffersToWrite := s.buffersToWrite.take 2
        pc := .writing 0 }
  | write {now n b} : s.pc = .writing n → s.buffersToWrite[n]? = some (some b) →
    StepCases s (.backend now) { s.emit (.written b.data) with pc := .writing (n + 1) }
  | recycle {now n} : s.pc = .writing n → s.buffersToWrite.length ≤ n →
    StepCases s (.backend now)
      { s with newBuffer1 := some .new, newBuffer2 := some .new, buffersToWrite := [], pc := .test }

theorem Sound.perform_append {s : AsyncLogging} (h : Sound s) (line : Bytes) :
    ∃ s', s.append line = some s' ∧ StepCases s (.append line) s' := by
  obtain ⟨currentBuffer, hcurrent⟩ := Option.ne_none_iff_exists'.mp h.currentBuffer_
  by_cases hfits : line.length < currentBuffer.avail
  · exact ⟨_, by simp [append, hcurrent, hfits], .append hcurrent hfits⟩
  · have hnext : s.nextBuffer_.getD .new = .new := by
      rcases h.nextBuffer_ with hnext | ⟨hnext, -⟩ <;> rw [hnext] <;> rfl
    refine ⟨_, ?_, .appendNext hcurrent⟩
    simp [append, hcurrent, hfits, emit, hnext]

/-- A spare buffer that is gone can be replaced. -/
theorem refill_none {buffers : List BufferPtr} (hne : buffers ≠ []) (hnull : none ∉ buffers) :
    refill none buffers = some (some .new, buffers.dropLast) := by
  have hlast := List.getLast_mem hne
  cases hback : buffers.getLast hne with
  | none => exact absurd (hback ▸ hlast) hnull
  | some b =>
    rw [refill, List.getLast?_eq_getLast_of_ne_nil hne, hback]
    rfl

theorem Sound.recycle {s : AsyncLogging} (h : Sound s) {n : Nat} (hpc : s.pc = .writing n) :
    s.recycle = some
      { s with newBuffer1 := some .new, newBuffer2 := some .new, buffersToWrite := [],
               pc := .test } := by
  have hlocals := h.locals
  simp only [Locals, hpc] at hlocals
  obtain ⟨hone, hnull, hne, htwo⟩ := hlocals
  have hresize : (if 2 < s.buffersToWrite.length then s.buffersToWrite.take 2
      else s.buffersToWrite) = s.buffersToWrite.take 2 := by
    split
    · rfl
    · next hsmall => exact (List.take_of_length_le (Nat.not_lt.mp hsmall)).symm
  have hpos := List.length_pos_iff.mpr hne
  have hnull' : none ∉ s.buffersToWrite.take 2 := fun hmem => hnull (List.mem_of_mem_take hmem)
  have hfirst : refill s.newBuffer1 (s.buffersToWrite.take 2) =
      some (some .new, (s.buffersToWrite.take 2).dropLast) := by
    rw [hone]
    refine refill_none (List.ne_nil_of_length_pos ?_) hnull'
    rw [List.length_take]
    omega
  have hsecond : ∃ rest, refill s.newBuffer2 (s.buffersToWrite.take 2).dropLast =
      some (some .new, rest) := by
    rcases htwo with htwo | ⟨htwo, htwice⟩
    · exact ⟨_, by rw [htwo]; rfl⟩
    · rw [htwo]
      refine ⟨_, refill_none (List.ne_nil_of_length_pos ?_) fun hmem => ?_⟩
      · rw [List.length_dropLast, List.length_take]
        omega
      · exact hnull' (List.dropLast_subset _ hmem)
  obtain ⟨rest, hrest⟩ := hsecond
  rw [AsyncLogging.recycle, hresize, hfirst]
  simp only [Option.bind_eq_bind, Option.bind_some, hrest]

theorem Sound.perform_backend {s : AsyncLogging} (h : Sound s) (now : Bytes) :
    ∃ s', s.backend now = some s' ∧ (s' = s ∨ StepCases s (.backend now) s') := by
  have hlocals := h.locals
  unfold Locals at hlocals
  cases hpc : s.pc with
  | notStarted => exact ⟨s, by rw [backend, hpc], .inl rfl⟩
  | done => exact ⟨s, by rw [backend, hpc], .inl rfl⟩
  | test =>
    rw [hpc] at hlocals
    obtain ⟨hone, htwo, hnil⟩ := hlocals
    cases hrunning : s.running_ with
    | true =>
      refine ⟨_, ?_, .inr (.goOn hpc hrunning)⟩
      simp [backend, hpc, testRunning, hrunning, hone, htwo, hnil, isSpare]
      rfl
    | false =>
      exact ⟨_, by simp [backend, hpc, testRunning, hrunning], .inr (.leave hpc hrunning)⟩
  | lock =>
    cases hbuffers : s.buffers_ with
    | nil => exact ⟨_, by simp [backend, hpc, lock, hbuffers], .inr (.wait hpc hbuffers)⟩
    | cons p ps =>
      exact ⟨_, by simp [backend, hpc, lock, hbuffers], .inr (.takeOver (.inl hpc))⟩
  | waiting => exact ⟨_, by rw [backend, hpc], .inr (.takeOver (.inr hpc))⟩
  | takenOver =>
    rw [hpc] at hlocals
    have hne : s.buffersToWrite.isEmpty = false := by simpa using hlocals.2.2.1
    by_cases hlarge : 25 < s.buffersToWrite.length
    · exact ⟨_, by simp [backend, hpc, dropLarger, hne, hlarge], .inr (.drop hpc hlarge)⟩
    · exact ⟨_, by simp [backend, hpc, dropLarger, hne, hlarge],
        .inr (.keep hpc (Nat.not_lt.mp hlarge))⟩
  | writing n =>
    rw [hpc] at hlocals
    cases hget : s.buffersToWrite[n]? with
    | none =>
      refine ⟨_, ?_, .inr (.recycle hpc (List.getElem?_eq_none_iff.mp hget))⟩
      simp [backend, hpc, writeNext, hget, h.recycle hpc]
    | some buffer =>
      cases buffer with
      | none => exact absurd (List.mem_of_getElem? hget) hlocals.2.1
      | some b => exact ⟨_, by simp [backend, hpc, writeNext, hget], .inr (.write hpc hget)⟩

/-- A step does what one of the cases says, or nothing; `append` does something. -/
theorem Sound.step_cases {s : AsyncLogging} (h : Sound s) (e : Event) :
    s.step e = s ∧ lines [e] = [] ∨ StepCases s e (s.step e) := by
  have hstep : ∀ s', s.perform e = some s' → s.step e = s' := fun s' hs' => by
    simp [AsyncLogging.step, h.aborted, hs']
  cases e with
  | append line =>
    obtain ⟨s', hs', hcases⟩ := h.perform_append line
    rw [hstep s' hs']
    exact .inr hcases
  | start =>
    rw [hstep _ rfl, start]
    split
    · next hpc => exact .inr (.start hpc)
    · exact .inl ⟨rfl, rfl⟩
  | stop =>
    rw [hstep _ rfl]
    exact .inr .stop
  | backend now =>
    obtain ⟨s', hs', hcases⟩ := h.perform_backend now
    rw [hstep s' hs']
    exact hcases.imp_left fun heq => ⟨heq, rfl⟩

theorem Sound.spares {s : AsyncLogging} (h : Sound s)
    (hpc : s.pc = .test ∨ s.pc = .lock ∨ s.pc = .waiting) :
    s.newBuffer1 = some .new ∧ s.newBuffer2 = some .new ∧ s.buffersToWrite = [] := by
  have hlocals := h.locals
  rcases hpc with hpc | hpc | hpc <;> simpa only [Locals, hpc] using hlocals

/-- The buffers after the critical section. With `nextBuffer_` null there is a second one. -/
theorem Sound.takeOver {s : AsyncLogging} (h : Sound s) (hpc : s.pc = .lock ∨ s.pc = .waiting) :
    Sound s.takeOver := by
  obtain ⟨hone, htwo, hnil⟩ := h.spares (.inr hpc)
  obtain ⟨haborted, hcurrent, hnext, hbuffers, -⟩ := h
  have hnull : none ∉ s.buffers_ ++ [s.currentBuffer_] := by
    simpa [hbuffers] using hcurrent.symm
  refine ⟨haborted, ?_, ?_, ?_, rfl, hnull, List.concat_ne_nil _ _, ?_⟩
  · rw [AsyncLogging.takeOver, hone]
    exact Option.some_ne_none _
  · rcases hnext with hnext | ⟨hnext, -⟩ <;> simp [AsyncLogging.takeOver, hnext, htwo]
  · rw [AsyncLogging.takeOver, hnil]
    exact List.not_mem_nil
  · rcases hnext with hnext | ⟨hnext, hsecond⟩
    · exact .inl (by simp [AsyncLogging.takeOver, hnext, htwo])
    · refine .inr ⟨by simp [AsyncLogging.takeOver, hnext], ?_⟩
      have hpos := List.length_pos_iff.mpr hsecond
      rw [AsyncLogging.takeOver, List.length_append, List.length_singleton]
      omega

theorem Sound.step {s : AsyncLogging} (h : Sound s) (e : Event) : Sound (s.step e) := by
  rcases h.step_cases e with ⟨heq, -⟩ | hs
  · rwa [heq]
  obtain ⟨haborted, hcurrent, hnext, hbuffers, hlocals⟩ := h
  generalize s.step e = s' at hs
  cases hs with
  | append => exact ⟨haborted, nofun, hnext, hbuffers, hlocals⟩
  | appendNext =>
    refine ⟨haborted, nofun, .inr ⟨rfl, by simp⟩, ?_, hlocals⟩
    simpa using hbuffers
  | start hpc =>
    simp only [Locals, hpc] at hlocals
    exact ⟨haborted, hcurrent, hnext, hbuffers, rfl, rfl, hlocals⟩
  | stop => exact ⟨haborted, hcurrent, hnext, hbuffers, hlocals⟩
  | goOn hpc | leave hpc | wait hpc =>
    simp only [Locals, hpc] at hlocals
    exact ⟨haborted, hcurrent, hnext, hbuffers, hlocals⟩
  | takeOver hpc => exact Sound.takeOver ⟨haborted, hcurrent, hnext, hbuffers, hlocals⟩ hpc
  | keep hpc =>
    simp only [Locals, hpc] at hlocals
    exact ⟨haborted, hcurrent, hnext, hbuffers, hlocals⟩
  | drop hpc hlarge =>
    simp only [Locals, hpc] at hlocals
    obtain ⟨hone, hnull, hne, htwo⟩ := hlocals
    refine ⟨haborted, hcurrent, hnext, hbuffers, hone, ?_, ?_, ?_⟩
    · exact fun hmem => hnull (List.mem_of_mem_take hmem)
    · exact fun hnil => hne ((List.take_eq_nil_iff.mp hnil).resolve_left (by decide))
    · exact htwo.imp_right fun htwo => ⟨htwo.1, by rw [List.length_take]; omega⟩
  | write hpc =>
    simp only [Locals, hpc] at hlocals
    exact ⟨haborted, hcurrent, hnext, hbuffers, hlocals⟩
  | recycle => exact ⟨haborted, hcurrent, hnext, hbuffers, rfl, rfl, rfl⟩

/-! ## What is kept of the lines -/

def appended (s : AsyncLogging) : List Bytes :=
  s.trace.filterMap fun
    | .appended line => some line
    | _ => none

/-- What each iteration has taken over. -/
def batches (s : AsyncLogging) : List (List Bytes) :=
  s.trace.filterMap fun
    | .takenOver buffers => some buffers
    | _ => none

/-- The buffers given to `LogFile`. -/
def written (s : AsyncLogging) : List Bytes :=
  s.trace.filterMap fun
    | .written data => some data
    | _ => none

/-- What the next iteration would find. -/
def pending (s : AsyncLogging) : List Bytes := (s.buffers_ ++ [s.currentBuffer_]).map contents

/-- What an iteration writes of what it has taken over. -/
def kept (batch : List Bytes) : List Bytes := if 25 < batch.length then batch.take 2 else batch

/-- The buffers given to `LogFile` in earlier iterations. -/
def earlier (s : AsyncLogging) : List Bytes :=
  match s.pc with
  | .writing n => s.written.take (s.written.length - n)
  | _ => s.written

/-- What is left of everything taken over. The last batch is still whole before its size is
tested. -/
def survivors (s : AsyncLogging) : List Bytes :=
  match s.pc with
  | .takenOver => s.batches.dropLast.flatMap kept ++ s.batches.getLast?.getD []
  | _ => s.batches.flatMap kept

def Short : Event → Prop
  | .append line => line.length < kLargeBuffer
  | _ => True

instance : DecidablePred Short
  | .append _ => Nat.decLt ..
  | .start | .stop | .backend _ => instDecidableTrue

/-- Where the batches are. -/
def Written (s : AsyncLogging) : Prop :=
  match s.pc with
  | .takenOver =>
    ∃ bs, s.batches = bs ++ [s.buffersToWrite.map contents] ∧ s.written = bs.flatMap kept
  | .writing n =>
    ∃ bs batch, s.batches = bs ++ [batch] ∧ s.buffersToWrite.map contents = kept batch ∧
      n ≤ s.buffersToWrite.length ∧ s.written = bs.flatMap kept ++ (kept batch).take n
  | _ => s.written = s.batches.flatMap kept

structure Content (s : AsyncLogging) : Prop where
  complete : s.batches.flatten.flatten ++ s.pending.flatten = s.appended.flatten
  output : Written s

theorem content_new : Content new := ⟨rfl, rfl⟩

section Trace

variable {s s' : AsyncLogging} {e : LogEffect}

theorem appended_emit (h : s'.trace = s.trace ++ [e]) : s'.appended =
    s.appended ++ (match e with | .appended line => [line] | _ => []) := by
  cases e <;> simp [h, appended]

theorem batches_emit (h : s'.trace = s.trace ++ [e]) : s'.batches =
    s.batches ++ (match e with | .takenOver buffers => [buffers] | _ => []) := by
  cases e <;> simp [h, batches]

theorem written_emit (h : s'.trace = s.trace ++ [e]) : s'.written =
    s.written ++ (match e with | .written data => [data] | _ => []) := by
  cases e <;> simp [h, written]

end Trace

/-- `append` adds its line at the end of what is pending, be it in the same buffer or the next. -/
theorem flatten_pending {s s' : AsyncLogging} {b b' : FixedBuffer kLargeBuffer} {line : Bytes}
    (hcurrent : s.currentBuffer_ = some b) (hcurrent' : s'.currentBuffer_ = some b')
    (h : s'.buffers_ = s.buffers_ ∧ b'.data = b.data ++ line ∨
      s'.buffers_ = s.buffers_ ++ [some b] ∧ b'.data = line) :
    s'.pending.flatten = s.pending.flatten ++ line := by
  rcases h with ⟨hbuffers, hdata⟩ | ⟨hbuffers, hdata⟩ <;>
    simp [pending, hcurrent, hcurrent', hbuffers, hdata, contents]

theorem Content.append {s s' : AsyncLogging} (h : Content s) {line : Bytes}
    (hpending : s'.pending.flatten = s.pending.flatten ++ line)
    (htrace : s'.trace = s.trace ++ [.appended line]) (hpc : s'.pc = s.pc)
    (hwrite : s'.buffersToWrite = s.buffersToWrite) : Content s' := by
  have happended := appended_emit htrace
  have hbatches := (batches_emit htrace).trans (List.append_nil _)
  have hwritten := (written_emit htrace).trans (List.append_nil _)
  constructor
  · rw [hbatches, hpending, happended, ← List.append_assoc, h.complete, List.flatten_append,
      List.flatten_singleton]
  · have hsame := h.output
    simp only [Written, hpc, hwrite, hbatches, hwritten]
    exact hsame

/-- What neither appends a line nor takes a buffer over keeps every line where it is. -/
theorem Content.complete_of_eq {s s' : AsyncLogging} (h : Content s)
    (hbatches : s'.batches = s.batches) (hpending : s'.pending = s.pending)
    (happended : s'.appended = s.appended) :
    s'.batches.flatten.flatten ++ s'.pending.flatten = s'.appended.flatten := by
  rw [hbatches, hpending, happended]
  exact h.complete

theorem Content.takeOver {s : AsyncLogging} (h : Content s) (hs : Sound s)
    (hpc : s.pc = .lock ∨ s.pc = .waiting) : Content s.takeOver := by
  have hwritten : s.written = s.batches.flatMap kept := by
    have hout := h.output
    rcases hpc with hpc | hpc <;> simpa only [Written, hpc] using hout
  obtain ⟨hone, -, hnil⟩ := hs.spares (.inr hpc)
  have htrace : s.takeOver.trace = s.trace ++ [.takenOver s.pending] := rfl
  have happended := (appended_emit htrace).trans (List.append_nil _)
  have hbatches := batches_emit htrace
  have hwritten' := (written_emit htrace).trans (List.append_nil _)
  have hpending : s.takeOver.pending = [[]] := by
    simp [pending, AsyncLogging.takeOver, hone, hnil, contents, FixedBuffer.new]
  constructor
  · simp only [hbatches, hpending, happended, List.flatten_append, List.flatten_singleton,
      List.append_nil]
    exact h.complete
  · exact ⟨s.batches, hbatches, hwritten'.trans hwritten⟩

theorem Content.drop {s s' : AsyncLogging} (h : Content s) (hpc : s.pc = .takenOver)
    (hlarge : 25 < s.buffersToWrite.length) {buf : Bytes}
    (hs' : s' = { s.emit (.notice buf) with
      buffersToWrite := s.buffersToWrite.take 2, pc := .writing 0 }) : Content s' := by
  have hout := h.output
  simp only [Written, hpc] at hout
  obtain ⟨bs, hbatches, hwritten⟩ := hout
  have htrace : s'.trace = s.trace ++ [.notice buf] := by rw [hs']; rfl
  have happended := (appended_emit htrace).trans (List.append_nil _)
  have hbatches' := (batches_emit htrace).trans (List.append_nil _)
  have hwritten' := (written_emit htrace).trans (List.append_nil _)
  have hpending : s'.pending = s.pending := by rw [hs']; rfl
  refine ⟨h.complete_of_eq hbatches' hpending happended, ?_⟩
  subst hs'
  refine ⟨bs, _, hbatches'.trans hbatches, ?_, Nat.zero_le _, ?_⟩
  · rw [kept, List.length_map, if_pos hlarge, List.map_take]
  · rw [List.take_zero, List.append_nil]
    exact hwritten'.trans hwritten

theorem Content.write {s s' : AsyncLogging} (h : Content s) {n : Nat} (hpc : s.pc = .writing n)
    {b : FixedBuffer kLargeBuffer} (hget : s.buffersToWrite[n]? = some (some b))
    (hs' : s' = { s.emit (.written b.data) with pc := .writing (n + 1) }) : Content s' := by
  have hout := h.output
  simp only [Written, hpc] at hout
  obtain ⟨bs, batch, hbatches, hkept, hle, hwritten⟩ := hout
  have htrace : s'.trace = s.trace ++ [.written b.data] := by rw [hs']; rfl
  have happended := (appended_emit htrace).trans (List.append_nil _)
  have hbatches' := (batches_emit htrace).trans (List.append_nil _)
  have hwritten' := written_emit htrace
  have hpending : s'.pending = s.pending := by rw [hs']; rfl
  refine ⟨h.complete_of_eq hbatches' hpending happended, ?_⟩
  subst hs'
  have hnext : (kept batch)[n]? = some b.data := by
    rw [← hkept, List.getElem?_map, hget]
    rfl
  have hlt : n < s.buffersToWrite.length := (List.getElem?_eq_some_iff.mp hget).1
  refine ⟨bs, batch, hbatches'.trans hbatches, hkept, hlt, ?_⟩
  rw [List.take_add_one, hnext, ← List.append_assoc, ← hwritten]
  exact hwritten'

/-- At the end of the loop all that was kept of the batch is written. -/
theorem Content.written_all {s : AsyncLogging} (h : Content s) {n : Nat} (hpc : s.pc = .writing n)
    (hall : s.buffersToWrite.length ≤ n) : s.written = s.batches.flatMap kept := by
  have hout := h.output
  simp only [Written, hpc] at hout
  obtain ⟨bs, batch, hbatches, hkept, hle, hwritten⟩ := hout
  have hlength : (kept batch).length = s.buffersToWrite.length := by
    rw [← hkept, List.length_map]
  rw [hwritten, hbatches, List.flatMap_append, List.take_of_length_le (hlength ▸ hall)]
  simp

theorem Content.step {s : AsyncLogging} (h : Content s) (hs : Sound s) {e : Event}
    (hshort : Short e) : Content (s.step e) := by
  rcases hs.step_cases e with ⟨heq, -⟩ | hcases
  · rwa [heq]
  have hout := h.output
  generalize s.step e = s' at hcases
  cases hcases with
  | append hcurrent hfits =>
    have hdata := FixedBuffer.data_append hfits
    exact h.append (flatten_pending hcurrent rfl (.inl ⟨rfl, hdata⟩)) rfl rfl rfl
  | appendNext hcurrent =>
    have hdata := FixedBuffer.data_append (b := FixedBuffer.new) hshort
    exact h.append (flatten_pending hcurrent rfl (.inr ⟨rfl, hdata⟩)) rfl rfl rfl
  | start hpc | goOn hpc | leave hpc | wait hpc =>
    simp only [Written, hpc] at hout
    exact ⟨h.complete, hout⟩
  | stop => exact ⟨h.complete, hout⟩
  | takeOver hpc => exact h.takeOver hs hpc
  | keep hpc hsmall =>
    simp only [Written, hpc] at hout
    obtain ⟨bs, hbatches, hwritten⟩ := hout
    refine ⟨h.complete, bs, _, hbatches, ?_, Nat.zero_le _, ?_⟩
    · rw [kept, List.length_map, if_neg (Nat.not_lt.mpr hsmall)]
    · rw [List.take_zero, List.append_nil]
      exact hwritten
  | drop hpc hlarge => exact h.drop hpc hlarge rfl
  | write hpc hget => exact h.write hpc hget rfl
  | recycle hpc hall => exact ⟨h.complete, h.written_all hpc hall⟩

theorem Sound.appended_step {s : AsyncLogging} (h : Sound s) (e : Event) :
    (s.step e).appended = s.appended ++ lines [e] := by
  rcases h.step_cases e with ⟨heq, hnone⟩ | hcases
  · rw [heq, hnone, List.append_nil]
  generalize s.step e = s' at hcases
  cases hcases with
  | @append line | @appendNext line => exact appended_emit (e := .appended line) rfl
  | takeOver => exact appended_emit (e := .takenOver s.pending) rfl
  | @drop now => exact appended_emit (e := .notice (droppedMessage now s.buffersToWrite.length)) rfl
  | @write now n b => exact appended_emit (e := .written b.data) rfl
  | _ => exact (List.append_nil _).symm

/-! ## Every interleaving -/

theorem collect_lines (s : AsyncLogging) (es : List Event) :
    collect (fun _ e => lines [e]) step s es = lines es := by
  induction es generalizing s with
  | nil => rfl
  | cons e es ih =>
    rw [collect, ih]
    cases e <;> rfl

theorem content_run {es : List Event} (hshort : ∀ e ∈ es, Short e) :
    Sound (run step new es) ∧ Content (run step new es) ∧
      (run step new es).appended = lines es := by
  rw [← collect_lines new es]
  refine run_ledger (fun _ e => lines [e])
    (I := fun s acc => Sound s ∧ Content s ∧ s.appended = acc) ?_
    ⟨sound_new, content_new, rfl⟩ (meets_of_forall hshort)
  rintro s e acc ⟨hsound, hcontent, rfl⟩ hok
  exact ⟨hsound.step e, hcontent.step hsound hok, hsound.appended_step e⟩

/-- What was given to `LogFile` in earlier iterations and what the backend holds are what is left of
the batches. -/
theorem Content.earlier_append {s : AsyncLogging} (h : Content s) (hs : Sound s) :
    s.earlier ++ s.buffersToWrite.map contents = s.survivors := by
  have hout := h.output
  have hlocals := hs.locals
  unfold Written at hout
  unfold Locals at hlocals
  unfold earlier survivors
  cases hpc : s.pc with
  | takenOver =>
    rw [hpc] at hout
    obtain ⟨bs, hbatches, hwritten⟩ := hout
    simp [hbatches, hwritten]
  | writing n =>
    rw [hpc] at hout
    obtain ⟨bs, batch, hbatches, hkept, hle, hwritten⟩ := hout
    have hlength : n ≤ (kept batch).length := by rwa [← hkept, List.length_map]
    have hbefore : s.written.length - n = (bs.flatMap kept).length := by
      rw [hwritten, List.length_append, List.length_take_of_le hlength, Nat.add_sub_cancel]
    simp only [hbefore]
    rw [hwritten, List.take_left, hkept, hbatches, List.flatMap_append, List.flatMap_singleton]
  | notStarted =>
    rw [hpc] at hout hlocals
    exact (congrArg _ (congrArg _ hlocals)).trans ((List.append_nil _).trans hout)
  | test | lock | waiting | done =>
    rw [hpc] at hout hlocals
    exact (congrArg _ (congrArg _ hlocals.2.2)).trans ((List.append_nil _).trans hout)

/-- Without a batch of more than 25 buffers nothing is dropped. -/
theorem survivors_eq_flatten {s : AsyncLogging} (h : ∀ batch ∈ s.batches, batch.length ≤ 25) :
    s.survivors = s.batches.flatten := by
  have hkept : ∀ bs : List (List Bytes), bs ⊆ s.batches → bs.flatMap kept = bs.flatten := by
    intro bs hbs
    rw [← List.flatMap_id]
    refine List.flatMap_congr fun batch hbatch => ?_
    rw [kept, if_neg (Nat.not_lt.mpr (h batch (hbs hbatch)))]
    rfl
  unfold survivors
  split
  · rw [hkept _ (List.dropLast_subset _)]
    rcases List.eq_nil_or_concat s.batches with hnil | ⟨bs, batch, hconcat⟩
    · rw [hnil]
      rfl
    · simp [hconcat]
  · exact hkept _ (List.Subset.refl _)

/-- Every line is kept once and in order. -/
theorem append_kept_once (es : List Event) (hshort : ∀ e ∈ es, Short e) :
    let s := run step new es
    s.earlier ++ s.buffersToWrite.map contents = s.survivors ∧
      (s.batches.flatten ++ s.pending).flatten = (lines es).flatten ∧
      ((∀ batch ∈ s.batches, batch.length ≤ 25) →
        (s.earlier ++ s.buffersToWrite.map contents ++ s.pending).flatten = (lines es).flatten) ∧
      s.currentBuffer_ ≠ none ∧
      (s.pc = .test ∨ s.pc = .lock →
        s.newBuffer1 = some .new ∧ s.newBuffer2 = some .new ∧ s.buffersToWrite = []) ∧
      s.aborted = false := by
  intro s
  obtain ⟨hsound, hcontent, happended⟩ := content_run hshort
  have hcomplete : (s.batches.flatten ++ s.pending).flatten = (lines es).flatten := by
    rw [List.flatten_append, ← happended]
    exact hcontent.complete
  refine ⟨hcontent.earlier_append hsound, hcomplete, fun hfew => ?_, hsound.currentBuffer_,
    fun hpc => hsound.spares (hpc.imp_right .inl), hsound.aborted⟩
  rw [hcontent.earlier_append hsound, survivors_eq_flatten hfew]
  exact hcomplete

/-- One line before the backend waits, one while it waits and one while it writes. -/
theorem append_kept_once_three :
    let s := run step new [.start, .append [1], .backend [], .backend [], .append [2], .backend [],
      .append [3], .backend [], .backend []]
    s.written = [[1, 2]] ∧
      (s.earlier ++ s.buffersToWrite.map contents ++ s.pending).flatten = [1, 2, 3] := by
  intro s
  have h := append_kept_once [.start, .append [1], .backend [], .backend [], .append [2],
    .backend [], .append [3], .backend [], .backend []] (by decide)
  exact ⟨by decide +kernel, h.2.2.1 (by decide +kernel)⟩

end AsyncLogging

end Mymuduo
