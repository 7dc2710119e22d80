import Mymuduo.Base.AsyncLogging

/-!
# What `stop` leaves in the log

The backend tests `running_` before it takes anything over, so that after `stop` it may leave with
lines in `buffers_` and `currentBuffer_`. `StopLogging` numbers the lines in the order of the lock
and follows the calls: those whose `append` has returned are promised to be written when `stop` is
called.

* `Safe.step`, `Doomed.step`: after a `stop` that comes early enough, and after one that does not.
* `stop_writes_everything`: `stop` returns with everything promised written exactly in the runs
  where it is `StopOk`.
* `stop_writes_everything_fails`: a line logged while the backend writes another one.
-/

namespace Mymuduo

open CString AsyncLogging Transition

/-- Where the owner is in `stop`. -/
inductive StopPc
  | notCalled
  | called
  /-- `running_` is `false`, and the backend is waited for -/
  | joining
  deriving DecidableEq, Repr

structure StopLogging where
  log : AsyncLogging
  /-- the lines whose `append` has returned -/
  returned : List Nat
  stopPc : StopPc
  /-- those whose `append` had returned when `stop` was called -/
  promised : List Nat
  deriving DecidableEq, Repr

namespace StopLogging

def new : StopLogging where
  log := .new
  returned := []
  stopPc := .notCalled
  promised := []

inductive Event
  /-- an event of the log; `stop` is the store of `running_` -/
  | log (e : AsyncLogging.Event)
  | appendReturns (line : Nat)
  | callStop
  deriving DecidableEq, Repr

/-- `stop` is called once, after `start`. -/
def step (s : StopLogging) : Event → StopLogging
  | .log .stop =>
    if s.stopPc = .called then { s with log := s.log.step .stop, stopPc := .joining } else s
  | .log e => { s with log := s.log.step e }
  | .appendReturns line =>
    if line < s.log.appended.length then { s with returned := s.returned ++ [line] } else s
  | .callStop =>
    if s.stopPc = .notCalled ∧ s.log.pc ≠ .notStarted then
      { s with stopPc := .called, promised := s.returned }
    else s

/-- `thread_.join()` has returned. -/
def stopReturned (s : StopLogging) : Bool := s.stopPc = .joining && s.log.pc = .done

/-- All bytes up to the end of the line. -/
def upTo (s : AsyncLogging) (line : Nat) : Bytes := (s.appended.take (line + 1)).flatten

/-- All bytes that the backend has taken over. -/
def taken (s : AsyncLogging) : Bytes := s.batches.flatten.flatten

/-- The line, with all before it, has been given to `LogFile`. -/
def InLog (s : AsyncLogging) (line : Nat) : Prop := upTo s line <+: s.written.flatten

/-- The backend comes to a `swap` before it tests `running_` again. -/
def swapAhead : BackendPc → Bool
  | .lock | .waiting => true
  | _ => false

/-- A `stop` that sets `running_` finds the backend past its test of `running_` and before its
`swap`, or nothing promised that is not taken over. -/
def StopOk (s : StopLogging) : Event → Prop
  | .log .stop =>
    s.stopPc = .called → swapAhead s.log.pc = false →
      ∀ line ∈ s.promised, (upTo s.log line).length ≤ (taken s.log).length
  | _ => True

instance (s : StopLogging) : (e : Event) → Decidable (s.StopOk e)
  | .log .stop => inferInstanceAs (Decidable (_ → _ → _))
  | .log (.append _) | .log .start | .log (.backend _) | .appendReturns _ | .callStop =>
    instDecidableTrue

def ShortLine : Event → Prop
  | .log e => Short e
  | _ => True

instance : DecidablePred ShortLine
  | .log e => inferInstanceAs (Decidable (Short e))
  | .appendReturns _ | .callStop => instDecidableTrue

/-! ## The lines and the batches -/

theorem appended_grows {s : AsyncLogging} (h : Sound s) (e : AsyncLogging.Event) :
    s.appended <+: (s.step e).appended := by
  rw [h.appended_step e]
  exact List.prefix_append ..

/-- What was logged since does not change where a line ends. -/
theorem upTo_of_prefix {s s' : AsyncLogging} (h : s.appended <+: s'.appended) {line : Nat}
    (hline : line < s.appended.length) : upTo s' line = upTo s line := by
  obtain ⟨more, hmore⟩ := h
  rw [upTo, ← hmore, List.take_append_of_le_length hline, ← upTo]

theorem taken_takeOver {s : AsyncLogging} (h : Content s) :
    taken s.takeOver = s.takeOver.appended.flatten := by
  have htrace : s.takeOver.trace = s.trace ++ [.takenOver s.pending] := rfl
  rw [taken, batches_emit htrace, appended_emit htrace, List.append_nil, ← h.complete,
    List.flatten_append, List.flatten_append, List.flatten_singleton]

/-- The backend comes to no `swap` any more. -/
def Leaving (s : AsyncLogging) : Prop :=
  s.pc = .done ∨ s.running_ = false ∧ s.pc ≠ .notStarted ∧ swapAhead s.pc = false

theorem leaving_iff {s : AsyncLogging} (hpc : s.pc = .test ∨ s.pc = .takenOver ∨
    ∃ n, s.pc = .writing n) : Leaving s ↔ s.running_ = false := by
  rcases hpc with hpc | hpc | ⟨n, hpc⟩ <;> simp [Leaving, swapAhead, hpc]

/-- Only the critical section takes anything over, and only the store of `stop` stops the
backend. -/
theorem leaving_step {s : AsyncLogging} (h : Sound s) (hc : Content s) {e : AsyncLogging.Event}
    (he : e ≠ .stop) (hleaving : Leaving (s.step e)) :
    Leaving s ∧ (s.step e).batches = s.batches ∨
      taken (s.step e) = (s.step e).appended.flatten := by
  rcases h.step_cases e with ⟨heq, -⟩ | hcases
  · rw [heq] at hleaving ⊢
    exact .inl ⟨hleaving, rfl⟩
  generalize s.step e = s' at hcases hleaving
  cases hcases with
  | @append line | @appendNext line =>
    exact .inl ⟨hleaving, (batches_emit (e := .appended line) rfl).trans (List.append_nil _)⟩
  | start | goOn | wait => simp [Leaving, swapAhead] at hleaving
  | stop => exact absurd rfl he
  | leave hpc hrunning => exact .inl ⟨(leaving_iff (.inl hpc)).mpr hrunning, rfl⟩
  | takeOver => exact .inr (taken_takeOver hc)
  | keep hpc =>
    have hrunning := (leaving_iff (.inr (.inr ⟨0, rfl⟩))).mp hleaving
    exact .inl ⟨(leaving_iff (.inr (.inl hpc))).mpr hrunning, rfl⟩
  | @drop now hpc =>
    have hrunning := (leaving_iff (.inr (.inr ⟨0, rfl⟩))).mp hleaving
    exact .inl ⟨(leaving_iff (.inr (.inl hpc))).mpr hrunning,
      (batches_emit (e := .notice (droppedMessage now _)) rfl).trans (List.append_nil _)⟩
  | @write now n b hpc =>
    have hrunning := (leaving_iff (.inr (.inr ⟨n + 1, rfl⟩))).mp hleaving
    exact .inl ⟨(leaving_iff (.inr (.inr ⟨n, hpc⟩))).mpr hrunning,
      (batches_emit (e := .written b.data) rfl).trans (List.append_nil _)⟩
  | @recycle now n hpc =>
    have hrunning := (leaving_iff (.inl rfl)).mp hleaving
    exact .inl ⟨(leaving_iff (.inr (.inr ⟨n, hpc⟩))).mpr hrunning, rfl⟩

theorem leaving_stays {s : AsyncLogging} (h : Sound s) (hleaving : Leaving s)
    (e : AsyncLogging.Event) : Leaving (s.step e) ∧ (s.step e).batches = s.batches := by
  rcases h.step_cases e with ⟨heq, -⟩ | hcases
  · rw [heq]
    exact ⟨hleaving, rfl⟩
  generalize s.step e = s' at hcases
  cases hcases with
  | @append line | @appendNext line =>
    exact ⟨hleaving, (batches_emit (e := .appended line) rfl).trans (List.append_nil _)⟩
  | start hpc => simp [Leaving, hpc] at hleaving
  | stop => exact ⟨hleaving.imp_right fun hleaving => ⟨rfl, hleaving.2⟩, rfl⟩
  | goOn hpc hrunning => simp [Leaving, hpc, hrunning] at hleaving
  | leave => exact ⟨.inl rfl, rfl⟩
  | wait hpc => simp [Leaving, hpc, swapAhead] at hleaving
  | takeOver hpc => rcases hpc with hpc | hpc <;> simp [Leaving, hpc, swapAhead] at hleaving
  | keep hpc =>
    have hrunning := (leaving_iff (.inr (.inl hpc))).mp hleaving
    exact ⟨(leaving_iff (.inr (.inr ⟨0, rfl⟩))).mpr hrunning, rfl⟩
  | @drop now hpc =>
    have hrunning := (leaving_iff (.inr (.inl hpc))).mp hleaving
    exact ⟨(leaving_iff (.inr (.inr ⟨0, rfl⟩))).mpr hrunning,
      (batches_emit (e := .notice (droppedMessage now _)) rfl).trans (List.append_nil _)⟩
  | @write now n b hpc =>
    have hrunning := (leaving_iff (.inr (.inr ⟨n, hpc⟩))).mp hleaving
    exact ⟨(leaving_iff (.inr (.inr ⟨n + 1, rfl⟩))).mpr hrunning,
      (batches_emit (e := .written b.data) rfl).trans (List.append_nil _)⟩
  | @recycle now n hpc =>
    have hrunning := (leaving_iff (.inr (.inr ⟨n, hpc⟩))).mp hleaving
    exact ⟨(leaving_iff (.inl rfl)).mpr hrunning, rfl⟩

/-- Without a `stop` the backend stays in its loop. -/
theorem stays_running {s : AsyncLogging} (h : Sound s) {e : AsyncLogging.Event} (he : e ≠ .stop)
    (hrunning : s.pc = .notStarted ∨ s.running_ = true ∧ s.pc ≠ .done) :
    (s.step e).pc = .notStarted ∨ (s.step e).running_ = true ∧ (s.step e).pc ≠ .done := by
  rcases h.step_cases e with ⟨heq, -⟩ | hcases
  · rwa [heq]
  generalize s.step e = s' at hcases
  cases hcases with
  | append | appendNext => exact hrunning
  | start => exact .inr ⟨rfl, nofun⟩
  | stop => exact absurd rfl he
  | leave hpc hno => simp [hpc, hno] at hrunning
  | goOn hpc | wait hpc | keep hpc | drop hpc | write hpc | recycle hpc =>
    simp only [hpc, reduceCtorEq, false_or] at hrunning
    exact .inr ⟨hrunning.1, nofun⟩
  | takeOver hpc =>
    refine .inr ⟨?_, nofun⟩
    rcases hpc with hpc | hpc <;> simp only [hpc, reduceCtorEq, false_or] at hrunning <;>
      exact hrunning.1

theorem stays_started {s : AsyncLogging} (h : Sound s) (hpc : s.pc ≠ .notStarted)
    (e : AsyncLogging.Event) : (s.step e).pc ≠ .notStarted := by
  rcases h.step_cases e with ⟨heq, -⟩ | hcases
  · rwa [heq]
  generalize s.step e = s' at hcases
  cases hcases with
  | append | appendNext | stop => exact hpc
  | _ => nofun

/-! ## The calls -/

structure Tracked (s : StopLogging) : Prop where
  sound : Sound s.log
  content : Content s.log
  returned : ∀ line ∈ s.returned, line < s.log.appended.length
  promised : ∀ line ∈ s.promised, line < s.log.appended.length
  running : s.stopPc ≠ .joining → s.log.pc = .notStarted ∨ s.log.running_ = true ∧ s.log.pc ≠ .done
  started : s.stopPc ≠ .notCalled → s.log.pc ≠ .notStarted

theorem tracked_new : Tracked new :=
  ⟨sound_new, content_new, nofun, nofun, fun _ => .inl rfl, fun h => absurd rfl h⟩

/-- Before the store of `stop` the backend is not leaving. -/
theorem Tracked.not_leaving {s : StopLogging} (h : Tracked s) (hpc : s.stopPc ≠ .joining) :
    ¬ Leaving s.log := by
  rcases h.running hpc with hlog | ⟨hrunning, hlog⟩
  · simp [Leaving, hlog]
  · simp [Leaving, hlog, hrunning]

/-- A step of the log, with the owner before or behind the store of `stop`. -/
theorem Tracked.log {s : StopLogging} (h : Tracked s) {e : AsyncLogging.Event} {stopPc : StopPc}
    (hshort : Short e) (hstop : stopPc = .joining ∨ e ≠ .stop ∧ stopPc = s.stopPc)
    (hcalled : stopPc ≠ .notCalled → s.stopPc ≠ .notCalled) :
    Tracked { s with log := s.log.step e, stopPc := stopPc } := by
  have hmono := (appended_grows h.sound e).length_le
  refine ⟨h.sound.step e, h.content.step h.sound hshort,
    fun line hline => Nat.lt_of_lt_of_le (h.returned line hline) hmono,
    fun line hline => Nat.lt_of_lt_of_le (h.promised line hline) hmono, fun hpc => ?_,
    fun hpc => stays_started h.sound (h.started (hcalled hpc)) e⟩
  rcases hstop with hjoining | ⟨he, hsame⟩
  · exact absurd hjoining hpc
  · exact stays_running h.sound he (h.running (hsame ▸ hpc))

theorem Tracked.step {s : StopLogging} (h : Tracked s) {e : Event} (hshort : ShortLine e) :
    Tracked (s.step e) := by
  cases e with
  | log e =>
    cases e with
    | stop =>
      rw [StopLogging.step]
      split
      · next hcalled => exact h.log hshort (.inl rfl) fun _ => by simp [hcalled]
      · exact h
    | append line | start | backend now => exact h.log hshort (.inr ⟨nofun, rfl⟩) id
  | appendReturns line =>
    rw [StopLogging.step]
    split
    · next hline =>
      refine ⟨h.sound, h.content, fun line' hline' => ?_, h.promised, h.running, h.started⟩
      rcases List.mem_append.mp hline' with hline' | hline'
      · exact h.returned line' hline'
      · rwa [List.mem_singleton.mp hline']
    · exact h
  | callStop =>
    rw [StopLogging.step]
    split
    · next hfirst =>
      exact ⟨h.sound, h.content, h.returned, h.returned,
        fun _ => h.running (by simp [hfirst.1]), fun _ => hfirst.2⟩
    · exact h

/-- Everything promised is taken over, or a `swap` is still to come. -/
def Safe (s : StopLogging) : Prop :=
  Leaving s.log → ∀ line ∈ s.promised, (upTo s.log line).length ≤ (taken s.log).length

/-- Something promised stays behind. -/
structure Doomed (s : StopLogging) : Prop where
  stopPc : s.stopPc = .joining
  leaving : Leaving s.log
  left : ∃ line ∈ s.promised, (taken s.log).length < (upTo s.log line).length

theorem step_stop {s : AsyncLogging} (h : Sound s) :
    s.step .stop = { s with running_ := false } := by
  rw [AsyncLogging.step, if_neg (by simp [h.aborted])]
  rfl

theorem upTo_le_appended (s : AsyncLogging) (line : Nat) : upTo s line <+: s.appended.flatten :=
  ⟨(s.appended.drop (line + 1)).flatten, by
    rw [upTo, ← List.flatten_append, List.take_append_drop]⟩

/-- The steps of the log other than the store of `stop`. -/
theorem Safe.log {s : StopLogging} (h : Safe s) (ht : Tracked s) {e : AsyncLogging.Event}
    (he : e ≠ .stop) : Safe { s with log := s.log.step e } := by
  intro hleaving line hline
  rcases leaving_step ht.sound ht.content he hleaving with ⟨hbefore, hbatches⟩ | htaken
  · rw [taken, hbatches, upTo_of_prefix (appended_grows ht.sound e) (ht.promised line hline)]
    exact h hbefore line hline
  · rw [htaken]
    exact (upTo_le_appended _ line).length_le

theorem Safe.step {s : StopLogging} (h : Safe s) (ht : Tracked s) {e : Event}
    (hok : s.StopOk e) : Safe (s.step e) := by
  cases e with
  | log e =>
    cases e with
    | stop =>
      rw [StopLogging.step]
      split
      · next hcalled =>
        intro hleaving line hline
        simp only [step_stop ht.sound] at hleaving ⊢
        have hrunning := ht.running (by simp [hcalled])
        have hstarted := ht.started (by simp [hcalled])
        have hswap : swapAhead s.log.pc = false := by
          rcases hleaving with hdone | ⟨-, -, hswap⟩
          · exact absurd hdone (hrunning.resolve_left hstarted).2
          · exact hswap
        exact hok hcalled hswap line hline
      · exact h
    | append line | start | backend now => exact h.log ht nofun
  | appendReturns line =>
    rw [StopLogging.step]
    split <;> exact h
  | callStop =>
    rw [StopLogging.step]
    split
    · next hfirst => exact fun hleaving => absurd hleaving (ht.not_leaving (by simp [hfirst.1]))
    · exact h

theorem Doomed.step {s : StopLogging} (h : Doomed s) (ht : Tracked s) (e : Event) :
    Doomed (s.step e) := by
  obtain ⟨hjoining, hleaving, line, hline, hleft⟩ := h
  cases e with
  | log e =>
    have hdoomed : Doomed { s with log := s.log.step e } := by
      obtain ⟨hleaving', hbatches⟩ := leaving_stays ht.sound hleaving e
      refine ⟨hjoining, hleaving', line, hline, ?_⟩
      rw [taken, hbatches, upTo_of_prefix (appended_grows ht.sound e) (ht.promised line hline)]
      exact hleft
    cases e with
    | stop =>
      rw [StopLogging.step, if_neg (by simp [hjoining])]
      exact ⟨hjoining, hleaving, line, hline, hleft⟩
    | append line | start | backend now => exact hdoomed
  | appendReturns line' =>
    rw [StopLogging.step]
    split <;> exact ⟨hjoining, hleaving, line, hline, hleft⟩
  | callStop =>
    rw [StopLogging.step, if_neg (by simp [hjoining])]
    exact ⟨hjoining, hleaving, line, hline, hleft⟩

theorem doomed_of_not_stopOk {s : StopLogging} (ht : Tracked s) {e : Event} (h : ¬ s.StopOk e) :
    Doomed (s.step e) := by
  cases e with
  | log e =>
    cases e with
    | stop =>
      simp only [StopOk, not_forall, Nat.not_le, exists_prop] at h
      obtain ⟨hcalled, hswap, line, hline, hleft⟩ := h
      rw [StopLogging.step, if_pos hcalled, step_stop ht.sound]
      exact ⟨rfl, .inr ⟨rfl, ht.started (by simp [hcalled]), hswap⟩, line, hline, hleft⟩
    | append line | start | backend now => exact absurd trivial h
  | appendReturns line | callStop => exact absurd trivial h

/-! ## Every interleaving -/

/-- When the backend is done, what is written is what was taken over. -/
theorem written_eq_taken {s : AsyncLogging} (h : Content s) (hdone : s.pc = .done)
    (hfew : ∀ batch ∈ s.batches, batch.length ≤ 25) : s.written.flatten = taken s := by
  have hout := h.output
  simp only [Written, hdone] at hout
  have hsurvivors := survivors_eq_flatten hfew
  simp only [survivors, hdone] at hsurvivors
  rw [hout, hsurvivors, taken]

theorem inLog_iff {s : AsyncLogging} (h : Content s) (hdone : s.pc = .done)
    (hfew : ∀ batch ∈ s.batches, batch.length ≤ 25) (line : Nat) :
    InLog s line ↔ (upTo s line).length ≤ (taken s).length := by
  have htaken : taken s <+: s.appended.flatten := ⟨_, h.complete⟩
  rw [InLog, written_eq_taken h hdone hfew]
  exact ⟨List.IsPrefix.length_le,
    List.prefix_of_prefix_length_le (upTo_le_appended s line) htaken⟩

/-- When `stop` has returned, and no iteration has dropped anything, the lines whose `append` had
returned before it was called are in the log if and only if the `stop` was `StopOk`. -/
theorem stop_writes_everything (es : List Event) (hshort : ∀ e ∈ es, ShortLine e) :
    let s := run step new es
    s.stopReturned = true → (∀ batch ∈ s.log.batches, batch.length ≤ 25) →
      ((∀ line ∈ s.promised, InLog s.log line) ↔ Meets StopOk step new es) := by
  intro s hreturned hfew
  have htracked : Tracked s :=
    run_invariant (fun _ _ h hok => h.step hok) tracked_new (meets_of_forall hshort)
  obtain ⟨hjoining, hdone⟩ : s.stopPc = .joining ∧ s.log.pc = .done := by
    simpa [stopReturned] using hreturned
  have hleaving : Leaving s.log := .inl hdone
  have hinLog := inLog_iff htracked.content hdone hfew
  constructor
  · intro hkept
    by_contra hnot
    have hdoomed : Doomed s :=
      run_of_not_meets (fun _ _ h hok => h.step hok)
        (fun _ _ h _ hbad => doomed_of_not_stopOk h hbad) (fun _ e h _ hd => hd.step h e)
        tracked_new hshort hnot
    obtain ⟨line, hline, hleft⟩ := hdoomed.left
    exact absurd ((hinLog line).mp (hkept line hline)) (Nat.not_le.mpr hleft)
  · intro hmeets
    have hsafe : Tracked s ∧ Safe s :=
      run_invariant (I := fun s : StopLogging => Tracked s ∧ Safe s)
        (fun _ _ h hok => ⟨h.1.step hok.2, h.2.step h.1 hok.1⟩)
        ⟨tracked_new, fun _ => nofun⟩ (hmeets.and (meets_of_forall hshort))
    exact fun line hline => (hinLog line).mpr (hsafe.2 hleaving line hline)

/-- The backend waits when the line is logged and `stop` is called. -/
theorem stop_writes_everything_waiting :
    let s := run step new [.log .start, .log (.backend []), .log (.backend []),
      .log (.append [1]), .appendReturns 0, .callStop, .log .stop, .log (.backend []),
      .log (.backend []), .log (.backend []), .log (.backend []), .log (.backend [])]
    s.promised = [0] ∧ ∀ line ∈ s.promised, InLog s.log line := by
  intro s
  have h := stop_writes_everything [.log .start, .log (.backend []), .log (.backend []),
    .log (.append [1]), .appendReturns 0, .callStop, .log .stop, .log (.backend []),
    .log (.backend []), .log (.backend []), .log (.backend []), .log (.backend [])] (by decide)
  exact ⟨by decide +kernel, (h (by decide +kernel) (by decide +kernel)).mpr (by decide +kernel)⟩

/-- A line is logged while the backend writes another one, and `stop` is called: the backend goes
from there to its test of `running_` and leaves. -/
theorem stop_writes_everything_fails :
    ¬ ∀ es : List Event, (∀ e ∈ es, ShortLine e) →
      let s := run step new es
      s.stopReturned = true → (∀ batch ∈ s.log.batches, batch.length ≤ 25) →
        ∀ line ∈ s.promised, InLog s.log line := by
  intro hall
  have hin := hall [.log .start, .log (.append [1]), .appendReturns 0, .log (.backend []),
    .log (.backend []), .log (.backend []), .log (.backend []), .log (.append [2]),
    .appendReturns 1, .callStop, .log .stop, .log (.backend []), .log (.backend []),
    .log (.backend [])] (by decide) (by decide +kernel) (by decide +kernel) 1 (by decide +kernel)
  revert hin
  unfold InLog
  decide +kernel

end StopLogging

end Mymuduo
