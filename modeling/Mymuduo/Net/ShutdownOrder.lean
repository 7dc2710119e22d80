import Mymuduo.Net.PendingShutdown

/-!
# Nothing sent before `shutdown` is lost

What becomes of a run that is not open any more, and what this says about whole runs.

* `Settled.step`, `Dead.step`: nothing changes any more.
* `shutdown_keeps_promises`: a run that meets `Waits` keeps its promises.
* `shutdown_keeps_promises_fails`: the loop thread shuts down before it has looked at its queue.
-/

namespace Mymuduo

open CString Transition

namespace TcpConnection

/-- The effects of a connection are not taken back, and once it is on its way down it stays so. -/
theorem late_step {c : TcpConnection} (hlate : ¬ c.Early) {e : Event}
    (hest : e ≠ .connectEstablished) :
    ¬ (c.step e).Early ∧ ∃ es, (c.step e).trace = c.trace ++ es := by
  by_cases he : e.isLife = true
  · cases hcl : c.closes e with
    | true =>
      obtain ⟨fs, hstep⟩ := closes_step hcl
      rw [hstep]
      refine ⟨?_, _, trace_handleClose _⟩
      rintro (hc | hc) <;> cases hc
    | false =>
      have hon := goesOn_step he hcl
      obtain ⟨es, -, htr⟩ := hon.trace
      refine ⟨?_, es, htr⟩
      rcases hon.state_ with hs | ⟨-, hs⟩
      · simpa only [Early, hs] using hlate
      · simp [Early, hs]
  · cases e with
    | connectDestroyed =>
      have hs : c.state_ ≠ .kConnected := fun hs => hlate (.inr hs)
      rw [step, connectDestroyed, if_neg hs]
      exact ⟨hlate, [], by simp⟩
    | connectEstablished => exact absurd rfl hest
    | _ => exact absurd rfl he

theorem Over.of_eq {c c' : TcpConnection} (h : c.Over) (hs : c'.state_ = c.state_)
    (hch : c'.channel_ = c.channel_) (htr : Effect.shutdownWrite ∉ c'.trace)
    (hq : ∀ f ∈ c'.pendingFunctors_, f ∈ c.pendingFunctors_) : c'.Over :=
  ⟨hs.trans h.down, (congrArg Channel.isWriting hch).trans h.unwatched, htr,
    fun f hf => h.queue f (hq f hf)⟩

theorem Over.handleClose {c : TcpConnection} (h : c.Over) : c.handleClose.Over :=
  ⟨rfl, isWriting_handleClose c, by simpa using h.never, h.queue⟩

/-- What is left in the queue does nothing. -/
theorem Over.popped {c : TcpConnection} (h : c.Over) {f : Functor} {fs : List Functor}
    (hq : c.pendingFunctors_ = f :: fs) (r : SysRet) :
    ({ c with pendingFunctors_ := fs }.runFunctor r f).Over := by
  have hpop : ({ c with pendingFunctors_ := fs } : TcpConnection).Over :=
    h.of_eq rfl rfl h.never fun f' hf' => by rw [hq]; exact List.mem_cons_of_mem _ hf'
  have hrun : ({ c with pendingFunctors_ := fs } : TcpConnection).runFunctor r f =
      { c with pendingFunctors_ := fs } := by
    rcases h.queue f (by rw [hq]; exact List.mem_cons_self) with hf | ⟨message, rfl⟩
    · cases f <;> first | rfl | cases hf
    · exact sendInLoop_disconnected hpop.down message r
  rw [hrun]
  exact hpop

/-- A connection that is over stays over, until it is established anew. -/
theorem Over.step {c : TcpConnection} (h : c.Over) {e : Event}
    (hest : e = .connectEstablished → c.state_ = .kConnecting) : (c.step e).Over := by
  rcases step_cases c e with heq | hcase
  · rwa [heq]
  generalize c.step e = c' at hcase ⊢
  cases hcase with
  | connectEstablished =>
    have hs := hest rfl
    rw [h.down] at hs
    cases hs
  | send hs | sendFile hs | shutdown hs | sendFromThread hs | sendFileFromThread hs
  | shutdownFromThread hs | connectDestroyed hs =>
    rw [h.down] at hs
    cases hs
  | forceClose hup | forceCloseInLoop hup =>
    rw [h.down] at hup
    rcases hup with hs | hs <;> cases hs
  | received => exact h.of_eq rfl rfl (by simpa using h.never) fun _ => id
  | endOfFile | handleClose => exact h.handleClose
  | handleWrite r =>
    rw [handleWrite, if_neg (by simp [h.unwatched])]
    exact h
  | doPendingFunctor f fs hq r => exact h.popped hq r

end TcpConnection

namespace SharedConnection

variable {τ : Type*}

/-- Nothing more is promised once the connection is on its way down. -/
theorem promised_note {s : SharedConnection τ} (hlate : ¬ s.conn.Early)
    (e : TcpConnection.Event) : (s.note e).promised = s.promised := by
  unfold note
  split
  · rw [if_neg fun hs => hlate (.inr hs)]
  · rfl
  · rfl

theorem Settled.of_append {s s' : SharedConnection τ} (h : Settled s)
    (hprom : s'.promised = s.promised) (htr : ∃ es, s'.conn.trace = s.conn.trace ++ es)
    (hpast : ¬ s'.conn.Early) : Settled s' := by
  obtain ⟨es, htr⟩ := htr
  obtain ⟨pre, post, heq, hno, hdel⟩ := h.out
  exact ⟨⟨pre, post ++ es, by rw [htr, heq, List.append_assoc], hno, hprom ▸ hdel⟩, hpast⟩

/-- Wherever the write side is shut down, what is promised is on the wire. -/
theorem Phase.delivered {s : SharedConnection τ} (h : Phase s) {pre post : List Effect}
    (heq : s.conn.trace = pre ++ .shutdownWrite :: post) : Delivered (wire pre) s.promised := by
  have hin : Effect.shutdownWrite ∈ s.conn.trace := by
    rw [heq]
    simp
  cases h with
  | opened h => exact absurd hin h.never
  | dead h => exact absurd hin h.conn_over.never
  | settled h =>
    obtain ⟨pre', post', heq', hno, hdel⟩ := h.out
    rcases List.append_eq_append_iff.mp (heq'.symm.trans heq) with ⟨es, rfl, -⟩ | ⟨es, rfl, hes⟩
    · rw [wire_append]
      exact hdel.append (wire es)
    · cases es with
      | nil => simpa using hdel
      | cons e es =>
        obtain ⟨rfl, -⟩ := List.cons_eq_cons.mp hes
        simp at hno

theorem opened_new (highWaterMark : Nat) (hcb wcb : Bool) (files : Int → Bytes) :
    Open (τ := τ) (new (.new highWaterMark hcb wcb files)) [] := by
  have hwatch : (TcpConnection.new highWaterMark hcb wcb files).isWriting = true ↔
      (TcpConnection.new highWaterMark hcb wcb files).outputBuffer_.readable ≠ [] := by
    rw [TcpConnection.isWriting_new]
    simp [TcpConnection.new]
  have hquiet : ∀ f ∈ (TcpConnection.new highWaterMark hcb wcb files).pendingFunctors_,
      f.isCallback = true ∨ (∃ message, f = .sendInLoop message) ∨ f = .shutdownInLoop :=
    fun f hf => absurd hf List.not_mem_nil
  exact ⟨by simp [new, TcpConnection.new], rfl, hwatch, List.not_mem_nil, hquiet,
    ⟨[], rfl, List.Perm.refl _, List.nil_subperm⟩, Nat.le_refl _, by simp [new],
    fun _ => ⟨List.not_mem_nil, by simp [new]⟩, by simp [new]⟩

variable [DecidableEq τ]

theorem promised_proceed (s : SharedConnection τ) (t : τ) :
    (s.proceed t).promised = s.promised := by
  unfold proceed
  split <;> rfl

theorem Settled.step {s : SharedConnection τ} (h : Settled s) {e : Event τ} (hsends : s.Sends e) :
    Settled (s.step e) := by
  have hs : s.conn.state_ ≠ .kConnected := fun hs => h.past (.inr hs)
  cases e with
  | loop e =>
    have hest : e ≠ .connectEstablished := by
      rintro rfl
      exact h.past (.inl (hsends.2 rfl))
    obtain ⟨hpast, hgrow⟩ := TcpConnection.late_step h.past hest
    exact h.of_append (promised_note h.past e) hgrow hpast
  | send t message =>
    rw [SharedConnection.step, SharedConnection.send, if_neg fun hc => hs hc.2]
    exact h
  | shutdown t =>
    rw [SharedConnection.step, SharedConnection.shutdown, if_neg fun hc => hs hc.2]
    exact h
  | forceClose t => cases hsends
  | proceed t =>
    obtain ⟨htr, hstate⟩ := conn_proceed s t
    refine h.of_append (promised_proceed s t) ⟨[], by rw [List.append_nil]; exact htr⟩ ?_
    simp only [SharedConnection.step, TcpConnection.Early, hstate]
    split
    · simp
    · exact h.past

theorem Dead.step {s : SharedConnection τ} (h : Dead s) {e : Event τ} (hsends : s.Sends e) :
    Dead (s.step e) := by
  have hs : s.conn.state_ ≠ .kConnected := by simp [h.conn_over.down]
  cases e with
  | loop e =>
    exact ⟨h.conn_over.step hsends.2, by
      simpa only [SharedConnection.step, (conn_note s e).1] using h.calls⟩
  | send t message =>
    rw [SharedConnection.step, SharedConnection.send, if_neg fun hc => hs hc.2]
    exact h
  | shutdown t =>
    rw [SharedConnection.step, SharedConnection.shutdown, if_neg fun hc => hs hc.2]
    exact h
  | forceClose t => cases hsends
  | proceed t =>
    simp only [SharedConnection.step, SharedConnection.proceed]
    rcases h.calls t with hcall | ⟨message, hcall⟩
    · simpa only [hcall] using h
    · simp only [hcall]
      refine ⟨⟨h.conn_over.down, h.conn_over.unwatched, h.conn_over.never, ?_⟩, fun t' => ?_⟩
      · intro f hf
        rcases List.mem_append.mp hf with hf | hf
        · exact h.conn_over.queue f hf
        · exact .inr ⟨message, List.mem_singleton.mp hf⟩
      · rcases eq_or_ne t' t with rfl | hne
        · exact .inl (Function.update_self ..)
        · simpa only [setCall, Function.update_of_ne hne] using h.calls t'

theorem Phase.step {s : SharedConnection τ} (h : Phase s) {e : Event τ} (hsends : s.Sends e)
    (hwaits : s.Waits e) : Phase (s.step e) := by
  cases h with
  | opened h => exact h.step hsends hwaits
  | settled h => exact .settled (h.step hsends)
  | dead h => exact .dead (h.step hsends)

/-! ## Whole runs -/

/-- A call of `shutdown` that finds the connection accepting messages. -/
def callsShutdown (s : SharedConnection τ) : Event τ → Bool
  | .loop .shutdown => decide (s.conn.state_ = .kConnected)
  | .shutdown t => decide (s.calls t = .idle ∧ s.conn.state_ = .kConnected)
  | _ => false

theorem callsShutdown_step {s : SharedConnection τ} {e : Event τ} (h : s.callsShutdown e = true) :
    (s.step e).promised = s.accepted := by
  unfold callsShutdown at h
  split at h
  · simp only [step, note]
    rw [if_pos (of_decide_eq_true h)]
    rfl
  · simp only [step, shutdown]
    rw [if_pos (of_decide_eq_true h)]
    rfl
  · cases h

/-- What is promised stays promised, and was accepted. -/
theorem promised_step {s : SharedConnection τ} (h : s.promised <+: s.accepted) (e : Event τ) :
    s.promised <+: (s.step e).promised ∧ (s.step e).promised <+: (s.step e).accepted := by
  cases e with
  | loop e =>
    simp only [step, note]
    split
    · split
      · exact ⟨h, List.prefix_rfl⟩
      · exact ⟨List.prefix_rfl, h⟩
    · exact ⟨List.prefix_rfl, h⟩
    · exact ⟨List.prefix_rfl, h.trans (List.prefix_append ..)⟩
  | send t message =>
    simp only [step, send]
    split <;> exact ⟨List.prefix_rfl, h⟩
  | shutdown t =>
    simp only [step, shutdown]
    split
    · exact ⟨h, List.prefix_rfl⟩
    · exact ⟨List.prefix_rfl, h⟩
  | forceClose t =>
    simp only [step, forceClose]
    split <;> exact ⟨List.prefix_rfl, h⟩
  | proceed t =>
    simp only [step, proceed]
    split
    · exact ⟨List.prefix_rfl, h⟩
    · exact ⟨List.prefix_rfl, h.trans (List.prefix_append ..)⟩
    all_goals exact ⟨List.prefix_rfl, h⟩

theorem promised_run {s : SharedConnection τ} (h : s.promised <+: s.accepted)
    (es : List (Event τ)) :
    s.promised <+: (run step s es).promised ∧
      (run step s es).promised <+: (run step s es).accepted := by
  have hkeep : ∀ (s' : SharedConnection τ) e,
      s.promised <+: s'.promised ∧ s'.promised <+: s'.accepted →
      s.promised <+: (s'.step e).promised ∧ (s'.step e).promised <+: (s'.step e).accepted := by
    rintro s' e ⟨hold, hacc⟩
    obtain ⟨hnew, hacc'⟩ := promised_step hacc e
    exact ⟨hold.trans hnew, hacc'⟩
  exact run_preserves hkeep es ⟨List.prefix_rfl, h⟩

/-- Every message whose `send` returned before a call of `shutdown` is on the wire before the write
side is shut down, as long as no step of the loop gets ahead of it. -/
theorem shutdown_keeps_promises (highWaterMark : Nat) (hcb wcb : Bool) (files : Int → Bytes)
    (es : List (Event τ)) (hsends : Meets Sends step (new (.new highWaterMark hcb wcb files)) es)
    (hwaits : Meets Waits step (new (.new highWaterMark hcb wcb files)) es) :
    let s := run step (new (.new highWaterMark hcb wcb files))
    ∀ before e after, es = before ++ e :: after → (s before).callsShutdown e = true →
      ∀ pre post, (s es).conn.trace = pre ++ .shutdownWrite :: post →
        Delivered (wire pre) (s before).accepted := by
  intro s before e after heq hcalls pre post htr
  have hphase : Phase (s es) :=
    run_invariant (fun _ _ h hok => h.step hok.1 hok.2) (.opened (opened_new ..))
      (hsends.and hwaits)
  obtain ⟨sent, rest, hout, hsub⟩ := hphase.delivered htr
  have hstart : (s before).promised <+: (s before).accepted :=
    (promised_run (s := new _) List.prefix_rfl before).2
  have hlast : (s before).accepted <+: (s es).promised := by
    rw [← callsShutdown_step hcalls, heq]
    simp only [s, run_append, run_cons]
    exact (promised_run (promised_step hstart e).2 after).1
  exact ⟨sent, rest, hout, hlast.sublist.subperm.trans hsub⟩

/-- A message from a thread, whose `shutdown` is served while another message is on its way out. -/
theorem shutdown_keeps_promises_hello :
    let es : List (Event Bool) := [.loop .connectEstablished, .send true (ascii "hello "),
      .proceed true, .shutdown true, .loop (.send (ascii "world") (.ok 2)), .proceed true,
      .loop (.doPendingFunctor (.ok 100)), .proceed true, .loop (.handleWrite (.ok 100)),
      .loop (.doPendingFunctor (.ok 0))]
    ∀ pre post, (run step (new (.new 64 false false fun _ => [])) es).conn.trace =
        pre ++ .shutdownWrite :: post →
      Delivered (wire pre) [ascii "hello "] := by
  intro es
  exact shutdown_keeps_promises 64 false false (fun _ => []) es (by decide +kernel)
    (by decide +kernel) [.loop .connectEstablished, .send true (ascii "hello "), .proceed true]
    (.shutdown true) _ rfl (by decide +kernel)

/-- A message is queued by a thread, and the loop thread shuts down before it looks. -/
theorem shutdown_keeps_promises_fails :
    let es : List (Event Bool) := [.loop .connectEstablished, .send true (ascii "hello"),
      .proceed true, .loop .shutdown]
    let s := run step (new (.new 64 false false fun _ => []))
    Meets Sends step (new (.new 64 false false fun _ => [])) es ∧
      ¬ ∀ before e after, es = before ++ e :: after → (s before).callsShutdown e = true →
        ∀ pre post, (s es).conn.trace = pre ++ .shutdownWrite :: post →
          Delivered (wire pre) (s before).accepted := by
  intro es s
  refine ⟨by decide +kernel, fun hall => ?_⟩
  obtain ⟨sent, rest, hout, hsub⟩ := hall [.loop .connectEstablished,
    .send true (ascii "hello"), .proceed true] (.loop .shutdown) [] rfl (by decide +kernel)
    [.connectionCallback true] [] (by decide +kernel)
  have hnone : sent.flatten = [] := (List.append_eq_nil_iff.mp hout.symm).1
  have hmem : ascii "hello" ∈ sent := hsub.subset (by decide +kernel)
  have hempty := List.flatten_eq_nil_iff.mp hnone _ hmem
  revert hempty
  decide +kernel

end SharedConnection

end Mymuduo
