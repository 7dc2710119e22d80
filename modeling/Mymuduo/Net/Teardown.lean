import Mymuduo.Net.BufferedOutput
import Mymuduo.Net.ChannelRemoval
import Mymuduo.Net.LifeCycle

/-!
# Teardown of a connection

A life is what happens between `connectEstablished` and `connectDestroyed`. `TornDown` is what is
left to be true after it: the connection is down, its channel has no interest and is removed from
the poller, and the user was told twice, up and down.

`connectDestroyed` takes a connection down only in the state `kConnected`. So a life that ends
while a `shutdown` is under way ends with the channel still enabled. The other way to miss is to
close a connection that is down already, which tells the user again.

* `Life.step`: what a step makes of a life in which only a connection that is up is closed.
* `torn_down_iff`: a life ends well unless it is one of these two.
-/

namespace Mymuduo

open CString Transition

/-! ## The life of a connection -/

/-- What the user's connection callback was told, in order. -/
def callbacks (es : List Effect) : List Bool :=
  es.filterMap fun
    | .connectionCallback up => some up
    | _ => none

theorem TcpConnection.GoesOn.callbacks {c c' : TcpConnection} (h : c.GoesOn c') :
    callbacks c'.trace = callbacks c.trace :=
  h.filterMap fun e he => by cases e <;> first | rfl | cases he

@[simp] theorem callbacks_append (es es' : List Effect) :
    callbacks (es ++ es') = callbacks es ++ callbacks es' :=
  List.filterMap_append ..

namespace TcpConnection

/-- What can happen after `connectDestroyed`: the user's calls, and the functors they left. -/
def Event.isLate : Event → Bool
  | .handleRead _ => false
  | .handleWrite _ => false
  | .handleClose => false
  | e => e.isLife

/-- What the connection does to its channel. -/
def updates (c : TcpConnection) (e : Event) : List ChannelOp :=
  match e with
  | .connectEstablished => [.enableReading]
  | .connectDestroyed => (if c.state_ = .kConnected then [.disableAll] else []) ++ [.remove]
  | e =>
    if c.closes e then [.disableAll]
    else if (c.step e).isWriting = c.isWriting then []
    else if (c.step e).isWriting then [.enableWriting]
    else [.disableWriting]

theorem updates_life (c : TcpConnection) {e : Event} (he : e.isLife = true) :
    c.updates e = if c.closes e then [.disableAll]
      else if (c.step e).isWriting = c.isWriting then []
      else if (c.step e).isWriting then [.enableWriting]
      else [.disableWriting] := by
  cases e <;> first | rfl | cases he

/-- The write interest before and after tells what happened to the channel. -/
theorem Switches.eq_foldl {ch ch' : Channel} (h : Switches ch ch') :
    ch' = (if ch'.isWriting = ch.isWriting then []
      else if ch'.isWriting then [ChannelOp.enableWriting]
      else [ChannelOp.disableWriting]).foldl (fun ch op => op.apply ch) ch := by
  cases h with
  | same => simp
  | enable hw => simp [hw, ChannelOp.apply]
  | disable hw => simp [hw, ChannelOp.apply]

/-- The operations are all that happens to the channel. -/
theorem channel_updates (c : TcpConnection) (e : Event) :
    (c.step e).channel_ = (c.updates e).foldl (fun ch op => op.apply ch) c.channel_ := by
  by_cases he : e.isLife = true
  · rw [updates_life c he]
    cases hcl : c.closes e with
    | true =>
      obtain ⟨fs, hstep⟩ := closes_step hcl
      rw [hstep]
      rfl
    | false =>
      exact (goesOn_step he hcl).channel_.eq_foldl
  · cases e with
    | connectEstablished => rfl
    | connectDestroyed =>
      simp only [step, connectDestroyed, updates]
      split <;> rfl
    | _ => exact absurd rfl he

/-- Nothing happens to the channel of a connection that is down, unless it is closed again. -/
theorem step_down {c : TcpConnection} (hs : c.state_ = .kDisconnected)
    (hw : c.isWriting = false) {e : Event} (he : e.isLife = true) (hno : c.closes e = false) :
    (c.step e).state_ = .kDisconnected ∧ (c.step e).channel_ = c.channel_ := by
  rcases step_cases c e with heq | h
  · rw [heq]
    exact ⟨hs, rfl⟩
  generalize c.step e = c' at h ⊢
  cases h with
  | send hup | sendFile hup | shutdown hup | sendFromThread hup | sendFileFromThread hup
  | shutdownFromThread hup =>
    rw [hs] at hup
    cases hup
  | forceClose hup | forceCloseInLoop hup =>
    rw [hs] at hup
    rcases hup with hup | hup <;> cases hup
  | received => exact ⟨hs, rfl⟩
  | handleWrite r =>
    rw [handleWrite, if_neg (by simp [hw])]
    exact ⟨hs, rfl⟩
  | endOfFile | handleClose => cases hno
  | doPendingFunctor f fs hq r =>
    cases f with
    | shutdownInLoop =>
      simp only [runFunctor, shutdownInLoop]
      split <;> exact ⟨hs, rfl⟩
    | forceCloseInLoop | sendFileInLoop | sendInLoop =>
      simp [runFunctor, forceCloseInLoop, sendFileInLoop, sendInLoop, hs]
    | writeCompleteCallback | highWaterMarkCallback => exact ⟨hs, rfl⟩
  | connectEstablished | connectDestroyed => cases he

/-- A life so far, with what was done to the channel. -/
inductive Life (c : TcpConnection) (ops : List ChannelOp) : Prop
  | up (hup : c.Up) (hcallbacks : callbacks c.trace = [true])
    (hops : ∃ ws : List ChannelOp, (∀ op ∈ ws, op.isSwitch = true) ∧ ops = .enableReading :: ws)
  | down (hs : c.state_ = .kDisconnected) (hnone : c.channel_ = ⟨Channel.kNoneEvent⟩)
    (hcallbacks : callbacks c.trace = [true, false])
    (hops : ∃ ws : List ChannelOp, (∀ op ∈ ws, op.isSwitch = true) ∧
      ops = .enableReading :: (ws ++ [.disableAll]))

theorem callbacks_handleClose (c : TcpConnection) :
    callbacks c.handleClose.trace = callbacks c.trace ++ [false] := by
  rw [trace_handleClose, callbacks_append]
  rfl

theorem isWriting_of_none {c : TcpConnection} (hnone : c.channel_ = ⟨Channel.kNoneEvent⟩) :
    c.isWriting = false := by
  rw [isWriting, hnone]
  decide

/-- A step switches the write interest at most, unless it closes. -/
theorem updates_goesOn {c : TcpConnection} {e : Event} (he : e.isLife = true)
    (hno : c.closes e = false) : ∀ op ∈ c.updates e, op.isSwitch = true := by
  rw [updates_life c he, hno]
  intro op hop
  split at hop
  · cases ‹false = true›
  · split at hop
    · cases hop
    · split at hop <;> (obtain rfl := List.mem_singleton.mp hop; rfl)

theorem Life.step {c : TcpConnection} {ops : List ChannelOp} (h : Life c ops) {e : Event}
    (he : e.isLife = true) (hok : c.ClosesUp e) :
    Life (c.step e) (ops ++ c.updates e) := by
  cases hcl : c.closes e with
  | true =>
    have hupd : c.updates e = [.disableAll] := by rw [updates_life c he, hcl, if_pos rfl]
    cases h with
    | up hup hcallbacks hops =>
      obtain ⟨ws, hws, rfl⟩ := hops
      obtain ⟨fs, hstep⟩ := closes_step hcl
      rw [hstep, hupd]
      refine .down rfl rfl ?_ ⟨ws, hws, rfl⟩
      rw [callbacks_handleClose, hcallbacks]
      rfl
    | down hs => exact absurd (hok hcl) (by simp [Up, hs])
  | false =>
    have hon := goesOn_step he hcl
    cases h with
    | up hup hcallbacks hops =>
      obtain ⟨ws, hws, rfl⟩ := hops
      refine .up (hon.up.mpr hup) (hon.callbacks.trans hcallbacks)
        ⟨ws ++ c.updates e, ?_, rfl⟩
      intro op hop
      rcases List.mem_append.mp hop with hop | hop
      · exact hws op hop
      · exact updates_goesOn he hcl op hop
    | down hs hnone hcallbacks hops =>
      have hw := isWriting_of_none hnone
      obtain ⟨hs', hch⟩ := step_down hs hw he hcl
      have hupd : c.updates e = [] := by
        have hw' : (c.step e).isWriting = false := isWriting_of_none (hch.trans hnone)
        rw [updates_life c he, hcl, hw, hw']
        rfl
      rw [hupd, List.append_nil]
      exact .down hs' (hch.trans hnone) (hon.callbacks.trans hcallbacks) hops

/-! ## The end of it -/

/-- Neither poller has anything left of a channel with these operations, however they interleave
with those on other channels. `PollPoller` is only given what it can follow there. -/
structure Removed (ops : List ChannelOp) : Prop where
  epoll : ∀ (ι : Type) [DecidableEq ι] (fd : ι → Nat) (x : ι) (all : List (ι × ChannelOp)),
    Function.Injective fd → ownOps x all = ops →
    (run (EPollPoller.step fd) .new all).Forgets (fd x)
  poll : ∀ (ι : Type) [DecidableEq ι] (fd : ι → Nat) (x : ι) (all : List (ι × ChannelOp)),
    Function.Injective fd → ownOps x all = ops →
    Meets (fun d e => e.1 ≠ x → Declared.Asserted d e ∧ Declared.PollOk d e) Declared.step .new
      all →
    (run (PollPoller.step fd) .new all).Forgets (fd x)

/-- What is to be true after `connectDestroyed`. `noInterest` is what `Channel::remove` asserts, and
`state_` what `~TcpConnection` asserts. -/
structure TornDown (c : TcpConnection) (ops : List ChannelOp) : Prop where
  state_ : c.state_ = .kDisconnected
  noInterest : c.channel_.isNoneEvent = true
  removed : Removed ops
  callbacks : ∀ late : List Event, (∀ e ∈ late, e.isLate = true) →
    callbacks (run step c late).trace = [true, false]

theorem removed_of_left {ops : List ChannelOp} (h : Stage.fresh.Left ops) : Removed ops where
  epoll := fun _ _ _ _ _ hfd hown => EPollPoller.removed_of_orderly hfd (hown ▸ h)
  poll := fun _ _ _ _ _ hfd hown hothers => PollPoller.removed_of_orderly hfd (hown ▸ h) hothers

theorem isLife_of_isLate {e : Event} (he : e.isLate = true) : e.isLife = true := by
  cases e <;> first | rfl | cases he

/-- What comes late finds the connection down and closes nothing. -/
theorem callbacks_late {c : TcpConnection} (hs : c.state_ = .kDisconnected)
    (hnone : c.channel_ = ⟨Channel.kNoneEvent⟩) {late : List Event}
    (hlate : ∀ e ∈ late, e.isLate = true) :
    callbacks (run step c late).trace = callbacks c.trace := by
  have hkeep : ∀ (c' : TcpConnection) (e : Event), (c'.state_ = .kDisconnected ∧
      c'.channel_ = ⟨Channel.kNoneEvent⟩ ∧ callbacks c'.trace = callbacks c.trace) →
      e.isLate = true → (c'.step e).state_ = .kDisconnected ∧
      (c'.step e).channel_ = ⟨Channel.kNoneEvent⟩ ∧
      callbacks (c'.step e).trace = callbacks c.trace := by
    rintro c' e ⟨hs', hnone', hcb⟩ he
    have hno : c'.closes e = false := by
      cases e with
      | handleRead | handleWrite | handleClose => cases he
      | forceCloseInLoop | doPendingFunctor => simp [closes, Up, hs']
      | _ => rfl
    have hlife := isLife_of_isLate he
    obtain ⟨hs₁, hch⟩ := step_down hs' (isWriting_of_none hnone') hlife hno
    exact ⟨hs₁, hch.trans hnone', (goesOn_step hlife hno).callbacks.trans hcb⟩
  exact (run_invariant hkeep ⟨hs, hnone, rfl⟩ (meets_of_forall hlate)).2.2

/-- How often the connection went down, or still will. -/
def falls (c : TcpConnection) : Nat :=
  (callbacks c.trace).count false + if c.Up then 1 else 0

theorem falls_step {c : TcpConnection} {e : Event} (he : e.isLife = true) :
    (c.step e).falls = c.falls + if c.closes e = true ∧ ¬ c.Up then 1 else 0 := by
  cases hcl : c.closes e with
  | true =>
    obtain ⟨fs, hstep⟩ := closes_step hcl
    have hdown : ¬ (c.step e).Up := by
      rw [hstep]
      rintro (h | h) <;> cases h
    have hcb : callbacks (c.step e).trace = callbacks c.trace ++ [false] := by
      rw [hstep, callbacks_handleClose]
    by_cases hup : c.Up <;> simp [falls, hdown, hcb, hup]
  | false =>
    have hon := goesOn_step he hcl
    simp [falls, hon.up, hon.callbacks]

/-- A life in which the connection goes down once closes it while it is up. -/
theorem meets_of_falls {c : TcpConnection} {es : List Event} (hes : ∀ e ∈ es, e.isLife = true) :
    c.falls ≤ (run step c es).falls ∧
      ((run step c es).falls ≤ c.falls → Meets ClosesUp step c es) := by
  induction es generalizing c with
  | nil => exact ⟨Nat.le_refl _, fun _ => trivial⟩
  | cons e es ih =>
    obtain ⟨hle, hmeets⟩ := ih (c := c.step e) fun e' he' => hes e' (List.mem_cons_of_mem _ he')
    have hfalls := falls_step (c := c) (hes e List.mem_cons_self)
    rw [run_cons]
    refine ⟨by omega, fun hge => ⟨?_, hmeets (by omega)⟩⟩
    intro hcl
    by_contra hdown
    rw [if_pos ⟨hcl, hdown⟩] at hfalls
    omega

theorem falls_connectDestroyed (c : TcpConnection) : c.connectDestroyed.falls = c.falls := by
  unfold connectDestroyed
  split
  · next hs => simp [falls, callbacks, Up, hs]
  · rfl

/-- Everything that happens to the channel of a connection. -/
def channelOps (highWaterMark : Nat) (hcb wcb : Bool) (files : Int → Bytes) (es : List Event) :
    List ChannelOp :=
  collect updates step (new highWaterMark hcb wcb files)
    (.connectEstablished :: (es ++ [.connectDestroyed]))

theorem channelOps_eq (highWaterMark : Nat) (hcb wcb : Bool) (files : Int → Bytes)
    (es : List Event) :
    channelOps highWaterMark hcb wcb files es =
      [.enableReading] ++ collect updates step (established highWaterMark hcb wcb files) es ++
        (run step (established highWaterMark hcb wcb files) es).updates .connectDestroyed := by
  simp only [channelOps, collect, collect_append, List.append_nil, List.append_assoc]
  rfl

theorem life_established (highWaterMark : Nat) (hcb wcb : Bool) (files : Int → Bytes) :
    Life (established highWaterMark hcb wcb files) [.enableReading] :=
  .up (.inl rfl) rfl ⟨[], by simp, rfl⟩

/-- `connectDestroyed` tears down a connection unless a shutdown is under way. -/
theorem Life.tornDown {c : TcpConnection} {ops : List ChannelOp} (h : Life c ops)
    (hs : c.state_ ≠ .kDisconnecting) :
    TornDown c.connectDestroyed (ops ++ c.updates .connectDestroyed) := by
  cases h with
  | up hup hcallbacks hops =>
    have hs' : c.state_ = .kConnected := hup.resolve_right hs
    obtain ⟨ws, hws, rfl⟩ := hops
    have hcb : Mymuduo.callbacks c.connectDestroyed.trace = [true, false] := by
      have htr : ((c.setState .kDisconnected).disableAll).trace = c.trace := rfl
      rw [connectDestroyed, if_pos hs', emit_trace, callbacks_append, htr, hcallbacks]
      rfl
    have hd : c.connectDestroyed.state_ = .kDisconnected := by
      rw [connectDestroyed, if_pos hs']
      rfl
    have hnone : c.connectDestroyed.channel_ = ⟨Channel.kNoneEvent⟩ := by
      rw [connectDestroyed, if_pos hs']
      rfl
    refine ⟨hd, by rw [hnone]; rfl, removed_of_left ⟨ws, hws, ?_⟩,
      fun late hlate => (callbacks_late hd hnone hlate).trans hcb⟩
    simp [updates, hs']
  | down hs' hnone hcallbacks hops =>
    obtain ⟨ws, hws, rfl⟩ := hops
    have hstay : c.connectDestroyed = c := by rw [connectDestroyed, if_neg (by simp [hs'])]
    rw [hstay]
    refine ⟨hs', by rw [hnone]; rfl, removed_of_left ⟨ws, hws, ?_⟩,
      fun late hlate => (callbacks_late hs' hnone hlate).trans hcallbacks⟩
    simp [updates, hs']

/-- A life ends well exactly if the connection is up whenever it is closed, and no shutdown is
under way at the end. -/
theorem torn_down_iff (highWaterMark : Nat) (hcb wcb : Bool) (files : Int → Bytes)
    (es : List Event) (hes : ∀ e ∈ es, e.isLife = true) :
    let c := run step (established highWaterMark hcb wcb files) es
    TornDown c.connectDestroyed (channelOps highWaterMark hcb wcb files es) ↔
      Meets ClosesUp step (established highWaterMark hcb wcb files) es ∧
        c.state_ ≠ .kDisconnecting := by
  intro c
  constructor
  · intro h
    refine ⟨(meets_of_falls hes).2 ?_, ?_⟩
    · have hcb : callbacks c.connectDestroyed.trace = [true, false] :=
        h.callbacks [] (by simp)
      have honce : c.connectDestroyed.falls = 1 := by simp [falls, hcb, Up, h.state_]
      rw [falls_connectDestroyed] at honce
      exact honce.le
    · intro hs
      have hstay := h.state_
      rw [connectDestroyed, if_neg (by simp [hs]), hs] at hstay
      cases hstay
  · rintro ⟨hok, hs⟩
    have hlife : Life c ([.enableReading] ++
        collect updates step (established highWaterMark hcb wcb files) es) :=
      run_ledger_from updates (I := Life) (fun _ _ _ h hok => h.step hok.1 hok.2)
        (life_established highWaterMark hcb wcb files) ((meets_of_forall hes).and hok)
    rw [channelOps_eq]
    exact hlife.tornDown hs

/-- The peer closes while a message is still on its way out. -/
theorem torn_down_pending :
    let es : List Event := [.send (ascii "hello") (.ok 2), .handleRead (.ok [])]
    TornDown (run step (established 64 false false fun _ => []) es).connectDestroyed
      (channelOps 64 false false (fun _ => []) es) :=
  (torn_down_iff 64 false false (fun _ => []) _ (by decide)).mpr (by decide +kernel)

/-- The server goes away after a `shutdown` that the peer has not answered. -/
theorem torn_down_fails :
    ¬ ∀ es : List Event, (∀ e ∈ es, e.isLife = true) →
      TornDown (run step (established 64 false false fun _ => []) es).connectDestroyed
        (channelOps 64 false false (fun _ => []) es) := by
  intro hall
  have hstate := (hall [.shutdown] (by decide)).state_
  revert hstate
  decide +kernel

end TcpConnection

end Mymuduo
