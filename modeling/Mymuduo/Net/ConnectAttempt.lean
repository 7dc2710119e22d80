import Mymuduo.Net.Connector

/-!
# One attempt at a time

What `startInLoop`, `connecting` and `resetChannel` take for granted, the first two in an assertion:
that no attempt to connect is under way, and that `channel_` is empty, or no longer registered, when
it is assigned. `start` and `stop` do not see to it. `AttemptOk` asks of a `start` that nothing is
under way, in the queue or in a timer, that could come to another attempt, a timer aside whose
`cancel` is in the queue; and of a retry timer that it overtakes neither its `cancel`, unless
nothing else is under way, nor the `resetChannel` of the attempt before.

* `Single.step`: such steps keep one attempt at a time.
* `one_attempt`: and so does every run of them.
* `one_attempt_fails`: a `stop` and a `start` in another thread, one right after the other.
-/

namespace Mymuduo

open Transition

/-- What the step took for granted was so. -/
def ConnectorEffect.Checked : ConnectorEffect → Prop
  | .started state => state = .kDisconnected
  | .connecting channel => channel = none
  | .destroyed channel => channel.registered = false
  | _ => True

/-- The function is on its way to `connect`. -/
def ConnectorPc.entering : ConnectorPc → Bool
  | .restarting | .starting | .connecting => true
  | _ => false

/-- The state in which the connector is there. -/
def ConnectorPc.state : ConnectorPc → Option ConnectorState
  | .restarting | .starting | .connecting | .delaying => some .kDisconnected
  | .handingOver _ => some .kConnected
  | _ => none

theorem ConnectorPc.ne_idle_of_entering {pc : ConnectorPc} (h : pc.entering = true) :
    pc ≠ .idle := by
  rintro rfl
  cases h

namespace Connector

variable {τ : Type*}

/-- In a function of the connector, or connecting, or connected. -/
def busy (s : Connector τ) : Bool := s.state_ ≠ .kDisconnected || s.pc ≠ .idle

/-- What leads to an attempt, with these timers. -/
def sources (s : Connector τ) (timers : List RetryTimer) : Nat :=
  s.starting.length + s.pendingFunctors_.count .startInLoop + timers.length + s.expired.length

/-- The retry timers that no `cancel` in the queue is for. -/
def awaited (s : Connector τ) : List RetryTimer :=
  s.timers.filter fun timer => .cancel (some timer.sequence) ∉ s.pendingFunctors_

/-- The attempts that are under way, or to which something leads. -/
def attempts (s : Connector τ) : Nat := s.sources s.awaited + s.busy.toNat

/-- The channel waits for its event. -/
def live (s : Connector τ) : Bool := s.state_ = .kConnecting && s.pc = .idle

/-- The channel, and how many `resetChannel`s are queued for it. -/
inductive ChannelOk : Bool → Option ConnectorChannel → Nat → Prop
  | empty : ChannelOk false none 0
  | live (fd : Nat) : ChannelOk true (some ⟨fd, true⟩) 0
  | removed (fd : Nat) : ChannelOk false (some ⟨fd, false⟩) 1

structure Single (s : Connector τ) : Prop where
  attempts : s.attempts ≤ 1
  channel : ChannelOk s.live s.channel_ (s.pendingFunctors_.count .resetChannel)
  /-- A `resetChannel` in the queue is called before the `startInLoop` there. -/
  order : s.pendingFunctors_.Pairwise fun f g => f = .startInLoop → g ≠ .resetChannel
  own : s.loopThread ∈ s.starting ∨ s.pc.entering = true → .resetChannel ∉ s.pendingFunctors_
  state : ∀ state, s.pc.state = some state → s.state_ = state
  sequences : s.timers.Pairwise fun timer timer' => timer.sequence ≠ timer'.sequence
  next : ∀ timer ∈ s.timers, timer.sequence < s.nextSequence
  handedOver : ∀ n, s.handedOver = some n → s.state_ = .kConnected ∧ s.pc = .idle ∧
    .resetChannel ∉ s.pendingFunctors_.drop n
  checked : ∀ e ∈ s.trace, e.Checked

theorem single_new (loopThread : τ) : Single (new loopThread) where
  attempts := Nat.zero_le _
  channel := .empty
  order := .nil
  own _ := List.not_mem_nil
  state := nofun
  sequences := .nil
  next := nofun
  handedOver := nofun
  checked := nofun

/-! ## Counting -/

theorem busy_eq_false {s : Connector τ} :
    s.busy = false ↔ s.state_ = .kDisconnected ∧ s.pc = .idle := by
  simp [busy]

theorem busy_of_pc {s : Connector τ} (hpc : s.pc ≠ .idle) : s.busy = true := by
  simp [busy, hpc]

theorem live_of_state {s : Connector τ} (hstate : s.state_ ≠ .kConnecting) : s.live = false := by
  simp [live, hstate]

theorem live_of_pc {s : Connector τ} (hpc : s.pc ≠ .idle) : s.live = false := by
  simp [live, hpc]

theorem sources_eq_zero {s : Connector τ} {timers : List RetryTimer} (h : s.sources timers = 0) :
    s.starting = [] ∧ s.pendingFunctors_.count .startInLoop = 0 ∧ timers = [] ∧
      s.expired = [] := by
  simp only [sources, Nat.add_eq_zero_iff, List.length_eq_zero_iff] at h
  obtain ⟨⟨⟨hstarting, hqueue⟩, htimers⟩, hexpired⟩ := h
  exact ⟨hstarting, hqueue, htimers, hexpired⟩

/-- Whatever the connector itself is doing is the only attempt, if nothing else leads to one. -/
theorem attempts_le_one {s : Connector τ} {timers : List RetryTimer} (h : s.sources timers = 0) :
    s.sources timers + s.busy.toNat ≤ 1 := by
  rw [h, Nat.zero_add]
  exact Bool.toNat_le _

/-- What is busy is the only attempt. -/
theorem sources_of_busy {s : Connector τ} {timers : List RetryTimer}
    (hattempts : s.sources timers + s.busy.toNat ≤ 1) (hbusy : s.busy = true) :
    s.sources timers = 0 := by
  rw [hbusy] at hattempts
  exact Nat.le_zero.mp (Nat.le_of_succ_le_succ hattempts)

theorem sources_queueInLoop (s : Connector τ) (f : ConnectorFunctor) (timers : List RetryTimer) :
    (s.queueInLoop f).sources timers =
      s.sources timers + if f = .startInLoop then 1 else 0 := by
  simp only [sources, Connector.queueInLoop, List.count_append, List.count_singleton, beq_iff_eq]
  omega

/-- A functor that is taken out of the queue leaves no more than there was. -/
theorem sources_pop {s : Connector τ} {f : ConnectorFunctor} {functors : List ConnectorFunctor}
    (hqueue : s.pendingFunctors_ = f :: functors) (handedOver : Option Nat)
    (channel : Option ConnectorChannel) (timers : List RetryTimer) :
    ({ s with
      pendingFunctors_ := functors
      handedOver := handedOver
      channel_ := channel } : Connector τ).sources timers +
        (if f = .startInLoop then 1 else 0) = s.sources timers := by
  simp only [sources, hqueue, List.count_cons, beq_iff_eq]
  omega

theorem sources_mono (s : Connector τ) {timers timers' : List RetryTimer}
    (h : timers.length ≤ timers'.length) : s.sources timers ≤ s.sources timers' := by
  unfold sources
  exact Nat.add_le_add_right (Nat.add_le_add_left h _) _

/-- The attempt that a timer stands for is the only one. -/
theorem sources_expired {s : Connector τ} {timers : List RetryTimer}
    (hattempts : s.sources timers + s.busy.toNat ≤ 1) {timer : RetryTimer}
    {expired : List RetryTimer} (hexpired : s.expired = timer :: expired) :
    ({ s with expired := expired } : Connector τ).sources timers = 0 ∧ s.busy = false := by
  simp only [sources, hexpired, List.length_cons] at hattempts ⊢
  refine ⟨by omega, Bool.toNat_eq_zero.mp (by omega)⟩

/-- The attempt that a `startInLoop` in the queue stands for is the only one. -/
theorem sources_startFunctor {s : Connector τ} {timers : List RetryTimer}
    (hattempts : s.sources timers + s.busy.toNat ≤ 1) {functors : List ConnectorFunctor}
    (hqueue : s.pendingFunctors_ = .startInLoop :: functors) (handedOver : Option Nat) :
    ({ s with pendingFunctors_ := functors, handedOver := handedOver } : Connector τ).sources
      timers = 0 ∧ s.busy = false := by
  have hpop := sources_pop hqueue handedOver s.channel_ timers
  rw [if_pos rfl] at hpop
  rw [← hpop] at hattempts
  exact ⟨by omega, Bool.toNat_eq_zero.mp (by omega)⟩

/-- What is queued may be a `cancel`, but makes no timer one that is awaited. -/
theorem length_awaited_queueInLoop (s : Connector τ) (f : ConnectorFunctor) :
    (s.queueInLoop f).awaited.length ≤ s.awaited.length := by
  refine (List.monotone_filter_right s.timers fun timer hawaited => ?_).length_le
  simp only [Connector.queueInLoop, List.mem_append, not_or, decide_eq_true_eq] at hawaited ⊢
  exact hawaited.1

theorem attempts_queueInLoop (s : Connector τ) (f : ConnectorFunctor) :
    (s.queueInLoop f).attempts ≤ s.attempts + if f = .startInLoop then 1 else 0 := by
  have hbusy : (s.queueInLoop f).busy = s.busy := rfl
  have hle := s.sources_mono (length_awaited_queueInLoop s f)
  rw [attempts, attempts, hbusy, sources_queueInLoop]
  omega

/-- A functor other than `cancel` leaves the timers awaited that are. -/
theorem awaited_pop {s : Connector τ} {f : ConnectorFunctor} {functors : List ConnectorFunctor}
    (hqueue : s.pendingFunctors_ = f :: functors) (hf : ∀ timerId, f ≠ .cancel timerId)
    (handedOver : Option Nat) (channel : Option ConnectorChannel) :
    ({ s with
      pendingFunctors_ := functors
      handedOver := handedOver
      channel_ := channel } : Connector τ).awaited = s.awaited := by
  refine List.filter_congr fun timer _ => ?_
  simp [hqueue, (hf _).symm]

/-- A `cancel` removes those that it was for. -/
theorem awaited_cancel {s : Connector τ} {timerId : Option Nat} {functors : List ConnectorFunctor}
    (hqueue : s.pendingFunctors_ = .cancel timerId :: functors) (handedOver : Option Nat) :
    (({ s with
      pendingFunctors_ := functors
      handedOver := handedOver } : Connector τ).cancelInLoop timerId).awaited = s.awaited := by
  change ((s.timers.filter fun timer => some timer.sequence ≠ timerId).filter fun timer =>
    ConnectorFunctor.cancel (some timer.sequence) ∉ functors) = s.awaited
  rw [awaited, List.filter_filter, hqueue]
  refine List.filter_congr fun timer _ => ?_
  simp [Bool.and_comm]

theorem length_awaited_cancelInLoop (s : Connector τ) (timerId : Option Nat) :
    (s.cancelInLoop timerId).awaited.length ≤ s.awaited.length := by
  unfold awaited cancelInLoop
  rw [List.filter_comm]
  exact List.length_filter_le _ _

/-- One timer has a number. -/
theorem length_sequence_le {timers : List RetryTimer}
    (h : timers.Pairwise fun timer timer' => timer.sequence ≠ timer'.sequence) (sequence : Nat) :
    (timers.filter fun timer => timer.sequence = sequence).length ≤ 1 := by
  have hfilter := h.filter fun timer => decide (timer.sequence = sequence)
  have hall : ∀ timer ∈ timers.filter fun timer => timer.sequence = sequence,
      timer.sequence = sequence := fun timer ht => of_decide_eq_true (List.mem_filter.mp ht).2
  generalize timers.filter (fun timer => timer.sequence = sequence) = l at hfilter hall
  match l with
  | [] => exact Nat.zero_le 1
  | [_] => exact Nat.le_refl 1
  | a :: b :: l =>
    have hne := (List.pairwise_cons.mp hfilter).1 b List.mem_cons_self
    exact absurd ((hall a List.mem_cons_self).trans
      (hall b (List.mem_cons_of_mem a List.mem_cons_self)).symm) hne

/-- A timer that expires counts as it did, if no `cancel` in the queue is for it. -/
theorem attempts_getExpired {s : Connector τ} {sequence : Nat}
    (hnot : .cancel (some sequence) ∉ s.pendingFunctors_) :
    (s.getExpired sequence).attempts = s.attempts := by
  have hsplit := List.length_eq_length_filter_add (l := s.awaited)
    (fun timer : RetryTimer => timer.sequence = sequence)
  have hbusy : (s.getExpired sequence).busy = s.busy := rfl
  have hstays : (s.getExpired sequence).awaited =
      s.awaited.filter fun timer => timer.sequence ≠ sequence := by
    unfold awaited Connector.getExpired
    rw [List.filter_comm]
  -- the timers that go are awaited, as no `cancel` is for them
  have hgoes : (s.timers.filter fun timer => timer.sequence = sequence) =
      s.awaited.filter fun timer => timer.sequence = sequence := by
    unfold awaited
    rw [List.filter_filter]
    refine List.filter_congr fun timer _ => ?_
    by_cases heq : timer.sequence = sequence
    · simp [heq, hnot]
    · simp [heq]
  rw [attempts, attempts, hbusy, hstays]
  simp only [sources, Connector.getExpired, List.length_append, hgoes, hsplit, decide_not, ne_eq]
  omega

/-- And at most by one more, if there is. -/
theorem attempts_getExpired_le {s : Connector τ} (h : s.timers.Pairwise fun timer timer' =>
    timer.sequence ≠ timer'.sequence) (sequence : Nat) :
    (s.getExpired sequence).attempts ≤ s.attempts + 1 := by
  have hbusy : (s.getExpired sequence).busy = s.busy := rfl
  have hone := length_sequence_le h sequence
  have hstays : (s.getExpired sequence).awaited.length ≤ s.awaited.length := by
    unfold awaited Connector.getExpired
    rw [List.filter_comm]
    exact List.length_filter_le _ _
  rw [attempts, attempts, hbusy]
  simp only [sources]
  simp only [Connector.getExpired, List.length_append] at hstays ⊢
  omega

/-! ## The functions -/

theorem Single.rest {s : Connector τ} (h : Single s) (hbusy : s.busy = true) :
    s.sources s.awaited = 0 := sources_of_busy h.attempts hbusy

theorem Single.emit {s : Connector τ} (h : Single s) {e : ConnectorEffect} (he : e.Checked) :
    Single (s.emit e) := by
  refine { h with checked := fun e' he' => ?_ }
  rcases List.mem_append.mp he' with he' | he'
  · exact h.checked e' he'
  · rwa [List.mem_singleton.mp he']

/-- A functor other than `resetChannel` is queued. -/
theorem Single.queueInLoop {s : Connector τ} (h : Single s) {f : ConnectorFunctor}
    (hf : f ≠ .resetChannel) (hattempts : (s.queueInLoop f).attempts ≤ 1) :
    Single (s.queueInLoop f) := by
  have hpush : ∀ l : List ConnectorFunctor, .resetChannel ∉ l → .resetChannel ∉ l ++ [f] :=
    fun l hl hmem => by
      rcases List.mem_append.mp hmem with hmem | hmem
      · exact hl hmem
      · exact hf (List.mem_singleton.mp hmem).symm
  refine { h with
    attempts := hattempts
    channel := ?_
    order := ?_
    own := fun hown => hpush _ (h.own hown)
    handedOver := fun n hn => ?_ }
  · have hcount : (s.queueInLoop f).pendingFunctors_.count .resetChannel =
        s.pendingFunctors_.count .resetChannel := by
      rw [Connector.queueInLoop, List.count_append, List.count_singleton,
        if_neg (by simpa using hf), Nat.add_zero]
    rw [hcount]
    exact h.channel
  · refine List.pairwise_append.mpr ⟨h.order, List.pairwise_singleton _ _, ?_⟩
    intro g _ f' hf' _
    rwa [List.mem_singleton.mp hf']
  · obtain ⟨hstate, hpc, hnot⟩ := h.handedOver n hn
    refine ⟨hstate, hpc, fun hmem => ?_⟩
    rw [Connector.queueInLoop, List.drop_append] at hmem
    rcases List.mem_append.mp hmem with hmem | hmem
    · exact hnot hmem
    · exact hf (List.mem_singleton.mp (List.mem_of_mem_drop hmem)).symm

/-- With nothing under way a connection is not handed over, either. -/
theorem Single.handedOver_eq_none {s : Connector τ} (h : Single s)
    (hnot : ¬ (s.state_ = .kConnected ∧ s.pc = .idle)) : s.handedOver = none := by
  cases hn : s.handedOver with
  | none => rfl
  | some n =>
    obtain ⟨hstate, hpc, -⟩ := h.handedOver n hn
    exact absurd ⟨hstate, hpc⟩ hnot

theorem ChannelOk.eq_none {channel : Option ConnectorChannel} (h : ChannelOk false channel 0) :
    channel = none := by
  cases h
  rfl

theorem ChannelOk.eq_zero {live : Bool} {n : Nat} (h : ChannelOk live none n) : n = 0 := by
  cases h
  rfl

theorem ChannelOk.eq_live {channel : Option ConnectorChannel} {n : Nat}
    (h : ChannelOk true channel n) : n = 0 ∧ ∃ fd, channel = some ⟨fd, true⟩ := by
  cases h with
  | live fd => exact ⟨rfl, fd, rfl⟩

theorem ChannelOk.eq_removed {live : Bool} {channel : Option ConnectorChannel} {n : Nat}
    (h : ChannelOk live channel (n + 1)) :
    live = false ∧ n = 0 ∧ ∃ fd, channel = some ⟨fd, false⟩ := by
  cases h with
  | removed fd => exact ⟨rfl, rfl, fd, rfl⟩

/-- Between functions that are not about a channel that waits, it stays as it is. -/
theorem Single.sameChannel {s s' : Connector τ} (h : Single s) (hlive : s.live = false)
    (hlive' : s'.live = false) (hchannel : s'.channel_ = s.channel_)
    (hqueue : s'.pendingFunctors_ = s.pendingFunctors_) :
    ChannelOk s'.live s'.channel_ (s'.pendingFunctors_.count .resetChannel) := by
  rw [hlive', hchannel, hqueue, ← hlive]
  exact h.channel

/-- The loop gets into a function of the connector, or further in it. -/
theorem Single.goTo {s : Connector τ} (h : Single s) (hsources : s.sources s.awaited = 0)
    (hlive : s.live = false) (hnone : s.handedOver = none) {pc : ConnectorPc} (hpc : pc ≠ .idle)
    (hreset : pc.entering = true → .resetChannel ∉ s.pendingFunctors_)
    (hstate : ∀ state, pc.state = some state → s.state_ = state) : Single { s with pc := pc } :=
  { h with
    attempts := attempts_le_one hsources
    channel := h.sameChannel hlive (live_of_pc hpc) rfl rfl
    own := fun hown => hown.elim (fun hown => h.own (.inl hown)) hreset
    state := hstate
    handedOver := fun n hn => by cases hn.symm.trans hnone }

/-- A function of the connector comes to its end. -/
theorem Single.idle {s : Connector τ} (h : Single s) (hpc : s.pc ≠ .idle) (state : ConnectorState)
    (hstate : state ≠ .kConnecting) : Single { s with state_ := state, pc := .idle } := by
  have hsources := h.rest (busy_of_pc hpc)
  have hnone := h.handedOver_eq_none fun hboth => hpc hboth.2
  exact { h with
    attempts := attempts_le_one hsources
    channel := h.sameChannel (live_of_pc hpc) (live_of_state hstate) rfl rfl
    own := fun hown => hown.elim (fun hown => h.own (.inl hown)) nofun
    state := nofun
    handedOver := fun n hn => by cases hn.symm.trans hnone }

theorem Single.startInLoop {s : Connector τ} (h : Single s) (hsources : s.sources s.awaited = 0)
    (hbusy : s.busy = false)
    (hreset : s.connect_ = true → .resetChannel ∉ s.pendingFunctors_) : Single s.startInLoop := by
  obtain ⟨hstate, hpc⟩ := busy_eq_false.mp hbusy
  have hnone := h.handedOver_eq_none (by simp [hstate])
  have hstarted := h.emit (e := .started s.state_) hstate
  rw [Connector.startInLoop]
  split
  · next hconnect =>
    refine hstarted.goTo hsources (live_of_state ?_) hnone nofun (fun _ => hreset hconnect) ?_
    · simp [Connector.emit, hstate]
    · rintro _ ⟨⟩
      exact hstate
  · exact hstarted

/-- A new channel is registered. -/
theorem Single.connecting {s : Connector τ} (h : Single s) (hsources : s.sources s.awaited = 0)
    (hbusy : s.busy = false) (hreset : .resetChannel ∉ s.pendingFunctors_) (sockfd : Nat) :
    Single (s.connecting sockfd) := by
  obtain ⟨hstate, hpc⟩ := busy_eq_false.mp hbusy
  have hcount := List.count_eq_zero.mpr hreset
  have hchannel := h.channel
  rw [hcount, live_of_state (by simp [hstate])] at hchannel
  -- `channel_` is empty, since the `resetChannel` of the last channel was called
  have hempty := hchannel.eq_none
  have hnone := h.handedOver_eq_none (by simp [hstate])
  have hconnecting : s.connecting sockfd = { { s with state_ := .kConnecting }.emit
      (.connecting none) with channel_ := some ⟨sockfd, true⟩ } := by
    simp [Connector.connecting, destroyChannel, Connector.emit, hempty]
  rw [hconnecting]
  exact { h with
    attempts := attempts_le_one hsources
    channel := by simpa [live, Connector.emit, hpc, hcount] using ChannelOk.live sockfd
    own := fun _ => hreset
    state := by simp [Connector.emit, hpc, ConnectorPc.state]
    handedOver := fun n hn => by cases hn.symm.trans hnone
    checked := (h.emit (e := .connecting none) rfl).checked }

theorem Single.connect {s : Connector τ} (h : Single s) (hsources : s.sources s.awaited = 0)
    (hbusy : s.busy = false) (hreset : .resetChannel ∉ s.pendingFunctors_)
    (savedErrno : ConnectErrno) : Single (s.connect savedErrno) := by
  obtain ⟨hstate, hpc⟩ := busy_eq_false.mp hbusy
  have hsocket : Single { s with nextFd := s.nextFd + 1 } := { h with }
  have hconnect := hsocket.emit (e := .connect s.nextFd) trivial
  cases savedErrno with
  | success | EINPROGRESS | EINTR | EISCONN =>
    exact hconnect.connecting hsources hbusy hreset s.nextFd
  | EAGAIN | EADDRINUSE | EADDRNOTAVAIL | ECONNREFUSED | ENETUNREACH =>
    have hnone := h.handedOver_eq_none (by simp [hstate])
    refine hconnect.goTo hsources (live_of_state ?_) hnone nofun nofun nofun
    simp [Connector.emit, hstate]
  | _ => exact hconnect.emit trivial

/-- The attempt goes on that the loop is on its way to. -/
theorem Single.callConnect {s : Connector τ} (h : Single s) (savedErrno : ConnectErrno) :
    Single (s.callConnect savedErrno) := by
  unfold Connector.callConnect
  split
  · next hpc =>
    have hstate : s.state_ = .kDisconnected := h.state _ (by rw [hpc]; rfl)
    have hreset := h.own (.inr (by rw [hpc]; rfl))
    have hsources := h.rest (busy_of_pc (by simp [hpc]))
    have hidle : Single { s with pc := .idle } :=
      h.idle (by simp [hpc]) s.state_ (by simp [hstate])
    exact hidle.connect hsources (busy_eq_false.mpr ⟨hstate, rfl⟩) hreset savedErrno
  · exact h

/-- A channel that waits for its event is taken out of the poller. -/
theorem Single.removed {s : Connector τ} (h : Single s) (hlive : s.live = true)
    (state : ConnectorState) {next : Nat → ConnectorPc}
    (hnext : ∀ fd, next fd = .retrying fd ∨ next fd = .connected fd) :
    Single ({ s with state_ := state }.removeAndResetChannel next) := by
  have hlive' : s.state_ = .kConnecting ∧ s.pc = .idle := by simpa [live] using hlive
  have hsources := h.rest (by simp [busy, hlive'.1])
  have hnone : s.handedOver = none := h.handedOver_eq_none (by simp [hlive'.1])
  obtain ⟨hstarting, hqueue, -, -⟩ := sources_eq_zero hsources
  have hchannel := h.channel
  rw [hlive] at hchannel
  obtain ⟨hcount, fd, hfd⟩ := hchannel.eq_live
  have hnot : next fd ≠ .idle ∧ (next fd).entering = false ∧ (next fd).state = none := by
    rcases hnext fd with heq | heq <;> simp [heq, ConnectorPc.entering, ConnectorPc.state]
  simp only [removeAndResetChannel, hfd]
  -- `resetChannel` is queued behind no `startInLoop`: there is none while a channel waits
  refine { h with
    attempts := ?_
    channel := ?_
    order := ?_
    own := ?_
    state := fun state hstate => by cases hstate.symm.trans hnot.2.2
    handedOver := fun n hn => by cases hn.symm.trans hnone }
  · refine Nat.le_trans (attempts_queueInLoop _ _) ?_
    exact attempts_le_one hsources
  · simpa [Connector.queueInLoop, live, hnot.1, hcount] using ChannelOk.removed fd
  · refine List.pairwise_append.mpr ⟨h.order, List.pairwise_singleton _ _, ?_⟩
    intro f hf g _ hstart
    exact absurd (hstart ▸ hf) (List.count_eq_zero.mp hqueue)
  · rintro (hown | hown)
    · exact absurd (hstarting ▸ hown) List.not_mem_nil
    · cases hown.symm.trans hnot.2.1

theorem Single.retry {s : Connector τ} (h : Single s) {sockfd : Nat}
    (hpc : s.pc = .retrying sockfd) : Single (s.retry sockfd) := by
  have hsources := h.rest (busy_of_pc (by simp [hpc]))
  have hidle : Single { s with state_ := .kDisconnected, pc := .idle } :=
    h.idle (by simp [hpc]) .kDisconnected nofun
  have hclosed := hidle.emit (e := .closed sockfd) trivial
  rw [Connector.retry]
  split
  · refine hclosed.goTo hsources (live_of_state nofun) ?_ nofun nofun ?_
    · exact h.handedOver_eq_none (by simp [hpc])
    · rintro _ ⟨⟩
      rfl
  · exact hclosed

/-- The only attempt is the timer now. -/
theorem Single.runAfter {s : Connector τ} (h : Single s) (hpc : s.pc = .delaying) :
    Single s.runAfter := by
  have hstate : s.state_ = .kDisconnected := h.state _ (by rw [hpc]; rfl)
  have hsources := h.rest (busy_of_pc (by simp [hpc]))
  obtain ⟨hstarting, hqueue, hawaited, hexpired⟩ := sources_eq_zero hsources
  have hidle : Single { s with pc := .idle } :=
    h.idle (by simp [hpc]) s.state_ (by simp [hstate])
  refine { hidle with attempts := ?_, sequences := ?_, next := fun timer ht => ?_ }
  · have hone : s.runAfter.awaited.length ≤ 1 := by
      unfold awaited at hawaited
      rw [awaited, Connector.runAfter, List.filter_append, hawaited]
      exact List.length_filter_le _ _
    have hbusy : s.runAfter.busy = false := busy_eq_false.mpr ⟨hstate, rfl⟩
    rw [Connector.attempts, hbusy]
    simpa [sources, Connector.runAfter, hstarting, hqueue, hexpired] using hone
  · refine List.pairwise_append.mpr ⟨h.sequences, List.pairwise_singleton _ _, ?_⟩
    intro timer ht timer' ht'
    rw [List.mem_singleton.mp ht']
    exact Nat.ne_of_lt (h.next timer ht)
  · rcases List.mem_append.mp ht with ht | ht
    · exact Nat.lt_succ_of_lt (h.next timer ht)
    · rw [List.mem_singleton.mp ht]
      exact Nat.lt_succ_self _

theorem Single.connected {s : Connector τ} (h : Single s) {sockfd : Nat}
    (hpc : s.pc = .connected sockfd) : Single (s.connected sockfd) := by
  have hsources := h.rest (busy_of_pc (by simp [hpc]))
  have hconnected : Single { s with state_ := .kConnected, pc := .idle } :=
    h.idle (by simp [hpc]) .kConnected nofun
  rw [Connector.connected]
  split
  · refine hconnected.goTo hsources (live_of_state nofun) ?_ nofun nofun ?_
    · exact h.handedOver_eq_none (by simp [hpc])
    · rintro _ ⟨⟩
      rfl
  · exact hconnected.emit trivial

theorem Single.handOver {s : Connector τ} (h : Single s) {sockfd : Nat}
    (hpc : s.pc = .handingOver sockfd) : Single (s.handOver sockfd) := by
  have hstate : s.state_ = .kConnected := h.state _ (by rw [hpc]; rfl)
  have hidle : Single { s with pc := .idle } :=
    h.idle (by simp [hpc]) s.state_ (by simp [hstate])
  have hhanded : Single { s with pc := .idle, handedOver := some s.pendingFunctors_.length } := by
    refine { hidle with handedOver := fun n hn => ?_ }
    obtain rfl : s.pendingFunctors_.length = n := by simpa using hn
    exact ⟨hstate, rfl, by simp⟩
  exact hhanded.emit trivial

/-- The attempt of a connection that has ended is over, and its channel is gone. -/
theorem Single.restart {s : Connector τ} (h : Single s) (hended : s.handedOver = some 0) :
    Single s.restart := by
  obtain ⟨hstate, hpc, hreset⟩ := h.handedOver 0 hended
  have hsources := h.rest (by simp [busy, hstate])
  exact { h with
    attempts := attempts_le_one hsources
    channel := h.sameChannel (live_of_state (by simp [hstate])) (live_of_pc nofun) rfl rfl
    own := fun _ => hreset
    state := by rintro _ ⟨⟩; rfl
    handedOver := nofun }

theorem Single.proceed {s : Connector τ} (h : Single s) : Single s.proceed := by
  unfold Connector.proceed
  split
  · exact h
  · exact h
  · next hpc =>
    have hset : Single { s with connect_ := true } := { h with }
    refine hset.goTo (h.rest (busy_of_pc (by simp [hpc]))) (live_of_pc (by simp [hpc])) ?_ nofun
      (fun _ => h.own (.inr (by rw [hpc]; rfl))) ?_
    · exact h.handedOver_eq_none (by simp [hpc])
    · rintro _ ⟨⟩
      exact h.state _ (by rw [hpc]; rfl)
  · next hpc =>
    have hstate : s.state_ = .kDisconnected := h.state _ (by rw [hpc]; rfl)
    have hidle : Single { s with pc := .idle } :=
      h.idle (by simp [hpc]) s.state_ (by simp [hstate])
    exact hidle.startInLoop (h.rest (busy_of_pc (by simp [hpc])))
      (busy_eq_false.mpr ⟨hstate, rfl⟩) fun _ => h.own (.inr (by rw [hpc]; rfl))
  · next sockfd hpc => exact h.retry hpc
  · next hpc => exact h.runAfter hpc
  · next sockfd hpc => exact h.connected hpc
  · next sockfd hpc => exact h.handOver hpc

/-! ## The functors and the timers -/

/-- The functor at the front is taken out of the queue, and the channel is what it leaves. -/
theorem Single.pop {s : Connector τ} (h : Single s) {f : ConnectorFunctor}
    {functors : List ConnectorFunctor} (hqueue : s.pendingFunctors_ = f :: functors)
    {s' : Connector τ} (hs' : s' = { s with
      pendingFunctors_ := functors
      handedOver := s.handedOver.map fun n => n - 1
      timers := s'.timers
      channel_ := s'.channel_ })
    (htimers : s'.timers.Sublist s.timers) (hattempts : s'.attempts ≤ 1)
    (hchannel : ChannelOk s.live s'.channel_ (functors.count .resetChannel)) : Single s' := by
  have horder := h.order
  have hown := h.own
  have hhanded := h.handedOver
  rw [hqueue] at horder hown
  simp only [hqueue] at hhanded
  rw [hs'] at hattempts ⊢
  refine { h with
    attempts := hattempts
    channel := hchannel
    order := (List.pairwise_cons.mp horder).2
    own := fun hstart hmem => hown hstart (List.mem_cons_of_mem _ hmem)
    sequences := h.sequences.sublist htimers
    next := fun timer ht => h.next timer (htimers.subset ht)
    handedOver := fun n hn => ?_ }
  -- the countdown to the end of the connection takes one functor with each step
  obtain ⟨m, hm, hmn⟩ := Option.map_eq_some_iff.mp hn
  obtain ⟨hstate, hpc, hnot⟩ := hhanded m hm
  refine ⟨hstate, hpc, ?_⟩
  cases m with
  | zero =>
    obtain rfl : n = 0 := by simpa using hmn.symm
    exact fun hmem => hnot (List.mem_cons_of_mem _ hmem)
  | succ m =>
    obtain rfl : m = n := by simpa using hmn
    exact hnot

/-- A functor that is no `cancel` leaves the timers alone. -/
theorem Single.pop_functor {s : Connector τ} (h : Single s) {f : ConnectorFunctor}
    {functors : List ConnectorFunctor} (hqueue : s.pendingFunctors_ = f :: functors)
    (hf : ∀ timerId, f ≠ .cancel timerId) (channel : Option ConnectorChannel)
    (hchannel : ChannelOk s.live channel (functors.count .resetChannel)) :
    Single { s with
      pendingFunctors_ := functors
      handedOver := s.handedOver.map fun n => n - 1
      channel_ := channel } := by
  refine h.pop hqueue rfl (List.Sublist.refl _) ?_ hchannel
  have hpop := sources_pop hqueue (s.handedOver.map fun n => n - 1) channel s.awaited
  have hattempts := h.attempts
  rw [Connector.attempts, ← hpop] at hattempts
  rw [Connector.attempts, awaited_pop hqueue hf]
  exact Nat.le_trans (Nat.add_le_add_right (Nat.le_add_right _ _) _) hattempts

/-- A functor other than `resetChannel` leaves the channel as it is. -/
theorem Single.pop_other {s : Connector τ} (h : Single s) {f : ConnectorFunctor}
    {functors : List ConnectorFunctor} (hqueue : s.pendingFunctors_ = f :: functors)
    (hf : f ≠ .resetChannel) (hf' : ∀ timerId, f ≠ .cancel timerId) :
    Single { s with
      pendingFunctors_ := functors
      handedOver := s.handedOver.map fun n => n - 1 } := by
  have hchannel := h.channel
  rw [hqueue, List.count_cons_of_ne hf] at hchannel
  exact h.pop_functor hqueue hf' s.channel_ hchannel

/-- A `resetChannel` finds its channel removed from the poller. -/
theorem Single.resetChannel {s : Connector τ} (h : Single s) {functors : List ConnectorFunctor}
    (hqueue : s.pendingFunctors_ = .resetChannel :: functors) :
    Single ({ s with
      pendingFunctors_ := functors
      handedOver := s.handedOver.map fun n => n - 1 }.resetChannel) := by
  have hchannel := h.channel
  rw [hqueue, List.count_cons_self] at hchannel
  obtain ⟨hlive, hnone, fd, hfd⟩ := hchannel.eq_removed
  have hpop := h.pop_functor hqueue nofun none (by rw [hlive, hnone]; exact .empty)
  simp only [Connector.resetChannel, destroyChannel, hfd]
  exact hpop.emit rfl

theorem Single.startFunctor {s : Connector τ} (h : Single s) {functors : List ConnectorFunctor}
    (hqueue : s.pendingFunctors_ = .startInLoop :: functors) :
    Single ({ s with
      pendingFunctors_ := functors
      handedOver := s.handedOver.map fun n => n - 1 }.startInLoop) := by
  have horder := h.order
  rw [hqueue] at horder
  obtain ⟨hsources, hbusy⟩ := sources_startFunctor h.attempts hqueue
    (s.handedOver.map fun n => n - 1)
  rw [← awaited_pop hqueue nofun (s.handedOver.map fun n => n - 1) s.channel_] at hsources
  refine (h.pop_other hqueue nofun nofun).startInLoop hsources hbusy fun _ hmem => ?_
  exact (List.pairwise_cons.mp horder).1 _ hmem rfl rfl

theorem Single.cancelFunctor {s : Connector τ} (h : Single s) {timerId : Option Nat}
    {functors : List ConnectorFunctor}
    (hqueue : s.pendingFunctors_ = .cancel timerId :: functors) :
    Single ({ s with
      pendingFunctors_ := functors
      handedOver := s.handedOver.map fun n => n - 1 }.cancelInLoop timerId) := by
  have hchannel := h.channel
  rw [hqueue, List.count_cons_of_ne (by simp)] at hchannel
  refine h.pop hqueue rfl List.filter_sublist ?_ hchannel
  have hpop := sources_pop hqueue (s.handedOver.map fun n => n - 1) s.channel_ s.awaited
  have hattempts := h.attempts
  rw [Connector.attempts, ← hpop] at hattempts
  rw [Connector.attempts, awaited_cancel hqueue]
  exact hattempts

theorem Single.cancelInLoop {s : Connector τ} (h : Single s) (timerId : Option Nat) :
    Single (s.cancelInLoop timerId) := by
  refine { h with
    attempts := ?_
    sequences := h.sequences.sublist List.filter_sublist
    next := fun timer ht => h.next timer (List.mem_of_mem_filter ht) }
  have hle := (s.cancelInLoop timerId).sources_mono (length_awaited_cancelInLoop s timerId)
  exact Nat.le_trans (Nat.add_le_add_right hle _) h.attempts

theorem Single.callFunctor {s : Connector τ} (h : Single s) (hpc : s.pc = .idle) :
    Single s.callFunctor := by
  unfold Connector.callFunctor
  split
  · next f functors hqueue =>
    cases f with
    | startInLoop => exact h.startFunctor hqueue
    | stopInLoop =>
      have hpop := h.pop_other hqueue nofun nofun
      simp only [runFunctor, Connector.stopInLoop]
      split
      · next hstate =>
        exact hpop.removed (by simp [live, hpc, hstate]) .kDisconnected fun _ => .inl rfl
      · exact hpop
    | resetChannel => exact h.resetChannel hqueue
    | cancel timerId => exact h.cancelFunctor hqueue
  · exact h

theorem Single.handleWrite {s : Connector τ} (h : Single s) (hpc : s.pc = .idle)
    (err selfConnect : Bool) : Single (s.handleWrite err selfConnect) := by
  unfold Connector.handleWrite
  split
  · next hstate =>
    refine h.removed (by simp [live, hpc, hstate]) s.state_ fun sockfd => ?_
    split
    · exact .inl rfl
    · exact .inr rfl
  · exact h

theorem Single.handleError {s : Connector τ} (h : Single s) (hpc : s.pc = .idle) :
    Single s.handleError := by
  unfold Connector.handleError
  split
  · next hstate => exact h.removed (by simp [live, hpc, hstate]) s.state_ fun _ => .inl rfl
  · exact h

theorem Single.runTimer {s : Connector τ} (h : Single s)
    (hreset : s.connect_ = true → .resetChannel ∉ s.pendingFunctors_) : Single s.runTimer := by
  unfold Connector.runTimer
  split
  · next timer expired hexpired =>
    obtain ⟨hsources, hbusy⟩ := sources_expired h.attempts hexpired
    have hless : Single { s with expired := expired } :=
      { h with attempts := attempts_le_one hsources }
    exact hless.startInLoop hsources hbusy hreset
  · exact h

/-! ## The calls -/

/-- A functor that leads to no attempt is queued. -/
theorem Single.queueOther {s : Connector τ} (h : Single s) {f : ConnectorFunctor}
    (hf : f ≠ .resetChannel) (hf' : f ≠ .startInLoop) : Single (s.queueInLoop f) := by
  refine h.queueInLoop hf (Nat.le_trans (attempts_queueInLoop s f) ?_)
  rw [if_neg hf']
  exact h.attempts

variable [DecidableEq τ]

/-- A `start` finds nothing under way that could come to another attempt, and in the loop not even
the channel of the last one. A retry timer that expires before the `cancel` for it in the queue is
called finds nothing else under way, and one that is run no `resetChannel` in the queue. -/
def AttemptOk (s : Connector τ) : Event τ → Prop
  | .start t => s.mayCall t = true → s.attempts = 0 ∧ (t = s.loopThread → s.channel_ = none)
  | .getExpired sequence => .cancel (some sequence) ∈ s.pendingFunctors_ →
    (∃ timer ∈ s.timers, timer.sequence = sequence) → s.attempts = 0
  | .runTimer => s.connect_ = true → .resetChannel ∉ s.pendingFunctors_
  | _ => True

instance (s : Connector τ) : (e : Event τ) → Decidable (s.AttemptOk e)
  | .start _ => inferInstanceAs (Decidable (_ → _ ∧ (_ → _)))
  | .getExpired _ => inferInstanceAs (Decidable (_ → (∃ _ ∈ _, _) → _))
  | .runTimer => inferInstanceAs (Decidable (_ → _))
  | .runStart _ | .stop _ | .queueStop _ | .cancel _ | .restart | .callFunctor
  | .handleWrite .. | .handleError | .connect _ | .proceed => instDecidableTrue

omit [DecidableEq τ] in
theorem getExpired_of_none {s : Connector τ} {sequence : Nat}
    (hnone : ∀ timer ∈ s.timers, timer.sequence ≠ sequence) :
    s.getExpired sequence = s := by
  have hstays : (s.timers.filter fun timer => timer.sequence ≠ sequence) = s.timers :=
    List.filter_eq_self.mpr fun timer ht => decide_eq_true (hnone timer ht)
  have hgoes : (s.timers.filter fun timer => timer.sequence = sequence) = [] :=
    List.filter_eq_nil_iff.mpr fun timer ht => by simpa using hnone timer ht
  rw [Connector.getExpired, hstays, hgoes, List.append_nil]

theorem Single.getExpired {s : Connector τ} (h : Single s) {sequence : Nat}
    (hok : s.AttemptOk (.getExpired sequence)) : Single (s.getExpired sequence) := by
  by_cases hthere : ∃ timer ∈ s.timers, timer.sequence = sequence
  · refine { h with
      attempts := ?_
      sequences := h.sequences.sublist List.filter_sublist
      next := fun timer ht => h.next timer (List.mem_of_mem_filter ht) }
    -- a timer whose `cancel` is in the queue did not count until now
    by_cases hcancel : .cancel (some sequence) ∈ s.pendingFunctors_
    · have hle := attempts_getExpired_le h.sequences sequence
      rwa [hok hcancel hthere] at hle
    · rw [attempts_getExpired hcancel]
      exact h.attempts
  · rw [getExpired_of_none fun timer ht heq => hthere ⟨timer, ht, heq⟩]
    exact h

theorem Single.start {s : Connector τ} (h : Single s) {t : τ} (hok : s.AttemptOk (.start t)) :
    Single (s.start t) := by
  unfold Connector.start
  split
  · next hmay =>
    obtain ⟨hzero, hempty⟩ := hok hmay
    obtain ⟨hsources, hbusy⟩ := Nat.add_eq_zero_iff.mp hzero
    obtain ⟨-, hpc⟩ := busy_eq_false.mp (Bool.toNat_eq_zero.mp hbusy)
    have hstarting := (sources_eq_zero hsources).1
    -- the `start` itself is the one attempt, since there is no other
    refine { h with attempts := ?_, own := fun hown => ?_ }
    · change (s.starting.length + 1 + s.pendingFunctors_.count .startInLoop + s.awaited.length +
        s.expired.length) + s.busy.toNat ≤ 1
      unfold sources at hsources
      omega
    · rcases hown with hown | hown
      · have hself : t = s.loopThread := by simpa [hstarting, eq_comm] using hown
        have hchannel := h.channel
        rw [hempty hself] at hchannel
        exact List.count_eq_zero.mp hchannel.eq_zero
      · exact absurd hpc (ConnectorPc.ne_idle_of_entering hown)
  · exact h

/-- The attempt that a call of `start` stands for is the only one. -/
theorem sources_starting {s : Connector τ} {timers : List RetryTimer}
    (hattempts : s.sources timers + s.busy.toNat ≤ 1) {t : τ} (hmem : t ∈ s.starting) :
    ({ s with starting := s.starting.erase t } : Connector τ).sources timers = 0 ∧
      s.busy = false := by
  have hlength := List.length_erase_of_mem hmem
  have hpos := List.length_pos_of_mem hmem
  simp only [sources] at hattempts ⊢
  exact ⟨by omega, Bool.toNat_eq_zero.mp (by omega)⟩

theorem Single.runStart {s : Connector τ} (h : Single s) (t : τ) : Single (s.runStart t) := by
  unfold Connector.runStart
  split
  · next hmem =>
    obtain ⟨hsources, hbusy⟩ := sources_starting h.attempts hmem
    have hless : Single { s with starting := s.starting.erase t } :=
      { h with
        attempts := attempts_le_one hsources
        own := fun hown => h.own (hown.imp_left List.mem_of_mem_erase) }
    dsimp only
    -- the loop calls `startInLoop` at once, another thread queues it
    split
    · next hself => exact hless.startInLoop hsources hbusy fun _ => h.own (.inl (hself ▸ hmem))
    · refine hless.queueInLoop nofun (Nat.le_trans (attempts_queueInLoop _ _) ?_)
      have hzero : ({ s with starting := s.starting.erase t } : Connector τ).attempts = 0 :=
        Nat.add_eq_zero_iff.mpr ⟨hsources, Bool.toNat_eq_zero.mpr hbusy⟩
      rw [hzero]
      exact Nat.le_refl 1
  · exact h

theorem Single.stop {s : Connector τ} (h : Single s) (t : τ) : Single (s.stop t) := by
  unfold Connector.stop
  split
  · exact { h with }
  · exact h

theorem Single.queueStop {s : Connector τ} (h : Single s) (t : τ) : Single (s.queueStop t) := by
  unfold Connector.queueStop
  split
  · have hcall : Single { s with
        stopping := s.stopping.erase t
        cancelling := t :: s.cancelling } := { h with }
    exact hcall.queueOther nofun nofun
  · exact h

theorem Single.cancel {s : Connector τ} (h : Single s) (t : τ) : Single (s.cancel t) := by
  unfold Connector.cancel
  split
  · have hcall : Single { s with cancelling := s.cancelling.erase t } := { h with }
    dsimp only
    split
    · exact hcall.cancelInLoop s.timerId_
    · exact hcall.queueOther nofun nofun
  · exact h

theorem idle_of_loopIdle {s : Connector τ} (h : s.loopIdle = true) : s.pc = .idle := by
  simp only [loopIdle, Bool.and_eq_true, decide_eq_true_eq] at h
  exact h.1

theorem Single.step {s : Connector τ} (h : Single s) {e : Event τ} (hok : s.AttemptOk e) :
    Single (s.step e) := by
  cases e with
  | start t => exact h.start hok
  | runStart t => exact h.runStart t
  | stop t => exact h.stop t
  | queueStop t => exact h.queueStop t
  | cancel t => exact h.cancel t
  | restart =>
    rw [Connector.step]
    split
    · next hguard => exact h.restart (by simpa using (Bool.and_eq_true_iff.mp hguard).2)
    · exact h
  | callFunctor =>
    rw [Connector.step]
    split
    · next hidle => exact h.callFunctor (idle_of_loopIdle hidle)
    · exact h
  | handleWrite err selfConnect =>
    rw [Connector.step]
    split
    · next hguard =>
      exact h.handleWrite (idle_of_loopIdle (Bool.and_eq_true_iff.mp hguard).1) err selfConnect
    · exact h
  | handleError =>
    rw [Connector.step]
    split
    · next hguard => exact h.handleError (idle_of_loopIdle (Bool.and_eq_true_iff.mp hguard).1)
    · exact h
  | connect savedErrno => exact h.callConnect savedErrno
  | proceed => exact h.proceed
  | getExpired sequence =>
    rw [Connector.step]
    split
    · exact h.getExpired hok
    · exact h
  | runTimer =>
    rw [Connector.step]
    split
    · exact h.runTimer hok
    · exact h

/-! ## Every run -/

/-- In a run whose `start`s and retry timers are `AttemptOk`, `startInLoop` is only called in the
state `kDisconnected`, `connecting` finds `channel_` empty, and no channel is destroyed that the
poller knows. -/
theorem one_attempt (loopThread : τ) (es : List (Event τ))
    (hok : Meets AttemptOk step (new loopThread) es) :
    ∀ e ∈ (run step (new loopThread) es).trace, e.Checked :=
  have hsingle : Single (run step (new loopThread) es) :=
    run_invariant (fun _ _ h hok => h.step hok) (single_new loopThread) hok
  hsingle.checked

/-- A refused attempt, the retry, a connection and its end, and the attempt after it. -/
theorem one_attempt_restart :
    let s := run step (new 0) [.start 1, .runStart 1, .callFunctor, .connect .EINPROGRESS,
      .handleWrite true false, .proceed, .proceed, .callFunctor, .getExpired 0, .runTimer,
      .connect .EINPROGRESS, .handleWrite false false, .proceed, .proceed, .callFunctor, .restart,
      .proceed, .proceed, .connect .EINPROGRESS]
    .newConnection 1 ∈ s.trace ∧ s.state_ = .kConnecting ∧ ∀ e ∈ s.trace, e.Checked := by
  intro s
  exact ⟨by decide +kernel, by decide +kernel, one_attempt 0 [.start 1, .runStart 1, .callFunctor,
    .connect .EINPROGRESS, .handleWrite true false, .proceed, .proceed, .callFunctor,
    .getExpired 0, .runTimer, .connect .EINPROGRESS, .handleWrite false false, .proceed,
    .proceed, .callFunctor, .restart, .proceed, .proceed, .connect .EINPROGRESS]
    (by decide +kernel)⟩

/-- A thread calls `stop` and `start` while the connector is connecting. `stopInLoop` removes the
channel and queues `resetChannel` behind the `startInLoop`, which connects over the channel; and
`resetChannel` then destroys the new one, which the poller knows. -/
theorem one_attempt_fails :
    ¬ ∀ (loopThread : Nat) (es : List (Event Nat)),
      ∀ e ∈ (run step (new loopThread) es).trace, e.Checked := by
  intro hall
  have hdestroyed := hall 0 [.start 1, .runStart 1, .callFunctor, .connect .EINPROGRESS, .stop 1,
    .queueStop 1, .cancel 1, .start 1, .runStart 1, .callFunctor, .proceed, .proceed,
    .callFunctor, .callFunctor, .connect .EINPROGRESS, .callFunctor] (.destroyed ⟨1, true⟩)
    (by decide +kernel)
  exact absurd hdestroyed (by simp [ConnectorEffect.Checked])

end Connector

end Mymuduo
