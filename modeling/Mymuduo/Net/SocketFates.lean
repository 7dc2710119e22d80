import Mymuduo.Net.ConnectAttempt

/-!
# What becomes of a connector's sockets

Every socket that `connect` creates is to be closed or handed over, and only once. As long as the
connector is at work on it (`current`), the socket belongs to the channel in `channel_` or to the
function that took it from there. A `resetChannel` that destroys a channel which still waits for its
event loses the socket: that happens when a retry timer comes to another attempt before the
`resetChannel` of the last one was called.

After a `stop` nothing is begun, unless the loop has found `connect_` set before, or is about to set
it in `restart`.

* `sockets_conserved_iff`: no socket is lost, closed or handed over twice if and only if no
  `resetChannel` finds a channel that waits; and nothing is begun after `stop` if and only if the
  loop has not got as far before.
* `sockets_conserved_fails`: a retry timer that overtakes the `resetChannel`, and a `stop` between
  the test of `connect_` and the call of `newConnectionCallback_`.
-/

namespace Mymuduo

open Transition

/-- The socket that the function the loop is in has taken from the channel. -/
def ConnectorPc.socket : ConnectorPc → Option Nat
  | .retrying sockfd | .connected sockfd | .handingOver sockfd => some sockfd
  | .idle | .restarting | .starting | .connecting | .delaying => none

/-- The function has found `connect_` set, or sets it next. -/
def ConnectorPc.decided : ConnectorPc → Bool
  | .restarting | .connecting | .handingOver _ => true
  | _ => false

/-- Neither `connect`, nor the end of a socket. -/
def ConnectorEffect.isNeutral : ConnectorEffect → Bool
  | .connect _ | .newConnection _ | .closed _ => false
  | _ => true

/-- A call of `connect`, or of `newConnectionCallback_`. -/
def ConnectorEffect.isAttempt : ConnectorEffect → Bool
  | .connect _ | .newConnection _ => true
  | _ => false

namespace Connector

variable {τ : Type*}

/-- The socket that the connector is at work on. -/
def current (s : Connector τ) : Option Nat :=
  match s.pc.socket, s.channel_ with
  | some sockfd, _ => some sockfd
  | none, some ⟨fd, true⟩ => some fd
  | none, _ => none

/-- How often a socket was closed or handed over. -/
def fates (trace : List ConnectorEffect) (sockfd : Nat) : Nat :=
  trace.count (.closed sockfd) + trace.count (.newConnection sockfd)

/-- Each socket was closed once or handed over once, unless the connector is at work on it. -/
def Conserved (s : Connector τ) : Prop :=
  ∀ sockfd, .connect sockfd ∈ s.trace →
    fates s.trace sockfd = if s.current = some sockfd then 0 else 1

/-- The sockets that were created and handed over, in order. -/
def attempted (s : Connector τ) : List ConnectorEffect :=
  s.trace.filter ConnectorEffect.isAttempt

/-! ## The books -/

structure Ledger (trace : List ConnectorEffect) (nextFd : Nat) (held : Option Nat) : Prop where
  created : ∀ sockfd, .connect sockfd ∈ trace ↔ sockfd < nextFd
  lt : ∀ sockfd, held = some sockfd → sockfd < nextFd
  fates : ∀ sockfd, fates trace sockfd = if sockfd < nextFd ∧ held ≠ some sockfd then 1 else 0

theorem ledger_nil : Ledger [] 0 none :=
  ⟨fun _ => iff_of_false List.not_mem_nil (Nat.not_lt_zero _), nofun, fun _ => rfl⟩

theorem fates_append (trace : List ConnectorEffect) (e : ConnectorEffect) (sockfd : Nat) :
    fates (trace ++ [e]) sockfd =
      fates trace sockfd + if e = .closed sockfd ∨ e = .newConnection sockfd then 1 else 0 := by
  simp only [Connector.fates, List.count_append, List.count_singleton, beq_iff_eq]
  cases e <;> simp [Nat.add_assoc, Nat.add_comm, Nat.add_left_comm]

theorem Ledger.neutral {trace : List ConnectorEffect} {nextFd : Nat} {held : Option Nat}
    (h : Ledger trace nextFd held) {e : ConnectorEffect} (he : e.isNeutral = true) :
    Ledger (trace ++ [e]) nextFd held := by
  refine ⟨fun sockfd => ?_, h.lt, fun sockfd => ?_⟩
  · rw [List.mem_append, h.created, List.mem_singleton, or_iff_left]
    rintro rfl
    cases he
  · rw [fates_append, if_neg, Nat.add_zero]
    · exact h.fates sockfd
    · rintro (rfl | rfl) <;> cases he

/-- A new socket is what the connector is at work on. -/
theorem Ledger.create {trace : List ConnectorEffect} {nextFd : Nat}
    (h : Ledger trace nextFd none) :
    Ledger (trace ++ [.connect nextFd]) (nextFd + 1) (some nextFd) := by
  refine ⟨fun sockfd => ?_, ?_, fun sockfd => ?_⟩
  · rw [List.mem_append, h.created, List.mem_singleton, ConnectorEffect.connect.injEq,
      Nat.lt_succ_iff_lt_or_eq]
  · rintro _ ⟨⟩
    exact Nat.lt_succ_self nextFd
  · rw [fates_append, if_neg (by simp), Nat.add_zero, h.fates]
    refine if_congr ?_ rfl rfl
    rw [Nat.lt_succ_iff_lt_or_eq]
    constructor
    · rintro ⟨hlt, -⟩
      exact ⟨.inl hlt, by simpa using Nat.ne_of_gt hlt⟩
    · rintro ⟨hlt | rfl, hne⟩
      · exact ⟨hlt, nofun⟩
      · exact absurd rfl hne

/-- The socket comes to its end. -/
theorem Ledger.settle {trace : List ConnectorEffect} {nextFd sockfd : Nat}
    (h : Ledger trace nextFd (some sockfd)) {e : ConnectorEffect}
    (he : e = .closed sockfd ∨ e = .newConnection sockfd) : Ledger (trace ++ [e]) nextFd none := by
  refine ⟨fun sockfd' => ?_, nofun, fun sockfd' => ?_⟩
  · rw [List.mem_append, h.created, List.mem_singleton, or_iff_left]
    rintro rfl
    rcases he with he | he <;> cases he
  · rw [fates_append, h.fates]
    rcases eq_or_ne sockfd' sockfd with rfl | hne
    · rw [if_neg (fun hnot => hnot.2 rfl), if_pos he,
        if_pos ⟨h.lt sockfd' rfl, nofun⟩]
    · have hother : ¬ (e = .closed sockfd' ∨ e = .newConnection sockfd') := by
        rcases he with rfl | rfl
        · simpa using hne.symm
        · simpa using hne.symm
      rw [if_neg hother, Nat.add_zero]
      refine if_congr (and_congr_right fun _ => ?_) rfl rfl
      exact iff_of_true (by simpa using hne.symm) nofun

theorem Ledger.conserved {s : Connector τ} (h : Ledger s.trace s.nextFd s.current) :
    Conserved s := by
  intro sockfd hm
  rw [h.fates]
  have hlt := (h.created sockfd).mp hm
  split
  · next hc => rw [if_neg hc.2]
  · next hc => rw [if_pos (by_contra fun hne => hc ⟨hlt, hne⟩)]

theorem Ledger.of_current {s : Connector τ} {held : Option Nat} (hcurrent : s.current = held)
    (h : Ledger s.trace s.nextFd held) : Ledger s.trace s.nextFd s.current := by
  rw [hcurrent]
  exact h

/-! ## The functions -/

/-- One attempt at a time, all the timers counted, of which the books are kept. -/
structure Accounted (s : Connector τ) : Prop where
  attempts : s.sources s.timers + s.busy.toNat ≤ 1
  channel : s.live = true ↔ ∃ fd, s.channel_ = some ⟨fd, true⟩
  state : ∀ state, s.pc.state = some state → s.state_ = state
  handedOver : ∀ n, s.handedOver = some n → s.state_ = .kConnected ∧ s.pc = .idle
  ledger : Ledger s.trace s.nextFd s.current

/-- Neither the channel nor the function that the loop is in changes. -/
theorem Accounted.of_same {s s' : Connector τ} (h : Accounted s)
    (hattempts : s'.sources s'.timers + s'.busy.toNat ≤ 1) (hstate : s'.state_ = s.state_)
    (hpc : s'.pc = s.pc) (hchannel : s'.channel_ = s.channel_)
    (hhanded : s'.handedOver.isSome = true → s.handedOver.isSome = true)
    (hnext : s'.nextFd = s.nextFd) (htrace : s'.trace = s.trace) : Accounted s' := by
  refine ⟨hattempts, ?_, ?_, fun n hn => ?_, ?_⟩
  · rw [live, hstate, hpc, hchannel]
    exact h.channel
  · rw [hstate, hpc]
    exact h.state
  · rw [hstate, hpc]
    obtain ⟨m, hm⟩ := Option.isSome_iff_exists.mp (hhanded (by rw [hn]; rfl))
    exact h.handedOver m hm
  · rw [htrace, hnext, current, hpc, hchannel]
    exact h.ledger

theorem Accounted.emit {s : Connector τ} (h : Accounted s) {e : ConnectorEffect}
    (he : e.isNeutral = true) : Accounted (s.emit e) :=
  { h with ledger := h.ledger.neutral he }

/-- A channel that does not wait for its event is not registered. -/
theorem Accounted.unregistered {s : Connector τ} (h : Accounted s) (hlive : s.live = false) :
    ∀ fd, s.channel_ ≠ some ⟨fd, true⟩ := by
  intro fd hfd
  have htrue := h.channel.mpr ⟨fd, hfd⟩
  rw [hlive] at htrue
  cases htrue

/-- The connector is at work on nothing. -/
theorem current_eq_none {s : Connector τ} (hpc : s.pc.socket = none)
    (hchannel : ∀ fd, s.channel_ ≠ some ⟨fd, true⟩) : s.current = none := by
  unfold current
  rw [hpc]
  split
  · next heq => cases heq
  · next fd _ heq => exact absurd heq (hchannel fd)
  · rfl

theorem current_of_socket {s : Connector τ} {sockfd : Nat} (hpc : s.pc.socket = some sockfd) :
    s.current = some sockfd := by
  unfold current
  rw [hpc]

theorem current_of_channel {s : Connector τ} {sockfd : Nat} (hpc : s.pc = .idle)
    (hchannel : s.channel_ = some ⟨sockfd, true⟩) : s.current = some sockfd := by
  unfold current
  rw [hpc, hchannel]
  rfl

theorem Accounted.ledger_none {s : Connector τ} (h : Accounted s) (hpc : s.pc.socket = none)
    (hlive : s.live = false) : Ledger s.trace s.nextFd none := by
  rw [← current_eq_none hpc (h.unregistered hlive)]
  exact h.ledger

theorem Accounted.handedOver_eq_none {s : Connector τ} (h : Accounted s)
    (hnot : ¬ (s.state_ = .kConnected ∧ s.pc = .idle)) : s.handedOver = none := by
  cases hn : s.handedOver with
  | none => rfl
  | some n => exact absurd (h.handedOver n hn) hnot

/-- The only attempt goes on, and no channel waits for its event. -/
theorem Accounted.goTo {s s' : Connector τ} (h : Accounted s) {held : Option Nat}
    (hsources : s'.sources s'.timers = 0) (hlive : s.live = false) (hlive' : s'.live = false)
    (hchannel : s'.channel_ = s.channel_)
    (hstate : ∀ state, s'.pc.state = some state → s'.state_ = state)
    (hhanded : s'.handedOver = none) (hcurrent : s'.current = held)
    (hledger : Ledger s'.trace s'.nextFd held) : Accounted s' where
  attempts := attempts_le_one hsources
  channel := by
    rw [hchannel]
    exact iff_of_false (by simp [hlive']) (not_exists.mpr (h.unregistered hlive))
  state := hstate
  handedOver n hn := by cases hn.symm.trans hhanded
  ledger := .of_current hcurrent hledger

/-- The channel that is replaced is not registered, and its end is no socket's end. -/
theorem connecting_fields (s : Connector τ) (sockfd : Nat) :
    ∃ effects, (∀ e ∈ effects, e.isNeutral = true) ∧ s.connecting sockfd =
      { s with
        state_ := .kConnecting
        channel_ := some ⟨sockfd, true⟩
        trace := s.trace ++ effects } := by
  unfold Connector.connecting destroyChannel emit
  cases s.channel_ with
  | none => exact ⟨[.connecting none], by simp [ConnectorEffect.isNeutral], rfl⟩
  | some channel =>
    exact ⟨[.connecting (some channel), .destroyed channel], by simp [ConnectorEffect.isNeutral],
      by simp⟩

theorem Ledger.neutrals {trace effects : List ConnectorEffect} {nextFd : Nat} {held : Option Nat}
    (h : Ledger trace nextFd held) (heffects : ∀ e ∈ effects, e.isNeutral = true) :
    Ledger (trace ++ effects) nextFd held := by
  induction effects generalizing trace with
  | nil => rwa [List.append_nil]
  | cons e effects ih =>
    rw [List.append_cons]
    exact ih (h.neutral (heffects e List.mem_cons_self))
      fun e' he' => heffects e' (List.mem_cons_of_mem e he')

theorem Accounted.connect {s : Connector τ} (h : Accounted s) (hsources : s.sources s.timers = 0)
    (hbusy : s.busy = false) (savedErrno : ConnectErrno) : Accounted (s.connect savedErrno) := by
  obtain ⟨hstate, hpc⟩ := busy_eq_false.mp hbusy
  have hnone : s.handedOver = none := h.handedOver_eq_none (by simp [hstate])
  have hlive : s.live = false := live_of_state (by simp [hstate])
  have hchannel := h.unregistered hlive
  have hidle : s.pc.socket = none := by rw [hpc]; rfl
  have hledger : Ledger (s.trace ++ [.connect s.nextFd]) (s.nextFd + 1) (some s.nextFd) :=
    (h.ledger_none hidle hlive).create
  -- the new socket goes to a channel, or on to `retry`, or it is closed at once
  cases savedErrno with
  | success | EINPROGRESS | EINTR | EISCONN =>
    obtain ⟨effects, hneutral, heq⟩ := connecting_fields
      ({ s with nextFd := s.nextFd + 1 }.emit (.connect s.nextFd)) s.nextFd
    show Accounted
      (({ s with nextFd := s.nextFd + 1 }.emit (.connect s.nextFd)).connecting s.nextFd)
    rw [heq]
    exact {
      attempts := attempts_le_one hsources
      channel := iff_of_true (by simp [live, Connector.emit, hpc]) ⟨s.nextFd, rfl⟩
      state := by simp [Connector.emit, hpc, ConnectorPc.state]
      handedOver := fun n hn => by cases hn.symm.trans hnone
      ledger := .of_current (current_of_channel hpc rfl) (hledger.neutrals hneutral) }
  | EAGAIN | EADDRINUSE | EADDRNOTAVAIL | ECONNREFUSED | ENETUNREACH =>
    exact h.goTo hsources hlive (live_of_pc fun hpc => by cases hpc) rfl
      (fun _ hs => by cases hs) hnone (current_of_socket rfl) hledger
  | _ =>
    exact h.goTo hsources hlive
      (live_of_state (by simp [Connector.connect, Connector.emit, hstate])) rfl
      (by simp [Connector.connect, Connector.emit, hpc, ConnectorPc.state]) hnone
      (current_eq_none hidle hchannel) (hledger.settle (.inl rfl))

theorem Accounted.startInLoop {s : Connector τ} (h : Accounted s)
    (hsources : s.sources s.timers = 0) (hbusy : s.busy = false) : Accounted s.startInLoop := by
  obtain ⟨hstate, hpc⟩ := busy_eq_false.mp hbusy
  have hstarted : Accounted (s.emit (.started s.state_)) := h.emit rfl
  rw [Connector.startInLoop]
  split
  · have hlive : s.live = false := live_of_state (by simp [hstate])
    have hledger := hstarted.ledger_none (by simp [Connector.emit, hpc, ConnectorPc.socket]) hlive
    refine hstarted.goTo hsources hlive (live_of_pc (by simp)) rfl ?_ ?_
      (current_eq_none rfl (h.unregistered hlive)) hledger
    · rintro _ ⟨⟩
      exact hstate
    · exact h.handedOver_eq_none (by simp [hstate])
  · exact hstarted

theorem Accounted.rest {s : Connector τ} (h : Accounted s) (hpc : s.pc ≠ .idle) :
    s.sources s.timers = 0 ∧ s.live = false ∧ s.handedOver = none :=
  ⟨sources_of_busy h.attempts (busy_of_pc hpc), live_of_pc hpc,
    h.handedOver_eq_none fun hboth => hpc hboth.2⟩

/-- A function that has no socket comes to its end. -/
theorem Accounted.idle {s : Connector τ} (h : Accounted s) (hpc : s.pc ≠ .idle)
    (hsocket : s.pc.socket = none) (hstate : s.state_ = .kDisconnected) :
    Accounted { s with pc := .idle } := by
  obtain ⟨hsources, hlive, hnone⟩ := h.rest hpc
  exact h.goTo hsources hlive (live_of_state (by simp [hstate])) rfl (fun _ hs => by cases hs) hnone
    (current_eq_none rfl (h.unregistered hlive)) (h.ledger_none hsocket hlive)

theorem Accounted.callConnect {s : Connector τ} (h : Accounted s) (savedErrno : ConnectErrno) :
    Accounted (s.callConnect savedErrno) := by
  unfold Connector.callConnect
  split
  · next hpc =>
    have hstate : s.state_ = .kDisconnected := h.state _ (by rw [hpc]; rfl)
    have hsources := (h.rest (by simp [hpc])).1
    have hidle := h.idle (by simp [hpc]) (by rw [hpc]; rfl) hstate
    exact hidle.connect hsources (busy_eq_false.mpr ⟨hstate, rfl⟩) savedErrno
  · exact h

/-- The socket of a channel that waits for its event goes to the function that takes it. -/
theorem Accounted.removed {s : Connector τ} (h : Accounted s) (hlive : s.live = true)
    (state : ConnectorState) {next : Nat → ConnectorPc}
    (hnext : ∀ fd, next fd = .retrying fd ∨ next fd = .connected fd) :
    Accounted ({ s with state_ := state }.removeAndResetChannel next) := by
  have hlive' : s.state_ = .kConnecting ∧ s.pc = .idle := by simpa [live] using hlive
  have hsources := sources_of_busy h.attempts (by simp [busy, hlive'.1])
  obtain ⟨fd, hfd⟩ := h.channel.mp hlive
  have hnot : next fd ≠ .idle ∧ (next fd).socket = some fd ∧ (next fd).state = none := by
    rcases hnext fd with heq | heq <;> simp [heq, ConnectorPc.socket, ConnectorPc.state]
  have hledger := h.ledger
  rw [current_of_channel hlive'.2 hfd] at hledger
  simp only [removeAndResetChannel, hfd]
  exact {
    attempts := by
      refine attempts_le_one ?_
      rw [sources_queueInLoop, if_neg (by simp)]
      exact hsources
    channel := by
      refine iff_of_false ?_ ?_
      · simp [live, Connector.queueInLoop, hnot.1]
      · rintro ⟨fd', heq⟩
        simp [Connector.queueInLoop] at heq
    state := fun state hstate => by cases hstate.symm.trans hnot.2.2
    handedOver := fun n hn => by
      cases hn.symm.trans (h.handedOver_eq_none (by simp [hlive'.1]))
    ledger := .of_current (current_of_socket hnot.2.1) hledger }

/-- The socket of a function comes to its end, and the function to its own. -/
theorem Accounted.settled {s : Connector τ} (h : Accounted s) {sockfd : Nat}
    (hpc : s.pc.socket = some sockfd) (state : ConnectorState) (hstate : state ≠ .kConnecting)
    {e : ConnectorEffect} (he : e = .closed sockfd ∨ e = .newConnection sockfd) :
    Accounted ({ s with state_ := state, pc := .idle }.emit e) := by
  obtain ⟨hsources, hlive, hnone⟩ := h.rest (by rintro heq; rw [heq] at hpc; cases hpc)
  have hledger := h.ledger
  rw [current_of_socket hpc] at hledger
  exact h.goTo hsources hlive (live_of_state hstate) rfl (fun _ hs => by cases hs) hnone
    (current_eq_none rfl (h.unregistered hlive)) (hledger.settle he)

theorem Accounted.retry {s : Connector τ} (h : Accounted s) {sockfd : Nat}
    (hpc : s.pc = .retrying sockfd) : Accounted (s.retry sockfd) := by
  obtain ⟨hsources, hlive, hnone⟩ := h.rest (by simp [hpc])
  have hclosed : Accounted ({ s with state_ := .kDisconnected, pc := .idle }.emit
      (.closed sockfd)) := h.settled (by rw [hpc]; rfl) .kDisconnected (by simp) (.inl rfl)
  rw [Connector.retry]
  split
  · have hdown : ({ s with state_ := .kDisconnected, pc := .idle }.emit (.closed sockfd)).live =
        false := live_of_state fun hs => by cases hs
    refine hclosed.goTo hsources hdown (live_of_state fun hs => by cases hs) rfl ?_ hnone
      (current_eq_none rfl (h.unregistered hlive)) (hclosed.ledger_none rfl hdown)
    rintro _ ⟨⟩
    rfl
  · exact hclosed

/-- The only attempt is the timer now. -/
theorem Accounted.runAfter {s : Connector τ} (h : Accounted s) (hpc : s.pc = .delaying) :
    Accounted s.runAfter := by
  have hstate : s.state_ = .kDisconnected := h.state _ (by rw [hpc]; rfl)
  have hsources := (h.rest (by simp [hpc])).1
  obtain ⟨hstarting, hqueue, htimers, hexpired⟩ := sources_eq_zero hsources
  have hidle := h.idle (by simp [hpc]) (by rw [hpc]; rfl) hstate
  refine hidle.of_same ?_ rfl rfl rfl id rfl rfl
  simp [sources, Connector.runAfter, hstarting, hqueue, htimers, hexpired, busy, hstate]

theorem Accounted.connected {s : Connector τ} (h : Accounted s) {sockfd : Nat}
    (hpc : s.pc = .connected sockfd) : Accounted (s.connected sockfd) := by
  obtain ⟨hsources, hlive, hnone⟩ := h.rest (by simp [hpc])
  rw [Connector.connected]
  split
  · have hledger := h.ledger
    rw [current_of_socket (by rw [hpc]; rfl)] at hledger
    refine h.goTo hsources hlive (live_of_state (by simp)) rfl ?_ hnone
      (current_of_socket rfl) hledger
    rintro _ ⟨⟩
    rfl
  · exact h.settled (by rw [hpc]; rfl) .kConnected (by simp) (.inl rfl)

theorem Accounted.handOver {s : Connector τ} (h : Accounted s) {sockfd : Nat}
    (hpc : s.pc = .handingOver sockfd) : Accounted (s.handOver sockfd) := by
  have hstate : s.state_ = .kConnected := h.state _ (by rw [hpc]; rfl)
  have hsettled := h.settled (e := .newConnection sockfd) (by rw [hpc]; rfl) s.state_
    (by simp [hstate]) (.inr rfl)
  exact { hsettled with handedOver := fun _ _ => ⟨hstate, rfl⟩ }

/-! ## The functors and the timers -/

/-- The functor at the front is taken out of the queue. -/
theorem Accounted.pop {s : Connector τ} (h : Accounted s) {f : ConnectorFunctor}
    {functors : List ConnectorFunctor} (hqueue : s.pendingFunctors_ = f :: functors) :
    Accounted { s with
      pendingFunctors_ := functors
      handedOver := s.handedOver.map fun n => n - 1 } := by
  refine h.of_same ?_ rfl rfl rfl (by simp) rfl rfl
  have hpop := sources_pop hqueue (s.handedOver.map fun n => n - 1) s.channel_ s.timers
  have hattempts := h.attempts
  rw [← hpop] at hattempts
  exact Nat.le_trans (Nat.add_le_add_right (Nat.le_add_right _ _) _) hattempts

/-- The channel that is destroyed does not wait for its event. -/
theorem Accounted.resetChannel {s : Connector τ} (h : Accounted s)
    (hchannel : ∀ fd, s.channel_ ≠ some ⟨fd, true⟩) : Accounted s.resetChannel := by
  unfold Connector.resetChannel destroyChannel
  split
  · next channel heq =>
    have hlive : ¬ s.live = true := fun hlive => by
      obtain ⟨fd, hfd⟩ := h.channel.mp hlive
      exact hchannel fd hfd
    have hcurrent : ({ s with channel_ := none } : Connector τ).current = s.current := by
      cases hsocket : s.pc.socket with
      | none =>
        rw [current_eq_none hsocket hchannel]
        exact current_eq_none hsocket fun _ heq => by cases heq
      | some sockfd =>
        rw [current_of_socket hsocket]
        exact current_of_socket hsocket
    have hless : Accounted { s with channel_ := none } :=
      { h with
        channel := iff_of_false hlive nofun
        ledger := by rw [hcurrent]; exact h.ledger }
    exact hless.emit rfl
  · exact h

theorem Accounted.cancelInLoop {s : Connector τ} (h : Accounted s) (timerId : Option Nat) :
    Accounted (s.cancelInLoop timerId) := by
  refine h.of_same ?_ rfl rfl rfl id rfl rfl
  have hle := (s.cancelInLoop timerId).sources_mono
    (List.length_filter_le (fun timer => some timer.sequence ≠ timerId) s.timers)
  exact Nat.le_trans (Nat.add_le_add_right hle _) h.attempts

theorem Accounted.callFunctor {s : Connector τ} (h : Accounted s) (hpc : s.pc = .idle)
    (hspares : s.pendingFunctors_.head? = some .resetChannel →
      ∀ fd, s.channel_ ≠ some ⟨fd, true⟩) : Accounted s.callFunctor := by
  unfold Connector.callFunctor
  split
  · next f functors hqueue =>
    have hpop := h.pop hqueue
    cases f with
    | startInLoop =>
      obtain ⟨hsources, hbusy⟩ := sources_startFunctor h.attempts hqueue
        (s.handedOver.map fun n => n - 1)
      exact hpop.startInLoop hsources hbusy
    | stopInLoop =>
      simp only [runFunctor, Connector.stopInLoop]
      split
      · next hstate =>
        exact hpop.removed (by simp [live, hpc, hstate]) .kDisconnected fun _ => .inl rfl
      · exact hpop
    -- the one place where a socket can be lost
    | resetChannel => exact hpop.resetChannel (hspares (by rw [hqueue]; rfl))
    | cancel timerId => exact hpop.cancelInLoop timerId
  · exact h

theorem Accounted.handleWrite {s : Connector τ} (h : Accounted s) (hpc : s.pc = .idle)
    (err selfConnect : Bool) : Accounted (s.handleWrite err selfConnect) := by
  unfold Connector.handleWrite
  split
  · next hstate =>
    refine h.removed (by simp [live, hpc, hstate]) s.state_ fun sockfd => ?_
    split
    · exact .inl rfl
    · exact .inr rfl
  · exact h

theorem Accounted.handleError {s : Connector τ} (h : Accounted s) (hpc : s.pc = .idle) :
    Accounted s.handleError := by
  unfold Connector.handleError
  split
  · next hstate => exact h.removed (by simp [live, hpc, hstate]) s.state_ fun _ => .inl rfl
  · exact h

theorem Accounted.proceed {s : Connector τ} (h : Accounted s) : Accounted s.proceed := by
  unfold Connector.proceed
  split
  · exact h
  · exact h
  · next hpc =>
    have hstate : s.state_ = .kDisconnected := h.state _ (by rw [hpc]; rfl)
    obtain ⟨hsources, hlive, hnone⟩ := h.rest (by simp [hpc])
    refine h.goTo hsources hlive (live_of_pc (by simp)) rfl ?_ hnone
      (current_eq_none rfl (h.unregistered hlive)) (h.ledger_none (by rw [hpc]; rfl) hlive)
    rintro _ ⟨⟩
    exact hstate
  · next hpc =>
    have hstate : s.state_ = .kDisconnected := h.state _ (by rw [hpc]; rfl)
    have hidle := h.idle (by simp [hpc]) (by rw [hpc]; rfl) hstate
    exact hidle.startInLoop (h.rest (by simp [hpc])).1 (busy_eq_false.mpr ⟨hstate, rfl⟩)
  · next sockfd hpc => exact h.retry hpc
  · next hpc => exact h.runAfter hpc
  · next sockfd hpc => exact h.connected hpc
  · next sockfd hpc => exact h.handOver hpc

/-- A timer that expires counts as it did. -/
theorem sources_getExpired (s : Connector τ) (sequence : Nat) :
    (s.getExpired sequence).sources (s.getExpired sequence).timers = s.sources s.timers := by
  have hsplit := List.length_eq_length_filter_add (l := s.timers)
    (fun timer : RetryTimer => timer.sequence = sequence)
  simp only [sources, Connector.getExpired, List.length_append, hsplit, decide_not, ne_eq]
  omega

theorem Accounted.getExpired {s : Connector τ} (h : Accounted s) (sequence : Nat) :
    Accounted (s.getExpired sequence) := by
  refine h.of_same ?_ rfl rfl rfl id rfl rfl
  rw [sources_getExpired]
  exact h.attempts

theorem Accounted.runTimer {s : Connector τ} (h : Accounted s) : Accounted s.runTimer := by
  unfold Connector.runTimer
  split
  · next timer expired hexpired =>
    obtain ⟨hsources, hbusy⟩ := sources_expired h.attempts hexpired
    have hless : Accounted { s with expired := expired } :=
      h.of_same (attempts_le_one hsources) rfl rfl rfl id rfl rfl
    exact hless.startInLoop hsources hbusy
  · exact h

/-! ## While `connect_` is false -/

/-- `connect_` is false, the loop has not found it set before, and no socket was created or handed
over on the way from `s`. -/
structure Stopped (s s' : Connector τ) : Prop where
  connect_ : s'.connect_ = false
  decided : s'.pc.decided = false
  attempted : s'.attempted = s.attempted

theorem Stopped.emit {s s' : Connector τ} (h : Stopped s s') {e : ConnectorEffect}
    (he : e.isAttempt = false) : Stopped s (s'.emit e) := by
  refine ⟨h.connect_, h.decided, ?_⟩
  rw [Connector.attempted, Connector.emit, List.filter_append, List.filter_singleton, he]
  exact (List.append_nil _).trans h.attempted

/-- Only the trace, `connect_` and where the loop is matter. -/
theorem Stopped.of_eq {s s₁ s₂ : Connector τ} (h : Stopped s s₁)
    (hconnect : s₂.connect_ = s₁.connect_) (hpc : s₂.pc.decided = false)
    (htrace : s₂.trace = s₁.trace) : Stopped s s₂ :=
  ⟨hconnect.trans h.connect_, hpc, by rw [Connector.attempted, htrace]; exact h.attempted⟩

theorem Stopped.destroyChannel {s s' : Connector τ} (h : Stopped s s') :
    Stopped s s'.destroyChannel := by
  unfold Connector.destroyChannel
  split
  · have hless : Stopped s { s' with channel_ := none } := h.of_eq rfl h.decided rfl
    exact hless.emit rfl
  · exact h

theorem Stopped.removeAndResetChannel {s s' : Connector τ} (h : Stopped s s')
    {next : Nat → ConnectorPc} (hnext : ∀ fd, (next fd).decided = false) :
    Stopped s (s'.removeAndResetChannel next) := by
  unfold Connector.removeAndResetChannel
  split
  · exact h.of_eq rfl (hnext _) rfl
  · exact h

theorem Stopped.startInLoop {s s' : Connector τ} (h : Stopped s s') :
    Stopped s s'.startInLoop := by
  have hno : ¬ (s'.emit (.started s'.state_)).connect_ = true := by
    simp [Connector.emit, h.connect_]
  rw [Connector.startInLoop, if_neg hno]
  exact h.emit rfl

theorem Stopped.stopInLoop {s s' : Connector τ} (h : Stopped s s') : Stopped s s'.stopInLoop := by
  unfold Connector.stopInLoop
  split
  · have hdisconnected : Stopped s { s' with state_ := .kDisconnected } :=
      h.of_eq rfl h.decided rfl
    exact hdisconnected.removeAndResetChannel fun _ => rfl
  · exact h

theorem Stopped.callFunctor {s s' : Connector τ} (h : Stopped s s') :
    Stopped s s'.callFunctor := by
  unfold Connector.callFunctor
  split
  · next f functors hqueue =>
    have hpop : Stopped s { s' with
        pendingFunctors_ := functors
        handedOver := s'.handedOver.map fun n => n - 1 } := h.of_eq rfl h.decided rfl
    cases f with
    | startInLoop => exact hpop.startInLoop
    | stopInLoop => exact hpop.stopInLoop
    | resetChannel => exact hpop.destroyChannel
    | cancel timerId => exact hpop.of_eq rfl hpop.decided rfl
  · exact h

/-- A socket that is left is closed. -/
theorem Stopped.proceed {s s' : Connector τ} (h : Stopped s s') : Stopped s s'.proceed := by
  unfold Connector.proceed
  split
  · exact h
  · exact h
  · next hpc => cases hpc ▸ h.decided
  · have hidle : Stopped s { s' with pc := .idle } := h.of_eq rfl rfl rfl
    exact hidle.startInLoop
  · next sockfd hpc =>
    have hidle : Stopped s { s' with state_ := .kDisconnected, pc := .idle } := h.of_eq rfl rfl rfl
    rw [Connector.retry, if_neg (by simp [Connector.emit, h.connect_])]
    exact hidle.emit rfl
  · exact h.of_eq rfl rfl rfl
  · next sockfd hpc =>
    have hidle : Stopped s { s' with state_ := .kConnected, pc := .idle } := h.of_eq rfl rfl rfl
    rw [Connector.connected, if_neg (by simp [h.connect_])]
    exact hidle.emit rfl
  · next sockfd hpc => cases hpc ▸ h.decided

/-! ## The calls -/

theorem Accounted.queueInLoop {s : Connector τ} (h : Accounted s) {f : ConnectorFunctor}
    (hattempts : s.sources s.timers + (if f = .startInLoop then 1 else 0) + s.busy.toNat ≤ 1) :
    Accounted (s.queueInLoop f) := by
  refine h.of_same ?_ rfl rfl rfl id rfl rfl
  rw [sources_queueInLoop]
  exact hattempts

/-- A functor that leads to no attempt is queued. -/
theorem Accounted.queueOther {s : Connector τ} (h : Accounted s) {f : ConnectorFunctor}
    (hf : f ≠ .startInLoop) : Accounted (s.queueInLoop f) := by
  refine h.queueInLoop ?_
  rw [if_neg hf]
  exact h.attempts

/-- The attempt of a connection that has ended is over. -/
theorem Accounted.restart {s : Connector τ} (h : Accounted s) (hended : s.handedOver = some 0) :
    Accounted s.restart := by
  obtain ⟨hstate, hpc⟩ := h.handedOver 0 hended
  have hsources := sources_of_busy h.attempts (by simp [busy, hstate])
  have hlive : s.live = false := live_of_state (by simp [hstate])
  refine h.goTo hsources hlive (live_of_pc fun hidle => by cases hidle) rfl ?_ rfl
    (current_eq_none rfl (h.unregistered hlive)) (h.ledger_none (by rw [hpc]; rfl) hlive)
  rintro _ ⟨⟩
  rfl

variable [DecidableEq τ]

/-- No `resetChannel` is called while `channel_` waits for its event. -/
def SparesChannel (s : Connector τ) : Event τ → Prop
  | .callFunctor => s.loopIdle = true → s.pendingFunctors_.head? = some .resetChannel →
    ∀ channel, s.channel_ = some channel → channel.registered = false
  | _ => True

instance (s : Connector τ) : (e : Event τ) → Decidable (s.SparesChannel e)
  | .callFunctor => inferInstanceAs (Decidable (_ → _ → _))
  | .start _ | .runStart _ | .stop _ | .queueStop _ | .cancel _ | .restart | .handleWrite ..
  | .handleError | .connect _ | .proceed | .getExpired _ | .runTimer => instDecidableTrue

theorem Accounted.runStart {s : Connector τ} (h : Accounted s) (t : τ) :
    Accounted (s.runStart t) := by
  unfold Connector.runStart
  split
  · next hmem =>
    obtain ⟨hsources, hbusy⟩ := sources_starting h.attempts hmem
    have hless : Accounted { s with starting := s.starting.erase t } :=
      h.of_same (attempts_le_one hsources) rfl rfl rfl id rfl rfl
    dsimp only
    split
    · exact hless.startInLoop hsources hbusy
    · refine hless.queueInLoop ?_
      have hbusy' : ({ s with starting := s.starting.erase t } : Connector τ).busy = false := hbusy
      rw [hsources, hbusy']
      exact Nat.le_refl 1
  · exact h

theorem Accounted.stop {s : Connector τ} (h : Accounted s) (t : τ) : Accounted (s.stop t) := by
  unfold Connector.stop
  split
  · exact h.of_same h.attempts rfl rfl rfl id rfl rfl
  · exact h

theorem Accounted.queueStop {s : Connector τ} (h : Accounted s) (t : τ) :
    Accounted (s.queueStop t) := by
  unfold Connector.queueStop
  split
  · have hcall : Accounted { s with
        stopping := s.stopping.erase t
        cancelling := t :: s.cancelling } := h.of_same h.attempts rfl rfl rfl id rfl rfl
    exact hcall.queueOther nofun
  · exact h

theorem Accounted.cancel {s : Connector τ} (h : Accounted s) (t : τ) : Accounted (s.cancel t) := by
  unfold Connector.cancel
  split
  · have hcall : Accounted { s with cancelling := s.cancelling.erase t } :=
      h.of_same h.attempts rfl rfl rfl id rfl rfl
    dsimp only
    split
    · exact hcall.cancelInLoop s.timerId_
    · exact hcall.queueOther nofun
  · exact h

theorem Accounted.step {s : Connector τ} (h : Accounted s) {e : Event τ} (he : ∀ t, e ≠ .start t)
    (hok : s.SparesChannel e) : Accounted (s.step e) := by
  cases e with
  | start t => exact absurd rfl (he t)
  | runStart t => exact h.runStart t
  | stop t => exact h.stop t
  | queueStop t => exact h.queueStop t
  | cancel t => exact h.cancel t
  | restart =>
    rw [Connector.step]
    split
    · next hguard => exact h.restart (by simpa using (Bool.and_eq_true_iff.mp hguard).2)
    · exact h
  | callFunctor =>
    rw [Connector.step]
    split
    · next hidle =>
      refine h.callFunctor (idle_of_loopIdle hidle) fun hhead fd hfd => ?_
      have hunregistered := hok hidle hhead _ hfd
      cases hunregistered
    · exact h
  | handleWrite err selfConnect =>
    rw [Connector.step]
    split
    · next hguard =>
      exact h.handleWrite (idle_of_loopIdle (Bool.and_eq_true_iff.mp hguard).1) err selfConnect
    · exact h
  | handleError =>
    rw [Connector.step]
    split
    · next hguard => exact h.handleError (idle_of_loopIdle (Bool.and_eq_true_iff.mp hguard).1)
    · exact h
  | connect savedErrno => exact h.callConnect savedErrno
  | proceed => exact h.proceed
  | getExpired sequence =>
    rw [Connector.step]
    split
    · exact h.getExpired sequence
    · exact h
  | runTimer =>
    rw [Connector.step]
    split
    · exact h.runTimer
    · exact h

/-- The socket of a channel that is destroyed while it waits is lost. -/
theorem Accounted.conserved_step_iff {s : Connector τ} (h : Accounted s) {e : Event τ}
    (he : ∀ t, e ≠ .start t) : Conserved (s.step e) ↔ s.SparesChannel e := by
  refine ⟨fun hconserved => ?_, fun hok => (h.step he hok).ledger.conserved⟩
  cases e with
  | callFunctor =>
    rintro hidle hhead ⟨fd, registered⟩ hchannel
    cases registered with
    | false => rfl
    | true =>
      have hpc := idle_of_loopIdle hidle
      obtain ⟨functors, hqueue⟩ := List.head?_eq_some_iff.mp hhead
      -- the socket that waits is current and has no end yet; once its channel is gone, neither
      have hheld := current_of_channel hpc hchannel
      have hcreated := (h.ledger.created fd).mpr (h.ledger.lt fd hheld)
      have hfates := h.ledger.fates fd
      rw [if_neg fun hnot => hnot.2 hheld] at hfates
      have hstep : s.step .callFunctor = { s with
          pendingFunctors_ := functors
          handedOver := s.handedOver.map fun n => n - 1
          channel_ := none
          trace := s.trace ++ [.destroyed ⟨fd, true⟩] } := by
        simp [Connector.step, hidle, Connector.callFunctor, hqueue, runFunctor,
          Connector.resetChannel, destroyChannel, hchannel, Connector.emit]
      have htrace : (s.step .callFunctor).trace = s.trace ++ [.destroyed ⟨fd, true⟩] := by
        rw [hstep]
      have hnone : (s.step .callFunctor).current = none := by
        rw [hstep]
        exact current_eq_none (by rw [hpc]; rfl) fun _ heq => by cases heq
      have hlost := hconserved fd (by rw [htrace]; exact List.mem_append_left _ hcreated)
      rw [htrace, hnone, fates_append, hfates] at hlost
      simp at hlost
  | _ => trivial

/-- At the first call of `start`. -/
theorem accounted_start (loopThread t : τ) : Accounted ((new loopThread).start t) := by
  have hstart : (new loopThread).start t = { new loopThread with
      connect_ := true
      starting := [t] } := by
    simp [start, mayCall, inCall, new]
  rw [hstart]
  exact ⟨Nat.le_refl 1, iff_of_false nofun nofun, nofun, nofun, ledger_nil⟩

/-! ## After `stop` -/

/-- Nothing is begun while `connect_` is false. -/
theorem Stopped.step {s s' : Connector τ} (h : Stopped s s') {e : Event τ}
    (hstart : ∀ t, e ≠ .start t) (hrestart : e ≠ .restart) : Stopped s (s'.step e) := by
  cases e with
  | start t => exact absurd rfl (hstart t)
  | restart => exact absurd rfl hrestart
  | runStart t =>
    rw [Connector.step, Connector.runStart]
    split
    · have hless : Stopped s { s' with starting := s'.starting.erase t } :=
        h.of_eq rfl h.decided rfl
      dsimp only
      split
      · exact hless.startInLoop
      · exact hless.of_eq rfl h.decided rfl
    · exact h
  | stop t =>
    rw [Connector.step, Connector.stop]
    split
    · exact ⟨rfl, h.decided, h.attempted⟩
    · exact h
  | queueStop t =>
    rw [Connector.step, Connector.queueStop]
    split
    · exact h.of_eq rfl h.decided rfl
    · exact h
  | cancel t =>
    rw [Connector.step, Connector.cancel]
    split
    · dsimp only
      split <;> exact h.of_eq rfl h.decided rfl
    · exact h
  | callFunctor =>
    rw [Connector.step]
    split
    · exact h.callFunctor
    · exact h
  | handleWrite err selfConnect =>
    rw [Connector.step]
    split
    · unfold Connector.handleWrite
      split
      · refine h.removeAndResetChannel fun fd => ?_
        split <;> rfl
      · exact h
    · exact h
  | handleError =>
    rw [Connector.step]
    split
    · unfold Connector.handleError
      split
      · exact h.removeAndResetChannel fun _ => rfl
      · exact h
    · exact h
  | connect savedErrno =>
    rw [Connector.step, Connector.callConnect]
    split
    -- the test of `connect_` lies behind the loop here
    · next hpc => cases hpc ▸ h.decided
    · exact h
  | proceed => exact h.proceed
  | getExpired sequence =>
    rw [Connector.step]
    split
    · exact h.of_eq rfl h.decided rfl
    · exact h
  | runTimer =>
    rw [Connector.step]
    split
    · unfold Connector.runTimer
      split
      · next timer expired hexpired =>
        have hless : Stopped s { s' with expired := expired } := h.of_eq rfl h.decided rfl
        exact hless.startInLoop
      · exact h
    · exact h

theorem step_stop {s : Connector τ} {t : τ} (hmay : s.mayCall t = true) :
    s.step (.stop t) = { s with connect_ := false, stopping := t :: s.stopping } := by
  rw [Connector.step, Connector.stop, if_pos hmay]

/-- A run after a `stop` that the loop has not got ahead of. -/
theorem stopped_run {s : Connector τ} {t : τ} (hmay : s.mayCall t = true)
    (hdecided : s.pc.decided = false) {es : List (Event τ)}
    (hes : ∀ e ∈ es, (∀ t, e ≠ .start t) ∧ e ≠ .restart) :
    Stopped s (run Connector.step (s.step (.stop t)) es) := by
  have hstop : Stopped s (s.step (.stop t)) := by
    rw [step_stop hmay]
    exact ⟨rfl, hdecided, rfl⟩
  have hok : Meets (fun _ e => (∀ t, e ≠ .start t) ∧ e ≠ .restart) Connector.step
      (s.step (.stop t)) es := meets_of_forall hes
  exact run_invariant (I := Stopped s) (fun _ _ h hok => h.step hok.1 hok.2) hstop hok

/-- A loop that has got ahead of the `stop` goes on to `connect`, or to
`newConnectionCallback_`. -/
theorem attempted_of_decided {s : Connector τ} {t : τ} (hmay : s.mayCall t = true)
    (hdecided : s.pc.decided = true) : ∃ es : List (Event τ),
      (∀ e ∈ es, (∀ t, e ≠ .start t) ∧ e ≠ .restart) ∧
        (run Connector.step (s.step (.stop t)) es).attempted ≠ s.attempted := by
  have hgrows : ∀ effects : List ConnectorEffect, effects ≠ [] → s.attempted ++ effects ≠
      s.attempted := by simp
  rw [step_stop hmay]
  cases hpc : s.pc with
  -- `restart` sets `connect_` whatever the `stop` has done
  | restarting =>
    refine ⟨[.proceed, .proceed, .connect .EBADF], by simp, ?_⟩
    refine ne_of_eq_of_ne ?_ (hgrows [.connect s.nextFd] (by simp))
    simp [run, Connector.step, Connector.proceed, startInLoop, callConnect, Connector.connect,
      Connector.emit, Connector.attempted]
    rfl
  | connecting =>
    refine ⟨[.connect .EBADF], by simp, ?_⟩
    refine ne_of_eq_of_ne ?_ (hgrows [.connect s.nextFd] (by simp))
    simp [run, Connector.step, callConnect, Connector.connect, Connector.emit,
      Connector.attempted]
    rfl
  | handingOver sockfd =>
    refine ⟨[.proceed], by simp, ?_⟩
    refine ne_of_eq_of_ne ?_ (hgrows [.newConnection sockfd] (by simp))
    simp [run, Connector.step, Connector.proceed, Connector.handOver, Connector.emit,
      Connector.attempted, ConnectorEffect.isAttempt]
  | _ => simp [hpc, ConnectorPc.decided] at hdecided

/-! ## Every run -/

/-- In a run with one `start`: every socket is closed or handed over once, or the connector is at
work on it, all along the run, if and only if no `resetChannel` is called while the channel in
`channel_` waits for its event. And whatever happens after a `stop`, but for a `restart`, no socket
is created or handed over any more, if and only if the loop had not yet found `connect_` set on its
way there, nor was about to set it. -/
theorem sockets_conserved_iff (loopThread t : τ) (es : List (Event τ))
    (hes : ∀ e ∈ es, ∀ t, e ≠ .start t) :
    ((∀ pre, pre <+: es → Conserved (run step ((new loopThread).start t) pre)) ↔
      Meets SparesChannel step ((new loopThread).start t) es) ∧
    ∀ t', (run step ((new loopThread).start t) es).mayCall t' = true →
      ((∀ later : List (Event τ), (∀ e ∈ later, (∀ t, e ≠ .start t) ∧ e ≠ .restart) →
          (run step ((new loopThread).start t) (es ++ .stop t' :: later)).attempted =
            (run step ((new loopThread).start t) es).attempted) ↔
        (run step ((new loopThread).start t) es).pc.decided = false) := by
  have hstart := accounted_start loopThread t
  constructor
  · rw [forall_prefix_iff, and_iff_right hstart.ledger.conserved]
    exact meets_iff (I := Accounted) (p := fun e => ∀ t, e ≠ .start t)
      (fun _ _ h he => h.conserved_step_iff he) (fun _ _ h he hok => h.step he hok) hstart hes
  · intro t' hmay
    simp only [run_append, run_cons]
    constructor
    · intro hall
      by_contra hdecided
      obtain ⟨later, hlater, hnot⟩ := attempted_of_decided hmay (by simpa using hdecided)
      exact hnot (hall later hlater)
    · intro hdecided later hlater
      exact (stopped_run hmay hdecided hlater).attempted

/-- A refused attempt and its retry, a connection and its end, and a `stop` of the attempt after
it. -/
theorem sockets_conserved_iff_stop :
    let es : List (Event Nat) := [.runStart 1, .callFunctor, .connect .EINPROGRESS,
      .handleWrite true false, .proceed, .proceed, .callFunctor, .getExpired 0, .runTimer,
      .connect .EINPROGRESS, .handleWrite false false, .proceed, .proceed, .callFunctor, .restart,
      .proceed, .proceed, .connect .EINPROGRESS]
    let later : List (Event Nat) := [.queueStop 1, .cancel 1, .callFunctor, .proceed]
    let s := run step ((new 0).start 1) (es ++ .stop 1 :: later)
    Conserved s ∧ s.attempted = [.connect 0, .connect 1, .newConnection 1, .connect 2] := by
  intro es later s
  have hconserved := (sockets_conserved_iff 0 1 (es ++ .stop 1 :: later) (by simp [es, later])).1
  have hstop := (sockets_conserved_iff 0 1 es (by simp [es])).2 1 (by decide +kernel)
  refine ⟨hconserved.mpr (by decide +kernel) _ List.prefix_rfl, ?_⟩
  have hbefore := hstop.mpr (by decide +kernel) later (by simp [later])
  exact hbefore.trans (by decide +kernel)

/-- An attempt fails, and its retry timer expires before the `resetChannel` that it queued is
called. The `resetChannel` then destroys the channel of the next attempt. And a `stop` comes when
the loop has found `connect_` set for a new connection, which is then handed over. -/
theorem sockets_conserved_fails :
    (¬ ∀ (loopThread t : Nat) (es : List (Event Nat)), (∀ e ∈ es, ∀ t, e ≠ .start t) →
      Conserved (run step ((new loopThread).start t) es)) ∧
    ¬ ∀ (loopThread t t' : Nat) (es later : List (Event Nat)),
      (∀ e ∈ es, ∀ t, e ≠ .start t) → (∀ e ∈ later, (∀ t, e ≠ .start t) ∧ e ≠ .restart) →
      (run step ((new loopThread).start t) es).mayCall t' = true →
      (run step ((new loopThread).start t) (es ++ .stop t' :: later)).attempted =
        (run step ((new loopThread).start t) es).attempted := by
  constructor
  · intro hall
    have hlost := hall 0 1 [.runStart 1, .callFunctor, .connect .EINPROGRESS, .handleError,
      .proceed, .proceed, .getExpired 0, .runTimer, .connect .EINPROGRESS, .callFunctor] (by simp) 1
      (by decide +kernel)
    exact absurd hlost (by decide +kernel)
  · intro hall
    have hnothing := hall 0 1 1 [.runStart 1, .callFunctor, .connect .EINPROGRESS,
      .handleWrite false false, .proceed] [.queueStop 1, .cancel 1, .proceed] (by simp) (by simp)
      (by decide +kernel)
    exact absurd hnothing (by decide +kernel)

end Connector

end Mymuduo
