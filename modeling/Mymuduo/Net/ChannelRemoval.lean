import Mymuduo.Net.DeclaredInterest

/-!
# A channel that is taken down in order

The owner of a channel enables it for reading, switches its write interest on and off, disables it
once and removes it (`Stage`). Nothing is left of such a channel in either poller, however its
operations interleave with those on other channels.

* `run_stage`: what is true of a channel at each stage is true of it at the end.
* `EPollPoller.removed_of_orderly`, `PollPoller.removed_of_orderly`: the two pollers forget it.
-/

namespace Mymuduo

open Transition

/-- How far the owner of a channel got with it. -/
inductive Stage
  | fresh
  | opened
  | shut
  | gone

/-- The operations that leave the read interest alone. -/
def ChannelOp.isSwitch : ChannelOp → Bool
  | .enableWriting => true
  | .disableWriting => true
  | _ => false

namespace Stage

inductive Step : Stage → ChannelOp → Stage → Prop
  | enable : Step fresh .enableReading opened
  | switch (op : ChannelOp) (hop : op.isSwitch = true) : Step opened op opened
  | disable : Step opened .disableAll shut
  | remove : Step shut .remove gone

/-- The operations lead from the stage to the end. -/
def Left : Stage → List ChannelOp → Prop
  | gone, ops => ops = []
  | shut, ops => ops = [.remove]
  | opened, ops =>
    ∃ ws : List ChannelOp, (∀ op ∈ ws, op.isSwitch = true) ∧ ops = ws ++ [.disableAll, .remove]
  | fresh, ops =>
    ∃ ws : List ChannelOp, (∀ op ∈ ws, op.isSwitch = true) ∧
      ops = .enableReading :: (ws ++ [.disableAll, .remove])

theorem Left.cons {s : Stage} {op : ChannelOp} {ops : List ChannelOp} (h : s.Left (op :: ops)) :
    ∃ s', Step s op s' ∧ s'.Left ops := by
  cases s with
  | gone => cases h
  | shut =>
    obtain ⟨rfl, rfl⟩ := List.cons_eq_cons.mp h
    exact ⟨gone, .remove, rfl⟩
  | opened =>
    obtain ⟨ws, hws, heq⟩ := h
    cases ws with
    | nil =>
      obtain ⟨rfl, rfl⟩ := List.cons_eq_cons.mp heq
      exact ⟨shut, .disable, rfl⟩
    | cons w ws =>
      obtain ⟨rfl, rfl⟩ := List.cons_eq_cons.mp heq
      exact ⟨opened, .switch op (hws op List.mem_cons_self), ws,
        fun op' hop' => hws op' (List.mem_cons_of_mem _ hop'), rfl⟩
  | fresh =>
    obtain ⟨ws, hws, heq⟩ := h
    obtain ⟨rfl, rfl⟩ := List.cons_eq_cons.mp heq
    exact ⟨opened, .enable, ws, hws, rfl⟩

/-- No operation is left only at the end. -/
theorem Left.gone {s : Stage} (h : s.Left []) : s = gone := by
  cases s with
  | gone => rfl
  | shut => cases h
  | opened =>
    obtain ⟨ws, -, heq⟩ := h
    simp at heq
  | fresh =>
    obtain ⟨ws, -, heq⟩ := h
    cases heq

end Stage

section Own

variable {ι : Type*} [DecidableEq ι]

/-- The operations on the channel `x` among those on all channels. -/
def ownOps (x : ι) (all : List (ι × ChannelOp)) : List ChannelOp :=
  all.filterMap fun e => if e.1 = x then some e.2 else none

/-- What is true of a channel at each stage is true of it at the end, whatever happens to the other
channels in between. -/
theorem run_stage {σ : Type*} {step : σ → ι × ChannelOp → σ} {At : σ → Stage → Prop}
    {ok : σ → ι × ChannelOp → Prop} {x : ι}
    (hown : ∀ p s op s', At p s → Stage.Step s op s' → ok p (x, op) ∧ At (step p (x, op)) s')
    (hother : ∀ p s e, At p s → e.1 ≠ x → At (step p e) s) {p : σ} {s : Stage}
    {all : List (ι × ChannelOp)} (hat : At p s) (hleft : s.Left (ownOps x all))
    (hok : Meets (fun p e => e.1 ≠ x → ok p e) step p all) :
    Meets ok step p all ∧ At (run step p all) .gone := by
  induction all generalizing p s with
  | nil => exact ⟨trivial, hleft.gone ▸ hat⟩
  | cons e all ih =>
    obtain ⟨y, op⟩ := e
    rcases eq_or_ne y x with rfl | hne
    · have hops : ownOps y ((y, op) :: all) = op :: ownOps y all := by simp [ownOps]
      rw [hops] at hleft
      obtain ⟨s', hstep, hleft'⟩ := hleft.cons
      obtain ⟨hhere, hat'⟩ := hown p s op s' hat hstep
      obtain ⟨hthere, hgone⟩ := ih hat' hleft' hok.2
      exact ⟨⟨hhere, hthere⟩, hgone⟩
    · have hops : ownOps x ((y, op) :: all) = ownOps x all := by simp [ownOps, hne]
      rw [hops] at hleft
      obtain ⟨hthere, hgone⟩ := ih (hother p s (y, op) hat hne) hleft hok.2
      exact ⟨⟨hok.1 hne, hthere⟩, hgone⟩

end Own

/-- A channel that only reads and writes. -/
theorem Channel.isReading_switch (ch : Channel) {op : ChannelOp} (hop : op.isSwitch = true) :
    (op.apply ch).isReading = ch.isReading := by
  cases op with
  | enableWriting =>
    have hread : (ch.events_ ||| kWriteEvent) &&& kReadEvent = ch.events_ &&& kReadEvent := by
      have hzero : kWriteEvent &&& kReadEvent = 0 := by decide
      rw [BitVec.and_or_distrib_right, hzero]
      exact BitVec.or_zero
    simp only [ChannelOp.apply, isReading, Events.test, enableWriting, hread]
  | disableWriting =>
    have hread : (ch.events_ &&& ~~~kWriteEvent) &&& kReadEvent = ch.events_ &&& kReadEvent := by
      have hmask : ~~~kWriteEvent &&& kReadEvent = kReadEvent := by decide
      rw [BitVec.and_assoc, hmask]
    simp only [ChannelOp.apply, isReading, Events.test, disableWriting, hread]
  | _ => cases hop

theorem Channel.isReading_enableReading (ch : Channel) : ch.enableReading.isReading = true :=
  or_test ch.events_ (by decide)

/-- A channel that reads has an interest. -/
theorem Channel.not_isNoneEvent {ch : Channel} (h : ch.isReading = true) :
    ch.isNoneEvent = false := by
  refine beq_false_of_ne fun hnone => ?_
  rw [isReading, hnone] at h
  exact absurd h (by decide)

namespace EPollPoller

variable {ι : Type*}

/-- Nothing is left of the descriptor `n`. -/
def Forgets (p : EPollPoller ι) (n : Nat) : Prop :=
  p.channels_ n = none ∧ ∀ ev, (n, ev) ∉ p.watched

/-- The fields of the poller that are about the channel `x`. -/
def At (fd : ι → Nat) (x : ι) (p : EPollPoller ι) : Stage → Prop
  | .fresh => p.index_ x = kNew ∧ p.epollfd_ (fd x) = none
  | .opened => p.index_ x = kAdded ∧ (p.channels x).isReading = true ∧
      ∃ event, p.epollfd_ (fd x) = some event
  | .shut => p.index_ x = kDeleted ∧ p.epollfd_ (fd x) = none
  | .gone => p.channels_ (fd x) = none ∧ p.epollfd_ (fd x) = none

/-- `epoll_ctl(2)` concerns one descriptor, and nothing of the poller itself. -/
structure SameBut (n : Nat) (p p' : EPollPoller ι) : Prop where
  channels : p'.channels = p.channels
  index_ : p'.index_ = p.index_
  channels_ : p'.channels_ = p.channels_
  watch : ∀ m ≠ n, p'.epollfd_ m = p.epollfd_ m

theorem sameBut_update (fd : ι → Nat) (p : EPollPoller ι) (operation : EpollCtl) (channel : ι) :
    SameBut (fd channel) p (update fd p operation channel) := by
  unfold update
  split
  · next list hlist =>
    refine ⟨rfl, rfl, rfl, fun m hm => ?_⟩
    unfold epoll_ctl at hlist
    split at hlist <;> cases hlist <;> exact Function.update_of_ne hm ..
  · split <;> exact ⟨rfl, rfl, rfl, fun _ _ => rfl⟩

variable [DecidableEq ι]

/-- The operations on one channel leave the others as they are. -/
theorem At.other {fd : ι → Nat} (hfd : Function.Injective fd) {x : ι} {p : EPollPoller ι}
    {s : Stage} (h : At fd x p s) {e : ι × ChannelOp} (hne : e.1 ≠ x) :
    At fd x (step fd p e) s := by
  obtain ⟨y, op⟩ := e
  have hx : x ≠ y := Ne.symm hne
  have hfds : fd x ≠ fd y := hfd.ne hx
  have hsame : (step fd p (y, op)).channels x = p.channels x ∧
      (step fd p (y, op)).index_ x = p.index_ x ∧
      (step fd p (y, op)).channels_ (fd x) = p.channels_ (fd x) ∧
      (step fd p (y, op)).epollfd_ (fd x) = p.epollfd_ (fd x) := by
    by_cases hop : op = .remove
    · have hu := fun q => sameBut_update fd q .EPOLL_CTL_DEL y
      simp only [step, hop, if_true, removeChannel]
      split <;> simp [(hu _).channels, (hu _).index_, (hu _).channels_, (hu _).watch _ hfds, hx,
        hfds]
    · simp only [step, hop, if_false, updateChannel]
      have hu := fun q operation => sameBut_update fd q operation y
      split
      · split <;> simp [(hu _ _).channels, (hu _ _).channels_, (hu _ _).index_,
          (hu _ _).watch _ hfds, hx, hfds]
      · split <;> simp [(hu _ _).channels, (hu _ _).channels_, (hu _ _).index_,
          (hu _ _).watch _ hfds, hx]
  obtain ⟨hchannel, hindex, hmap, hwatch⟩ := hsame
  cases s <;> simpa only [At, hchannel, hindex, hmap, hwatch] using h

theorem At.step {fd : ι → Nat} {x : ι} {p : EPollPoller ι} {s s' : Stage} {op : ChannelOp}
    (h : At fd x p s) (hstep : Stage.Step s op s') : At fd x (step fd p (x, op)) s' := by
  cases hstep with
  | enable =>
    obtain ⟨hindex, hwatch⟩ := h
    have hread : (p.channels x).enableReading.isReading = true :=
      Channel.isReading_enableReading _
    simp [At, EPollPoller.step, updateChannel, update, epoll_ctl, hindex, hwatch, ChannelOp.apply,
      hread]
  | switch op hop =>
    obtain ⟨hindex, hread, event, hwatch⟩ := h
    have hread' : (op.apply (p.channels x)).isReading = true := by
      rw [Channel.isReading_switch _ hop, hread]
    have hne : op ≠ .remove := by
      rintro rfl
      cases hop
    simp [At, EPollPoller.step, updateChannel, update, epoll_ctl, hindex, hwatch, hread', hne,
      Channel.not_isNoneEvent hread', kAdded, kNew, kDeleted]
  | disable =>
    obtain ⟨hindex, -, event, hwatch⟩ := h
    have hnone : (p.channels x).disableAll.isNoneEvent = true := beq_self_eq_true _
    simp [At, EPollPoller.step, updateChannel, update, epoll_ctl, hindex, hwatch, ChannelOp.apply,
      hnone, kAdded, kNew, kDeleted]
  | remove =>
    obtain ⟨hindex, hwatch⟩ := h
    simp [At, EPollPoller.step, removeChannel, hindex, hwatch, kAdded, kDeleted]

/-- A channel that is taken down in order leaves nothing behind, whatever happens to the others. -/
theorem removed_of_orderly {fd : ι → Nat} (hfd : Function.Injective fd) {x : ι}
    {all : List (ι × ChannelOp)} (hleft : Stage.fresh.Left (ownOps x all)) :
    (run (step fd) new all).Forgets (fd x) := by
  have hnew : At fd x new .fresh := ⟨rfl, rfl⟩
  have hown : ∀ p s op s', At fd x p s → Stage.Step s op s' →
      (fun _ _ => True : EPollPoller ι → ι × ChannelOp → Prop) p (x, op) ∧
        At fd x (step fd p (x, op)) s' := fun _ _ _ _ h hs => ⟨trivial, h.step hs⟩
  obtain ⟨-, hmap, hwatch⟩ := run_stage hown (fun p s e h hne => h.other hfd hne) hnew hleft
    (meets_of_forall fun _ _ _ => trivial)
  refine ⟨hmap, ?_⟩
  rintro ev ⟨event, hevent, -⟩
  simp [hwatch] at hevent

end EPollPoller

namespace PollPoller

variable {ι : Type*} [DecidableEq ι]

/-- Nothing is left of the descriptor `n`. -/
def Forgets (p : PollPoller ι) (n : Nat) : Prop :=
  p.channels_ n = none ∧ ∀ ev, (n, ev) ∉ p.watched

/-- What is declared about the channel `x`. -/
def At (x : ι) (d : Declared ι) : Stage → Prop
  | .fresh => d.registered x = false ∧ d.everRegistered x = false
  | .opened => d.registered x = true ∧ (d.channels x).isReading = true
  | .shut => d.registered x = true ∧ (d.channels x).isNoneEvent = true
  | .gone => d.registered x = false

theorem At.other {x : ι} {d : Declared ι} {s : Stage} (h : At x d s) {e : ι × ChannelOp}
    (hne : e.1 ≠ x) : At x (d.step e) s := by
  obtain ⟨y, op⟩ := e
  have hx : x ≠ y := Ne.symm hne
  by_cases hop : op = .remove
  · subst hop
    rw [Declared.step_remove]
    cases s <;> simpa [At, hx] using h
  · rw [Declared.step_update d y hop]
    cases s <;> simpa [At, hx] using h

theorem At.step {x : ι} {d : Declared ι} {s s' : Stage} {op : ChannelOp} (h : At x d s)
    (hstep : Stage.Step s op s') :
    (d.Asserted (x, op) ∧ d.PollOk (x, op)) ∧ At x (d.step (x, op)) s' := by
  cases hstep with
  | enable =>
    obtain ⟨hreg, hever⟩ := h
    have hread : (d.channels x).enableReading.isReading = true :=
      Channel.isReading_enableReading _
    simp [Declared.Asserted, Declared.PollOk, Declared.step, At, ChannelOp.apply, hreg, hever,
      hread, Channel.not_isNoneEvent hread]
  | switch op hop =>
    obtain ⟨hreg, hread⟩ := h
    have hread' : (op.apply (d.channels x)).isReading = true := by
      rw [Channel.isReading_switch _ hop, hread]
    have hne : op ≠ .remove := by
      rintro rfl
      cases hop
    simp [Declared.Asserted, Declared.PollOk, Declared.step, At, hreg, hne, hread',
      Channel.not_isNoneEvent hread]
  | disable =>
    obtain ⟨hreg, hread⟩ := h
    have hnone : (d.channels x).disableAll.isNoneEvent = true := beq_self_eq_true _
    simp [Declared.Asserted, Declared.PollOk, Declared.step, At, ChannelOp.apply, hreg, hnone]
  | remove =>
    obtain ⟨hreg, hnone⟩ := h
    simp [Declared.Asserted, Declared.PollOk, Declared.step, At, hreg, hnone]

/-- A channel that is taken down in order leaves nothing behind, as long as the poller does not lose
track of the others. -/
theorem removed_of_orderly {fd : ι → Nat} (hfd : Function.Injective fd) {x : ι}
    {all : List (ι × ChannelOp)} (hleft : Stage.fresh.Left (ownOps x all))
    (hothers : Meets (fun d e => e.1 ≠ x → Declared.Asserted d e ∧ Declared.PollOk d e)
      Declared.step .new all) :
    (run (step fd) new all).Forgets (fd x) := by
  have hnew : At x Declared.new .fresh := ⟨rfl, rfl⟩
  obtain ⟨hok, hgone⟩ := run_stage (fun d s op s' h hs => h.step hs)
    (fun d s e h hne => h.other hne) hnew hleft hothers
  have hgone' : (run Declared.step Declared.new all).registered x = false := hgone
  have hstep : ∀ d p e, Follows fd d p → d.Asserted e ∧ d.PollOk e →
      Follows fd (d.step e) (p.step fd e) := fun _ _ _ h hok => h.step hfd hok.1 hok.2
  have hfollows := run_simulation hstep follows_new hok
  refine ⟨by rw [hfollows.map, hgone']; rfl, ?_⟩
  intro ev hev
  rw [hfollows.watched_eq, Declared.mem_interest] at hev
  obtain ⟨c, hreg, -, heq⟩ := hev
  obtain rfl : x = c := hfd (Prod.mk.inj heq).1
  simp [hgone'] at hreg

end PollPoller

end Mymuduo
