import Mymuduo.Lib.Transition
import Mymuduo.Net.PollTable

/-!
# What the pollers watch

A poller is meant to watch the channels that are registered, each for its declared events, and none
that declares no events (`Declared.interest`). Both fall short of it. `EPollPoller` takes every
update of a channel it does not watch for a reason to add it, also when the channel has no interest.
`PollPoller` never makes a negative descriptor positive again, watches a new channel without
interest, and does not reset the index of a channel it removes.

* `pollers_watch_declared`: each poller watches what is declared after every operation, as long as
  the operations keep clear of these cases.
* `pollers_watch_declared_fails`: both fail.
-/

namespace Mymuduo

open Transition

/-- The interest the owners of the channels declare. -/
structure Declared (ι : Type*) where
  channels : ι → Channel
  registered : ι → Bool
  everRegistered : ι → Bool

namespace Declared

variable {ι : Type*}

def new : Declared ι where
  channels := fun _ => ⟨Channel.kNoneEvent⟩
  registered := fun _ => false
  everRegistered := fun _ => false

/-- What is to be watched. -/
def interest (fd : ι → Nat) (d : Declared ι) : Set (Nat × Events) :=
  {w | ∃ c, d.registered c = true ∧ fd c = w.1 ∧ (d.channels c).events_ = w.2 ∧
    w.2 ≠ Channel.kNoneEvent}

theorem mem_interest {fd : ι → Nat} {d : Declared ι} {w : Nat × Events} :
    w ∈ d.interest fd ↔ ∃ c, d.registered c = true ∧ (d.channels c).isNoneEvent = false ∧
      w = (fd c, (d.channels c).events_) := by
  constructor
  · rintro ⟨c, hreg, hfd, hev, hne⟩
    refine ⟨c, hreg, ?_, by rw [hfd, hev]⟩
    rw [Channel.isNoneEvent, hev]
    exact beq_false_of_ne hne
  · rintro ⟨c, hreg, hsome, rfl⟩
    exact ⟨c, hreg, rfl, rfl, by simpa [Channel.isNoneEvent] using hsome⟩

/-- What `remove` asserts. -/
def Asserted (d : Declared ι) (e : ι × ChannelOp) : Prop :=
  e.2 = .remove → d.registered e.1 = true ∧ (d.channels e.1).isNoneEvent = true

/-- An update leaves a channel without interest only when it was watched before. -/
def EPollOk (d : Declared ι) (e : ι × ChannelOp) : Prop :=
  e.2 ≠ .remove → (e.2.apply (d.channels e.1)).isNoneEvent = true →
    d.registered e.1 = true ∧ (d.channels e.1).isNoneEvent = false

/-- A channel is registered once, with an interest, and has none again after it has lost it. -/
def PollOk (d : Declared ι) (e : ι × ChannelOp) : Prop :=
  e.2 ≠ .remove →
    if d.registered e.1 then
      (d.channels e.1).isNoneEvent = true → (e.2.apply (d.channels e.1)).isNoneEvent = true
    else d.everRegistered e.1 = false ∧ (e.2.apply (d.channels e.1)).isNoneEvent = false

instance (d : Declared ι) (e : ι × ChannelOp) : Decidable (d.Asserted e) :=
  inferInstanceAs (Decidable (_ → _))

instance (d : Declared ι) (e : ι × ChannelOp) : Decidable (d.EPollOk e) :=
  inferInstanceAs (Decidable (_ → _))

instance (d : Declared ι) (e : ι × ChannelOp) : Decidable (d.PollOk e) :=
  inferInstanceAs (Decidable (_ → _))

variable [DecidableEq ι]

/-- An update registers a channel, until it is removed. -/
def step (d : Declared ι) (e : ι × ChannelOp) : Declared ι :=
  if e.2 = .remove then { d with registered := Function.update d.registered e.1 false }
  else
    { channels := Function.update d.channels e.1 (e.2.apply (d.channels e.1))
      registered := Function.update d.registered e.1 true
      everRegistered := Function.update d.everRegistered e.1 true }

theorem step_remove (d : Declared ι) (c : ι) :
    d.step (c, .remove) = { d with registered := Function.update d.registered c false } := rfl

theorem step_update (d : Declared ι) (c : ι) {op : ChannelOp} (hop : op ≠ .remove) :
    d.step (c, op) =
      { channels := Function.update d.channels c (op.apply (d.channels c))
        registered := Function.update d.registered c true
        everRegistered := Function.update d.everRegistered c true } :=
  if_neg hop

/-- An update of a registered channel registers nothing. -/
theorem step_again {d : Declared ι} {c : ι} {op : ChannelOp} (hop : op ≠ .remove)
    (hreg : d.registered c = true) (hever : d.everRegistered c = true) :
    d.step (c, op) =
      { d with channels := Function.update d.channels c (op.apply (d.channels c)) } := by
  have hregs : Function.update d.registered c true = d.registered := by
    rw [← hreg]
    exact Function.update_eq_self c d.registered
  have hevers : Function.update d.everRegistered c true = d.everRegistered := by
    rw [← hever]
    exact Function.update_eq_self c d.everRegistered
  rw [step_update d c hop, hregs, hevers]

end Declared

/-! ## `EPollPoller` -/

namespace EPollPoller

variable {ι : Type*}

/-- What the kernel is told about a channel. -/
def entry (d : Declared ι) (c : ι) : Option (EpollEvent ι) :=
  if d.registered c = true ∧ (d.channels c).isNoneEvent = false then
    some ⟨(d.channels c).events_, c⟩
  else none

/-- The meaning of `index_`. -/
def place (d : Declared ι) (c : ι) : Int :=
  if d.registered c then if (d.channels c).isNoneEvent then kDeleted else kAdded else kNew

structure Follows (fd : ι → Nat) (d : Declared ι) (p : EPollPoller ι) : Prop where
  channels : p.channels = d.channels
  index : ∀ c, p.index_ c = place d c
  map : ∀ c, p.channels_ (fd c) = if d.registered c then some c else none
  watch : ∀ c, p.epollfd_ (fd c) = entry d c
  foreign : ∀ n, (∀ c, fd c ≠ n) → p.epollfd_ n = none
  aborted : p.aborted = false

theorem follows_new {fd : ι → Nat} : Follows fd (ι := ι) Declared.new new :=
  ⟨rfl, fun _ => rfl, fun _ => rfl, fun _ => rfl, fun _ _ => rfl, rfl⟩

theorem Follows.watched_eq {fd : ι → Nat} {d : Declared ι} {p : EPollPoller ι}
    (h : Follows fd d p) : p.watched = d.interest fd := by
  ext ⟨n, ev⟩
  rw [Declared.mem_interest]
  constructor
  · rintro ⟨event, hevent, rfl⟩
    obtain ⟨c, rfl⟩ : ∃ c, fd c = n := by
      by_contra hnot
      have hnone := h.foreign n (not_exists.mp hnot)
      simp [hnone] at hevent
    rw [h.watch, entry] at hevent
    split at hevent
    · next hin =>
      obtain rfl := Option.some.inj hevent
      exact ⟨c, hin.1, hin.2, rfl⟩
    · cases hevent
  · rintro ⟨c, hreg, hsome, heq⟩
    obtain ⟨rfl, rfl⟩ := Prod.mk.inj heq
    refine ⟨⟨(d.channels c).events_, c⟩, ?_, rfl⟩
    rw [h.watch, entry, if_pos ⟨hreg, hsome⟩]

variable [DecidableEq ι]

/-- What a step has to do to the interest list and to `index_` when it concerns the channel `c`. -/
theorem Follows.of_step {fd : ι → Nat} (hfd : Function.Injective fd) {d d' : Declared ι}
    {p p' : EPollPoller ι} (h : Follows fd d p) (c : ι)
    (hother : ∀ c', c' ≠ c → d'.registered c' = d.registered c' ∧ d'.channels c' = d.channels c')
    (hchannels : p'.channels = d'.channels)
    (hindex : p'.index_ = Function.update p.index_ c (place d' c))
    (hmap : p'.channels_ =
      Function.update p.channels_ (fd c) (if d'.registered c then some c else none))
    (hlist : p'.epollfd_ = Function.update p.epollfd_ (fd c) (entry d' c))
    (haborted : p'.aborted = p.aborted) : Follows fd d' p' := by
  refine ⟨hchannels, ?_, ?_, ?_, ?_, haborted.trans h.aborted⟩
  · intro c'
    rw [hindex]
    rcases eq_or_ne c' c with rfl | hne
    · rw [Function.update_self]
    · rw [Function.update_of_ne hne, h.index, place, place, (hother c' hne).1, (hother c' hne).2]
  · intro c'
    rw [hmap]
    rcases eq_or_ne c' c with rfl | hne
    · rw [Function.update_self]
    · rw [Function.update_of_ne (hfd.ne hne), h.map, (hother c' hne).1]
  · intro c'
    rw [hlist]
    rcases eq_or_ne c' c with rfl | hne
    · rw [Function.update_self]
    · rw [Function.update_of_ne (hfd.ne hne), h.watch, entry, entry, (hother c' hne).1,
        (hother c' hne).2]
  · intro n hn
    rw [hlist, Function.update_of_ne (hn c).symm]
    exact h.foreign n hn

/-- The poller follows what is declared. -/
theorem Follows.step {fd : ι → Nat} (hfd : Function.Injective fd) {d : Declared ι}
    {p : EPollPoller ι} (h : Follows fd d p) {e : ι × ChannelOp} (hassert : d.Asserted e)
    (hok : d.EPollOk e) : Follows fd (d.step e) (step fd p e) := by
  obtain ⟨c, op⟩ := e
  have hindex := h.index c
  have hwatch := h.watch c
  have hmap := h.map c
  by_cases hop : op = .remove
  · subst hop
    obtain ⟨hreg, hnone⟩ := hassert rfl
    rw [Declared.step_remove]
    refine h.of_step hfd c (fun c' hne => ⟨Function.update_of_ne hne .., rfl⟩) ?_ ?_ ?_ ?_ ?_ <;>
      simp [EPollPoller.step, removeChannel, hindex, place, entry, hreg, hnone, kDeleted, kAdded,
        h.channels, hwatch]
  · rw [Declared.step_update d c hop]
    have hother : ∀ c', c' ≠ c → Function.update d.registered c true c' = d.registered c' ∧
        Function.update d.channels c (op.apply (d.channels c)) c' = d.channels c' := fun c' hne =>
      ⟨Function.update_of_ne hne .., Function.update_of_ne hne ..⟩
    have hsteps : EPollPoller.step fd p (c, op) = updateChannel fd
        { p with channels := Function.update p.channels c (op.apply (p.channels c)) } c :=
      if_neg hop
    rw [hsteps, h.channels]
    cases hafter : (op.apply (d.channels c)).isNoneEvent with
    | true =>
      -- the channel was watched, and is deleted
      obtain ⟨hreg, hbefore⟩ := hok hop hafter
      have hadded : p.index_ c = kAdded := by simp [hindex, place, hreg, hbefore]
      have hlisted : p.epollfd_ (fd c) = some ⟨(d.channels c).events_, c⟩ := by
        simp [hwatch, entry, hreg, hbefore]
      have hmapped : p.channels_ (fd c) = some c := hmap.trans (if_pos hreg)
      refine h.of_step hfd c hother ?_ ?_ ?_ ?_ ?_ <;>
        simp [updateChannel, hadded, kAdded, kNew, kDeleted, hafter, update, epoll_ctl, hlisted,
          place, entry, hmapped]
    | false =>
      by_cases hin : d.registered c = true ∧ (d.channels c).isNoneEvent = false
      · have hadded : p.index_ c = kAdded := by simp [hindex, place, hin]
        have hlisted : p.epollfd_ (fd c) = some ⟨(d.channels c).events_, c⟩ := by
          simp [hwatch, entry, hin]
        have hmapped : p.channels_ (fd c) = some c := hmap.trans (if_pos hin.1)
        refine h.of_step hfd c hother ?_ ?_ ?_ ?_ ?_ <;>
          simp [updateChannel, hadded, kAdded, kNew, kDeleted, hafter, update, epoll_ctl, hlisted,
            place, entry, hmapped]
      · -- the channel was not watched, and is added
        have hlisted : p.epollfd_ (fd c) = none := by rw [hwatch, entry, if_neg hin]
        have hadd : p.index_ c = kNew ∨ p.index_ c = kDeleted ∧ p.channels_ (fd c) = some c := by
          rw [hindex, place]
          split
          · next hreg =>
            rw [if_pos (by simpa [hreg] using hin)]
            exact .inr ⟨rfl, hmap.trans (if_pos hreg)⟩
          · exact .inl rfl
        rcases hadd with hadd | ⟨hadd, hmapped⟩
        · refine h.of_step hfd c hother ?_ ?_ ?_ ?_ ?_ <;>
            simp [updateChannel, hadd, kAdded, kNew, hafter, update, epoll_ctl, hlisted, place,
              entry]
        · refine h.of_step hfd c hother ?_ ?_ ?_ ?_ ?_ <;>
            simp [updateChannel, hadd, kAdded, kNew, kDeleted, hafter, update, epoll_ctl, hlisted,
              place, entry, hmapped]

end EPollPoller

/-! ## `PollPoller` -/

namespace PollPoller

variable {ι : Type*}

/-- The element of `pollfds_` for a channel. -/
def pollfd (fd : ι → Nat) (d : Declared ι) (c : ι) : Pollfd where
  fd := if (d.channels c).isNoneEvent then -(fd c) - 1 else fd c
  events := (d.channels c).events_.setWidth 16

structure Follows (fd : ι → Nat) (d : Declared ι) (p : PollPoller ι) : Prop where
  channels : p.channels = d.channels
  ever : ∀ c, d.registered c = true → d.everRegistered c = true
  fresh : ∀ c, d.everRegistered c = false → p.index_ c = -1
  map : ∀ c, p.channels_ (fd c) = if d.registered c then some c else none
  slot : ∀ c, d.registered c = true →
    ∃ idx : Nat, p.index_ c = idx ∧ p.pollfds_[idx]? = some (pollfd fd d c)
  owner : ∀ idx < p.pollfds_.length, ∃ c, d.registered c = true ∧ p.index_ c = idx
  fits : ∀ c, (d.channels c).events_ ∈ [0, 3, 4, 7]

theorem follows_new {fd : ι → Nat} : Follows fd (ι := ι) Declared.new new :=
  ⟨rfl, nofun, fun _ _ => rfl, fun _ => rfl, nofun, nofun,
    fun _ => List.mem_cons_self⟩

/-- A channel is interested in nothing else than reading and writing. -/
theorem fits_apply {ch : Channel} (h : ch.events_ ∈ [0, 3, 4, 7]) (op : ChannelOp) :
    (op.apply ch).events_ ∈ [0, 3, 4, 7] := by
  obtain ⟨events_⟩ := ch
  simp only [List.mem_cons, List.not_mem_nil, or_false] at h
  rcases h with rfl | rfl | rfl | rfl <;> cases op <;> decide

/-- The `short` of a `pollfd` holds what a channel can be interested in. -/
theorem setWidth_of_fits {ev : Events} (h : ev ∈ [0, 3, 4, 7]) :
    (ev.setWidth 16).setWidth 32 = ev := by
  simp only [List.mem_cons, List.not_mem_nil, or_false] at h
  rcases h with rfl | rfl | rfl | rfl <;> rfl

theorem pollfd_fd {fd : ι → Nat} {d : Declared ι} {c : ι} {n : Nat} :
    (pollfd fd d c).fd = n ↔ (d.channels c).isNoneEvent = false ∧ fd c = n := by
  rw [pollfd]
  dsimp only
  split
  · next hnone => exact ⟨fun h => by omega, fun h => by simp [hnone] at h⟩
  · next hsome => exact ⟨fun h => ⟨by simpa using hsome, by omega⟩, fun h => by omega⟩

theorem names_pollfd (fd : ι → Nat) (d : Declared ι) (c : ι) : Names fd c (pollfd fd d c) := by
  unfold Names pollfd
  dsimp only
  split
  · exact .inr rfl
  · exact .inl rfl

theorem Follows.table {fd : ι → Nat} {d : Declared ι} {p : PollPoller ι} (h : Follows fd d p) :
    Table fd d.registered d.everRegistered p :=
  ⟨h.ever, h.fresh, h.map, fun c hc => ⟨pollfd fd d c, h.slot c hc, names_pollfd fd d c⟩, h.owner⟩

/-- What the poller follows besides keeping its table. -/
theorem Table.follows {fd : ι → Nat} {d : Declared ι} {p : PollPoller ι}
    (h : Table fd d.registered d.everRegistered p) (hchannels : p.channels = d.channels)
    (hslot : ∀ c, d.registered c = true → p.HasPollfd c (pollfd fd d c))
    (hfits : ∀ c, (d.channels c).events_ ∈ [0, 3, 4, 7]) : Follows fd d p :=
  ⟨hchannels, h.ever, h.fresh, h.map, hslot, h.owner, hfits⟩

theorem Follows.watched_eq {fd : ι → Nat} {d : Declared ι} {p : PollPoller ι}
    (h : Follows fd d p) : p.watched = d.interest fd := by
  ext ⟨n, ev⟩
  rw [Declared.mem_interest]
  constructor
  · rintro ⟨pfd, hm, hn, hev⟩
    obtain ⟨idx, hlt, hget⟩ := List.getElem_of_mem hm
    obtain ⟨c, hreg, hidx⟩ := h.owner idx hlt
    obtain ⟨idx', hidx', hget'⟩ := h.slot c hreg
    obtain rfl : idx = idx' := by omega
    obtain rfl : pfd = pollfd fd d c := by
      rw [List.getElem?_eq_getElem hlt, hget] at hget'
      exact Option.some.inj hget'
    obtain ⟨hsome, hfd⟩ := pollfd_fd.mp hn
    refine ⟨c, hreg, hsome, ?_⟩
    have hwidth : ((d.channels c).events_.setWidth 16).setWidth 32 = ev := hev
    rw [setWidth_of_fits (h.fits c)] at hwidth
    rw [hfd, hwidth]
  · rintro ⟨c, hreg, hsome, heq⟩
    obtain ⟨rfl, rfl⟩ := Prod.mk.inj heq
    obtain ⟨idx, -, hget⟩ := h.slot c hreg
    exact ⟨pollfd fd d c, List.mem_of_getElem? hget, pollfd_fd.mpr ⟨hsome, rfl⟩,
      setWidth_of_fits (h.fits c)⟩

variable [DecidableEq ι]

/-! ### One step -/

theorem Follows.remove {fd : ι → Nat} (hfd : Function.Injective fd) {d : Declared ι}
    {p : PollPoller ι} (h : Follows fd d p) {c : ι} (hreg : d.registered c = true) :
    Follows fd (d.step (c, .remove)) (removeChannel fd p c) := by
  obtain ⟨htable, hkeep⟩ := h.table.remove hfd hreg
  rw [Declared.step_remove]
  refine Table.follows htable ((channels_removeChannel c).trans h.channels) ?_ h.fits
  intro c' hc'
  obtain ⟨hne, hreg'⟩ := registered_remove.mp hc'
  exact hkeep c' hne hreg' _ (h.slot c' hreg')

/-- The elements of the other channels do not depend on the one that is updated. -/
theorem pollfd_update (fd : ι → Nat) (d : Declared ι) {c c' : ι} (hne : c' ≠ c) (ch : Channel)
    (registered everRegistered : ι → Bool) :
    pollfd fd ⟨Function.update d.channels c ch, registered, everRegistered⟩ c' =
      pollfd fd d c' := by
  simp [pollfd, Function.update_of_ne hne]

theorem fits_update {channels : ι → Channel} (h : ∀ c, (channels c).events_ ∈ [0, 3, 4, 7])
    (c : ι) (op : ChannelOp) (c' : ι) :
    (Function.update channels c (op.apply (channels c)) c').events_ ∈ [0, 3, 4, 7] := by
  rcases eq_or_ne c' c with rfl | hne
  · rw [Function.update_self]
    exact fits_apply (h c') op
  · rw [Function.update_of_ne hne]
    exact h c'

/-- A new channel goes to the end, with the descriptor that is watched. -/
theorem Follows.add {fd : ι → Nat} (hfd : Function.Injective fd) {d : Declared ι}
    {p : PollPoller ι} (h : Follows fd d p) {c : ι} {op : ChannelOp} (hop : op ≠ .remove)
    (hreg : d.registered c = false) (hever : d.everRegistered c = false)
    (hsome : (op.apply (d.channels c)).isNoneEvent = false) :
    Follows fd (d.step (c, op)) (updateChannel fd
      { p with channels := Function.update p.channels c (op.apply (p.channels c)) } c) := by
  rw [Declared.step_update d c hop, h.channels]
  obtain ⟨htable, hself, hkeep⟩ :=
    (h.table.withChannels (Function.update d.channels c (op.apply (d.channels c)))).add hfd hreg
      hever
  refine Table.follows htable (channels_updateChannel c) ?_ (fits_update h.fits c op)
  intro c' hc'
  rcases eq_or_ne c' c with rfl | hne
  · have hpfd : pollfd fd ⟨Function.update d.channels c' (op.apply (d.channels c')),
        Function.update d.registered c' true, Function.update d.everRegistered c' true⟩ c' =
        ⟨fd c', (op.apply (d.channels c')).events_.setWidth 16⟩ := by
      simp [pollfd, hsome]
    rw [hpfd]
    simpa using hself
  · rw [pollfd_update fd d hne]
    exact hkeep c' hne _ (h.slot c' ((Function.update_of_ne hne ..).symm.trans hc'))

/-- A registered channel keeps its element, whose descriptor is right unless interest comes back. -/
theorem Follows.modify {fd : ι → Nat} (hfd : Function.Injective fd) {d : Declared ι}
    {p : PollPoller ι} (h : Follows fd d p) {c : ι} {op : ChannelOp} (hop : op ≠ .remove)
    (hreg : d.registered c = true) (hstays : (d.channels c).isNoneEvent = true →
      (op.apply (d.channels c)).isNoneEvent = true) :
    Follows fd (d.step (c, op)) (updateChannel fd
      { p with channels := Function.update p.channels c (op.apply (p.channels c)) } c) := by
  rw [Declared.step_again hop hreg (h.ever c hreg), h.channels]
  obtain ⟨htable, hself, hkeep⟩ :=
    (h.table.withChannels (Function.update d.channels c (op.apply (d.channels c)))).modify hfd hreg
  refine Table.follows htable (channels_updateChannel c) ?_ (fits_update h.fits c op)
  intro c' hc'
  rcases eq_or_ne c' c with rfl | hne
  · have hat := hself (pollfd fd d c') (h.slot c' hc')
    have hpfd : updated fd
        { p with channels := Function.update d.channels c' (op.apply (d.channels c')) } c'
        (pollfd fd d c') = pollfd fd
        ⟨Function.update d.channels c' (op.apply (d.channels c')), d.registered,
          d.everRegistered⟩ c' := by
      simp only [updated, pollfd, Function.update_self, Pollfd.mk.injEq, and_true]
      cases hafter : (op.apply (d.channels c')).isNoneEvent with
      | true => rfl
      | false =>
        -- interest after the update was there before
        have hbefore : (d.channels c').isNoneEvent = false := by
          cases hb : (d.channels c').isNoneEvent with
          | true => simp [hstays hb] at hafter
          | false => rfl
        simp [hbefore]
    rw [← hpfd]
    exact hat
  · rw [pollfd_update fd d hne]
    exact hkeep c' hne hc' _ (h.slot c' hc')

/-- The poller follows what is declared. -/
theorem Follows.step {fd : ι → Nat} (hfd : Function.Injective fd) {d : Declared ι}
    {p : PollPoller ι} (h : Follows fd d p) {e : ι × ChannelOp} (hassert : d.Asserted e)
    (hok : d.PollOk e) : Follows fd (d.step e) (step fd p e) := by
  obtain ⟨c, op⟩ := e
  unfold PollPoller.step
  split
  · next hop =>
    obtain rfl : op = .remove := hop
    exact h.remove hfd (hassert rfl).1
  · next hop =>
    have hcond := hok hop
    split at hcond
    · next hreg => exact h.modify hfd hop hreg hcond
    · next hreg => exact h.add hfd hop (by simpa using hreg) hcond.1 hcond.2

end PollPoller

/-! ## Every sequence of operations -/

section Pollers

variable {ι : Type*} [DecidableEq ι]

/-- After every sequence of operations on channels with distinct descriptors, each poller watches
what is declared, provided the operations keep clear of what it gets wrong. -/
theorem pollers_watch_declared (fd : ι → Nat) (hfd : Function.Injective fd)
    (es : List (ι × ChannelOp)) (hassert : Meets Declared.Asserted Declared.step Declared.new es) :
    (Meets Declared.EPollOk Declared.step Declared.new es →
      (run (EPollPoller.step fd) .new es).watched =
        (run Declared.step Declared.new es).interest fd) ∧
    (Meets Declared.PollOk Declared.step Declared.new es →
      (run (PollPoller.step fd) .new es).watched =
        (run Declared.step Declared.new es).interest fd) := by
  constructor
  · intro hok
    have hstep : ∀ d p e, EPollPoller.Follows fd d p → d.Asserted e ∧ d.EPollOk e →
        EPollPoller.Follows fd (d.step e) (p.step fd e) :=
      fun _ _ _ h hok => h.step hfd hok.1 hok.2
    exact (run_simulation hstep EPollPoller.follows_new (hassert.and hok)).watched_eq
  · intro hok
    have hstep : ∀ d p e, PollPoller.Follows fd d p → d.Asserted e ∧ d.PollOk e →
        PollPoller.Follows fd (d.step e) (p.step fd e) :=
      fun _ _ _ h hok => h.step hfd hok.1 hok.2
    exact (run_simulation hstep PollPoller.follows_new (hassert.and hok)).watched_eq

end Pollers

/-- Two channels, of which the first gives up its interest and is removed. -/
theorem pollers_watch_declared_two :
    let es := [(0, .enableReading), (1, .enableReading), (1, .enableWriting), (0, .disableAll),
      (0, .remove), (1, .disableReading)]
    (run (EPollPoller.step (· + 3)) .new es).watched =
        (run (PollPoller.step (· + 3)) .new es).watched ∧
      (4, POLLOUT) ∈ (run (PollPoller.step (· + 3)) .new es).watched := by
  intro es
  obtain ⟨hepoll, hpoll⟩ := pollers_watch_declared (· + 3) (add_left_injective 3) es
    (by decide +kernel)
  have hdeclared : (4, POLLOUT) ∈ (run Declared.step Declared.new es).interest (· + 3) :=
    Declared.mem_interest.mpr ⟨1, by decide +kernel, by decide +kernel, by decide +kernel⟩
  rw [hepoll (by decide +kernel), hpoll (by decide +kernel)]
  exact ⟨rfl, hdeclared⟩

/-- A channel that is disabled twice is watched by `EPollPoller` again, for no events; one that is
enabled again is not watched by `PollPoller`. -/
theorem pollers_watch_declared_fails :
    (¬ ∀ es : List (Nat × ChannelOp), Meets Declared.Asserted Declared.step Declared.new es →
      (run (EPollPoller.step id) .new es).watched =
        (run Declared.step Declared.new es).interest id) ∧
    ¬ ∀ es : List (Nat × ChannelOp), Meets Declared.Asserted Declared.step Declared.new es →
      (run (PollPoller.step id) .new es).watched =
        (run Declared.step Declared.new es).interest id := by
  constructor
  · intro hall
    have heq := hall [(3, .enableReading), (3, .disableAll), (3, .disableAll)] (by decide +kernel)
    have hin : (3, Channel.kNoneEvent) ∈ (run Declared.step Declared.new
        [(3, .enableReading), (3, .disableAll), (3, .disableAll)]).interest id := by
      rw [← heq]
      exact ⟨⟨Channel.kNoneEvent, 3⟩, by decide +kernel, rfl⟩
    obtain ⟨c, -, -, -, hne⟩ := hin
    exact hne rfl
  · intro hall
    have heq := hall [(3, .enableReading), (3, .disableAll), (3, .enableReading)]
      (by decide +kernel)
    have hin : (3, Channel.kReadEvent) ∈ (run (PollPoller.step id) .new
        [(3, .enableReading), (3, .disableAll), (3, .enableReading)]).watched := by
      rw [heq]
      exact Declared.mem_interest.mpr ⟨3, by decide +kernel, by decide +kernel, by decide +kernel⟩
    obtain ⟨pfd, hm, hfd, -⟩ := hin
    have hlist : (run (PollPoller.step id) .new
        [(3, .enableReading), (3, .disableAll), (3, .enableReading)]).pollfds_ = [⟨-4, 3⟩] := by
      decide +kernel
    rw [hlist, List.mem_singleton] at hm
    subst hm
    cases hfd

end Mymuduo
