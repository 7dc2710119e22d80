import Mymuduo.Net.DeclaredInterest
import Mathlib.Data.Set.Card

/-!
# `poll` of the pollers

What the kernel answers to the pollers and what they hand to the loop. `ready n` are the events of
the descriptor `n`. `poll(2)` answers for every element of `pollfds_`; `epoll_wait(2)` fills
`events_` with the entries it chooses when there are more, and the poller then makes `events_` twice
as long.

* `pollers_agree`: both report every channel that has events, once, with the same events, as long as
  `events_` is long enough.
* `truncated_polls`: how often in a run it was not.
-/

namespace Mymuduo

open Transition

/-- What the kernel reports to who is interested in `events`. -/
def reported (ready events : Events) : Events := ready &&& (events ||| POLLERR ||| POLLHUP)

namespace Declared

/-- The channels that have something to report, with the events. -/
def active {ι : Type*} (fd : ι → Nat) (d : Declared ι) (ready : Nat → Events) : Set (ι × Events) :=
  {w | d.registered w.1 = true ∧ (d.channels w.1).isNoneEvent = false ∧
    w.2 = reported (ready (fd w.1)) (d.channels w.1).events_ ∧ w.2 ≠ 0}

end Declared

/-! ## `EPollPoller` -/

namespace EPollPoller

variable {ι : Type*}

/-- What `epoll_wait(2)` can fill `maxevents` elements with. -/
structure EpollWait (list : Nat → Option (EpollEvent ι)) (ready : Nat → Events) (maxevents : Nat)
    (answer : List (EpollEvent ι)) : Prop where
  once : (answer.map EpollEvent.ptr).Nodup
  sound : ∀ e ∈ answer, ∃ n event, list n = some event ∧
    e = ⟨reported (ready n) event.events, event.ptr⟩ ∧ e.events ≠ 0
  fits : answer.length ≤ maxevents
  all : answer.length < maxevents → ∀ n event, list n = some event →
    reported (ready n) event.events ≠ 0 → ⟨reported (ready n) event.events, event.ptr⟩ ∈ answer

def kInitEventListSize : Nat := 16

/-- Each channel with what `set_revents` gets. -/
def fillActiveChannels (events : List (EpollEvent ι)) : List (ι × Events) :=
  events.map fun e => (e.ptr, e.events)

/-- `poll` with `events_.size()`; `epoll_wait` fails or fills `events_`. -/
def poll (size : Nat) : Option (List (EpollEvent ι)) → List (ι × Events) × Nat
  | none => ([], size)
  | some events =>
    if 0 < events.length then
      (fillActiveChannels events, if events.length = size then size * 2 else size)
    else ([], size)

end EPollPoller

/-! ## `PollPoller` -/

namespace PollPoller

variable {ι : Type*}

/-- What `poll(2)` puts into `revents`. -/
def revents (ready : Nat → Events) (pfd : Pollfd) : BitVec 16 :=
  if pfd.fd < 0 then 0
  else (reported (ready pfd.fd.toNat) (pfd.events.setWidth 32)).setWidth 16

def fillActiveChannels (channels_ : Nat → Option ι) :
    List (Pollfd × BitVec 16) → Int → List (ι × Events)
  | [], _ => []
  | (pfd, revents) :: pfds, numEvents =>
    if 0 < numEvents then
      if 0 < revents.toInt then
        match channels_ pfd.fd.toNat with
        | some channel =>
          (channel, revents.signExtend 32) :: fillActiveChannels channels_ pfds (numEvents - 1)
        | none => fillActiveChannels channels_ pfds (numEvents - 1)
      else fillActiveChannels channels_ pfds numEvents
    else []

/-- `pollfds_` as `poll(2)` leaves it. -/
def polled (ready : Nat → Events) (p : PollPoller ι) : List (Pollfd × BitVec 16) :=
  p.pollfds_.map fun pfd => (pfd, revents ready pfd)

/-- `poll`, unless `poll(2)` fails. -/
def poll (ready : Nat → Events) (p : PollPoller ι) : List (ι × Events) :=
  fillActiveChannels p.channels_ (polled ready p) ((polled ready p).countP fun w => w.2 ≠ 0)

/-- What one element adds. -/
def activeOf (channels_ : Nat → Option ι) (w : Pollfd × BitVec 16) : Option (ι × Events) :=
  if 0 < w.2.toInt then (channels_ w.1.fd.toNat).map fun channel => (channel, w.2.signExtend 32)
  else none

/-- The loop ends early only behind the last element with events. -/
theorem fillActiveChannels_eq (channels_ : Nat → Option ι) (pfds : List (Pollfd × BitVec 16))
    {numEvents : Int} (h : (pfds.countP fun w => 0 < w.2.toInt : Int) ≤ numEvents) :
    fillActiveChannels channels_ pfds numEvents = pfds.filterMap (activeOf channels_) := by
  induction pfds generalizing numEvents with
  | nil => rfl
  | cons w pfds ih =>
    obtain ⟨pfd, revents⟩ := w
    rw [List.countP_cons] at h
    rw [fillActiveChannels, List.filterMap_cons]
    by_cases hpos : 0 < revents.toInt
    · have hmore : (pfds.countP (fun w => 0 < w.2.toInt) : Int) ≤ numEvents - 1 := by
        simp only [hpos, decide_true, if_true] at h
        omega
      have hstill : 0 < numEvents := by
        have := Int.natCast_nonneg (pfds.countP fun w => 0 < w.2.toInt)
        omega
      rw [if_pos hstill, if_pos hpos, activeOf, if_pos hpos]
      cases channels_ pfd.fd.toNat with
      | none => exact ih hmore
      | some channel => exact congrArg _ (ih hmore)
    · have hmore : (pfds.countP (fun w => 0 < w.2.toInt) : Int) ≤ numEvents := by
        simpa [hpos] using h
      rw [activeOf, if_neg hpos, if_neg hpos]
      split
      · exact ih hmore
      · next hdone =>
        have hnone : pfds.countP (fun w => 0 < w.2.toInt) = 0 := by omega
        symm
        rw [List.filterMap_eq_nil_iff]
        intro w hw
        have hzero := List.countP_eq_zero.mp hnone w hw
        rw [activeOf, if_neg (by simpa using hzero)]

/-! ### What is reported fits `revents` -/

/-- Nothing but the lowest five bits is reported to a channel. -/
theorem reported_toNat_lt {ready ev : Events} (h : ev ∈ [0, 3, 4, 7]) :
    (reported ready ev).toNat < 32 := by
  have hle : ∀ mask : Events, mask.toNat < 32 → (ready &&& mask).toNat < 32 := fun mask hmask => by
    rw [BitVec.toNat_and]
    exact Nat.and_le_right.trans_lt hmask
  simp only [List.mem_cons, List.not_mem_nil, or_false] at h
  rcases h with rfl | rfl | rfl | rfl <;> exact hle _ (by decide)

theorem setWidth_reported {e : Events} (h : e.toNat < 32) :
    ((e.setWidth 16).toInt = e.toNat) ∧ (e.setWidth 16).signExtend 32 = e := by
  have hnat : (e.setWidth 16).toNat = e.toNat := by
    rw [BitVec.toNat_setWidth, Nat.mod_eq_of_lt (by omega)]
  have hmsb : (e.setWidth 16).msb = false := by
    rw [BitVec.msb_eq_false_iff_two_mul_lt, hnat]
    omega
  constructor
  · rw [BitVec.toInt_eq_toNat_of_msb hmsb, hnat]
  · rw [BitVec.signExtend_eq_setWidth_of_msb_false hmsb]
    apply BitVec.eq_of_toNat_eq
    rw [BitVec.toNat_setWidth, hnat, Nat.mod_eq_of_lt (by omega)]

/-! ### The channels of the elements -/

theorem Follows.mem_pollfds {fd : ι → Nat} {d : Declared ι} {p : PollPoller ι} (h : Follows fd d p)
    {pfd : Pollfd} : pfd ∈ p.pollfds_ ↔ ∃ c, d.registered c = true ∧ pfd = pollfd fd d c := by
  constructor
  · intro hm
    obtain ⟨idx, hlt, hget⟩ := List.getElem_of_mem hm
    obtain ⟨c, hreg, hidx⟩ := h.owner idx hlt
    obtain ⟨idx', hidx', hget'⟩ := h.slot c hreg
    obtain rfl : idx = idx' := Int.ofNat.inj (hidx.symm.trans hidx')
    rw [List.getElem?_eq_getElem hlt, hget] at hget'
    exact ⟨c, hreg, Option.some.inj hget'⟩
  · rintro ⟨c, hreg, rfl⟩
    obtain ⟨idx, -, hget⟩ := h.slot c hreg
    exact List.mem_of_getElem? hget

theorem Follows.nodup_pollfds {fd : ι → Nat} (hfd : Function.Injective fd) {d : Declared ι}
    {p : PollPoller ι} (h : Follows fd d p) : p.pollfds_.Nodup := by
  refine List.nodup_iff_injective_getElem.mpr fun i j heq => ?_
  obtain ⟨c, hreg, hidx⟩ := h.owner i i.isLt
  obtain ⟨c', hreg', hidx'⟩ := h.owner j j.isLt
  have hat : p.HasPollfd c p.pollfds_[i] := ⟨i, hidx, List.getElem?_eq_getElem i.isLt⟩
  have hat' : p.HasPollfd c' p.pollfds_[j] := ⟨j, hidx', List.getElem?_eq_getElem j.isLt⟩
  have hpfd : p.pollfds_[i] = pollfd fd d c := hat.unique (h.slot c hreg)
  have hpfd' : p.pollfds_[j] = pollfd fd d c' := hat'.unique (h.slot c' hreg')
  have hsame : pollfd fd d c = pollfd fd d c' := hpfd.symm.trans (heq.trans hpfd')
  have hnames : Names fd c (pollfd fd d c') := hsame ▸ names_pollfd fd d c
  obtain rfl : c = c' := hnames.inj hfd (names_pollfd fd d c')
  exact Fin.ext (Int.ofNat.inj (hidx.symm.trans hidx'))

/-- What the element of a channel adds. -/
theorem activeOf_pollfd {fd : ι → Nat} {d : Declared ι} {p : PollPoller ι} (h : Follows fd d p)
    {c : ι} (hreg : d.registered c = true) (ready : Nat → Events) (w : ι × Events) :
    activeOf p.channels_ (pollfd fd d c, revents ready (pollfd fd d c)) = some w ↔
      w.1 = c ∧ w ∈ d.active fd ready := by
  cases hnone : (d.channels c).isNoneEvent with
  | true =>
    have hskipped : revents ready (pollfd fd d c) = 0 := by
      have hneg : (pollfd fd d c).fd < 0 := by
        rw [pollfd, hnone]
        simp only [if_true]
        omega
      rw [revents, if_pos hneg]
    have hzero : ¬ 0 < (0 : BitVec 16).toInt := by decide
    rw [activeOf, hskipped, if_neg hzero]
    refine iff_of_false (by simp) ?_
    rintro ⟨rfl, -, hsome, -⟩
    rw [hnone] at hsome
    cases hsome
  | false =>
    obtain ⟨ch, ev⟩ := w
    have hlt : (reported (ready (fd c)) (d.channels c).events_).toNat < 32 :=
      reported_toNat_lt (h.fits c)
    have hfit := setWidth_reported hlt
    have hpfd : pollfd fd d c = ⟨fd c, (d.channels c).events_.setWidth 16⟩ := by
      rw [pollfd, hnone]
      rfl
    have hrevents : revents ready (pollfd fd d c) =
        (reported (ready (fd c)) (d.channels c).events_).setWidth 16 := by
      rw [hpfd, revents, if_neg (Int.not_lt.mpr (Int.natCast_nonneg _)), Int.toNat_natCast,
        setWidth_of_fits (h.fits c)]
    have hmap : p.channels_ (pollfd fd d c).fd.toNat = some c := by
      rw [hpfd, Int.toNat_natCast, h.map, if_pos hreg]
    have hpos : 0 < (revents ready (pollfd fd d c)).toInt ↔
        reported (ready (fd c)) (d.channels c).events_ ≠ 0 := by
      rw [hrevents, hfit.1, Int.natCast_pos, Nat.pos_iff_ne_zero, Ne, Ne,
        ← BitVec.toNat_inj]
      rfl
    rw [activeOf, hmap, Option.map_some]
    simp only [hrevents, hfit.2] at hpos ⊢
    split
    · next hmore =>
      have hne := hpos.mp hmore
      constructor
      · intro heq
        obtain ⟨rfl, rfl⟩ := Prod.mk.inj (Option.some.inj heq)
        exact ⟨rfl, hreg, hnone, rfl, hne⟩
      · rintro ⟨rfl, -, -, hev, -⟩
        exact congrArg (fun e => some (ch, e)) hev.symm
    · next hzero =>
      refine iff_of_false (by simp) ?_
      rintro ⟨rfl, -, -, hev, hne⟩
      exact hzero (hpos.mpr (hev ▸ hne))

theorem poll_eq (p : PollPoller ι) (ready : Nat → Events) :
    poll ready p = (polled ready p).filterMap (activeOf p.channels_) := by
  refine fillActiveChannels_eq p.channels_ _ (Int.ofNat_le.mpr ?_)
  refine List.countP_mono_left fun w _ hpos => ?_
  simp only [decide_eq_true_eq] at hpos ⊢
  rintro hzero
  rw [hzero] at hpos
  exact absurd hpos (by decide)

/-- Every channel that has events is reported, and no other. -/
theorem Follows.mem_poll {fd : ι → Nat} {d : Declared ι} {p : PollPoller ι} (h : Follows fd d p)
    (ready : Nat → Events) (w : ι × Events) : w ∈ poll ready p ↔ w ∈ d.active fd ready := by
  rw [poll_eq, List.mem_filterMap]
  constructor
  · rintro ⟨_, hm, hactive⟩
    obtain ⟨pfd, hpfd, rfl⟩ := List.mem_map.mp hm
    obtain ⟨c, hreg, rfl⟩ := h.mem_pollfds.mp hpfd
    exact ((activeOf_pollfd h hreg ready w).mp hactive).2
  · intro hw
    have hreg : d.registered w.1 = true := hw.1
    have hm : pollfd fd d w.1 ∈ p.pollfds_ := h.mem_pollfds.mpr ⟨w.1, hreg, rfl⟩
    exact ⟨_, List.mem_map_of_mem hm, (activeOf_pollfd h hreg ready w).mpr ⟨rfl, hw⟩⟩

/-- No channel is reported twice. -/
theorem Follows.nodup_poll {fd : ι → Nat} (hfd : Function.Injective fd) {d : Declared ι}
    {p : PollPoller ι} (h : Follows fd d p) (ready : Nat → Events) :
    ((poll ready p).map Prod.fst).Nodup := by
  rw [poll_eq, polled, List.filterMap_map, List.Nodup, List.pairwise_map, List.pairwise_filterMap]
  refine (h.nodup_pollfds hfd).imp_of_mem fun hm hm' hne w hw w' hw' heq => hne ?_
  obtain ⟨c, hreg, rfl⟩ := h.mem_pollfds.mp hm
  obtain ⟨c', hreg', rfl⟩ := h.mem_pollfds.mp hm'
  have hc := ((activeOf_pollfd h hreg ready w).mp hw).1
  have hc' := ((activeOf_pollfd h hreg' ready w').mp hw').1
  rw [← hc, ← hc', heq]

end PollPoller

/-! ## What `EPollPoller` reports -/

namespace EPollPoller

variable {ι : Type*} {fd : ι → Nat} {d : Declared ι} {p : EPollPoller ι} {ready : Nat → Events}

/-- What the interest list has to report. -/
theorem Follows.mem_active (h : Follows fd d p) {w : ι × Events} :
    w ∈ d.active fd ready ↔ ∃ n event, p.epollfd_ n = some event ∧
      w = (event.ptr, reported (ready n) event.events) ∧ w.2 ≠ 0 := by
  constructor
  · rintro ⟨hreg, hsome, hev, hne⟩
    refine ⟨fd w.1, ⟨(d.channels w.1).events_, w.1⟩, ?_, Prod.ext rfl hev, hne⟩
    rw [h.watch, entry, if_pos ⟨hreg, hsome⟩]
  · rintro ⟨n, event, hlist, rfl, hne⟩
    obtain ⟨c, rfl⟩ : ∃ c, fd c = n := by
      by_contra hnot
      have hnone := h.foreign n (not_exists.mp hnot)
      rw [hlist] at hnone
      cases hnone
    rw [h.watch, entry] at hlist
    split at hlist
    · next hin =>
      obtain rfl := Option.some.inj hlist
      exact ⟨hin.1, hin.2, rfl, hne⟩
    · cases hlist

/-- Only what is to be reported is reported, each channel once, and all of it if there is room. -/
theorem Follows.poll (h : Follows fd d p) {size : Nat} {answer : List (EpollEvent ι)}
    (hwait : EpollWait p.epollfd_ ready size answer) :
    ((EPollPoller.poll size (some answer)).1.map Prod.fst).Nodup ∧
      (∀ w ∈ (EPollPoller.poll size (some answer)).1, w ∈ d.active fd ready) ∧
      (answer.length < size → ∀ w ∈ d.active fd ready,
        w ∈ (EPollPoller.poll size (some answer)).1) := by
  have hpoll : (EPollPoller.poll size (some answer)).1 = fillActiveChannels answer := by
    rw [EPollPoller.poll]
    split
    · rfl
    · next hempty =>
      rw [List.eq_nil_of_length_eq_zero (Nat.eq_zero_of_not_pos hempty)]
      rfl
  rw [hpoll]
  refine ⟨?_, fun w hw => ?_, fun hroom w hw => ?_⟩
  · rw [fillActiveChannels, List.map_map]
    exact hwait.once
  · obtain ⟨e, he, rfl⟩ := List.mem_map.mp hw
    obtain ⟨n, event, hlist, rfl, hne⟩ := hwait.sound e he
    exact h.mem_active.mpr ⟨n, event, hlist, rfl, hne⟩
  · obtain ⟨n, event, hlist, rfl, hne⟩ := h.mem_active.mp hw
    exact List.mem_map_of_mem (hwait.all hroom n event hlist hne)

end EPollPoller

section Agree

variable {ι : Type*} [DecidableEq ι]

/-- After every sequence of operations that keeps clear of what the pollers get wrong, `PollPoller`
reports every channel that has events, once and with these, and `EPollPoller` does the same unless
its `events_` is full. -/
theorem pollers_agree (fd : ι → Nat) (hfd : Function.Injective fd) (es : List (ι × ChannelOp))
    (hassert : Meets Declared.Asserted Declared.step Declared.new es)
    (hepoll : Meets Declared.EPollOk Declared.step Declared.new es)
    (hpoll : Meets Declared.PollOk Declared.step Declared.new es) (ready : Nat → Events)
    (size : Nat) (answer : List (EpollEvent ι))
    (hwait : EPollPoller.EpollWait (run (EPollPoller.step fd) .new es).epollfd_ ready size
      answer) :
    let reports := (run (PollPoller.step fd) .new es).poll ready
    (reports.map Prod.fst).Nodup ∧
      (∀ w, w ∈ reports ↔ w ∈ (run Declared.step Declared.new es).active fd ready) ∧
      (answer.length < size → (EPollPoller.poll size (some answer)).1.Perm reports) ∧
      (EPollPoller.poll size (some answer)).1 ⊆ reports := by
  intro reports
  have hstep : ∀ d p e, PollPoller.Follows fd d p → d.Asserted e ∧ d.PollOk e →
      PollPoller.Follows fd (d.step e) (p.step fd e) :=
    fun _ _ _ h hok => h.step hfd hok.1 hok.2
  have hfollows := run_simulation hstep PollPoller.follows_new (hassert.and hpoll)
  have hestep : ∀ d p e, EPollPoller.Follows fd d p → d.Asserted e ∧ d.EPollOk e →
      EPollPoller.Follows fd (d.step e) (p.step fd e) :=
    fun _ _ _ h hok => h.step hfd hok.1 hok.2
  have hefollows := run_simulation hestep EPollPoller.follows_new (hassert.and hepoll)
  have hnodup := hfollows.nodup_poll hfd ready
  have hmem := hfollows.mem_poll ready
  obtain ⟨honce, hsound, hall⟩ := hefollows.poll hwait
  refine ⟨hnodup, hmem, fun hroom => ?_, fun w hw => (hmem w).mpr (hsound w hw)⟩
  refine (List.perm_ext_iff_of_nodup honce.of_map hnodup.of_map).mpr fun w => ?_
  exact ⟨fun hw => (hmem w).mpr (hsound w hw), fun hw => hall hroom w ((hmem w).mp hw)⟩

end Agree

/-- The descriptor 4 is readable. -/
def readable (n : Nat) : Events := if n = 4 then POLLIN else 0

/-- The only channel in the interest list is readable. -/
theorem epollWait_one {size : Nat} (hsize : 0 < size) :
    EPollPoller.EpollWait (Function.update (fun _ => none) 4 (some ⟨Channel.kReadEvent, 1⟩))
      readable size [(⟨POLLIN, 1⟩ : EpollEvent Nat)] := by
  have hlist : ∀ n event, Function.update (fun _ => none) 4
      (some (⟨Channel.kReadEvent, 1⟩ : EpollEvent Nat)) n = some event →
      n = 4 ∧ event = ⟨Channel.kReadEvent, 1⟩ := fun n event h => by
    rcases eq_or_ne n 4 with rfl | hne
    · rw [Function.update_self] at h
      exact ⟨rfl, (Option.some.inj h).symm⟩
    · rw [Function.update_of_ne hne] at h
      cases h
  refine ⟨List.nodup_singleton _, fun e he => ?_, hsize, fun _ n event h _ => ?_⟩
  · rw [List.mem_singleton.mp he]
    exact ⟨4, ⟨Channel.kReadEvent, 1⟩, Function.update_self .., by decide, by decide⟩
  · obtain ⟨rfl, rfl⟩ := hlist n event h
    exact List.mem_singleton.mpr (by decide)

theorem pollers_agree_one :
    (run (PollPoller.step (· + 3)) .new [(1, .enableReading)]).poll readable = [(1, POLLIN)] := by
  have hwait : EPollPoller.EpollWait
      (run (EPollPoller.step (· + 3)) .new [(1, .enableReading)]).epollfd_ readable 16
      [(⟨POLLIN, 1⟩ : EpollEvent Nat)] := epollWait_one (by decide)
  have hagree := pollers_agree (· + 3) (add_left_injective 3) [(1, .enableReading)]
    (by decide +kernel) (by decide +kernel) (by decide +kernel) readable 16 _ hwait
  exact List.perm_singleton.mp (hagree.2.2.1 (by decide)).symm

/-! ## How often `events_` is full -/

namespace EPollPoller

variable {ι : Type*}

/-- The poller with `events_.size()`. -/
structure Polls (ι : Type*) where
  poller : EPollPoller ι
  size : Nat

/-- An operation on a channel, or `poll` with what `epoll_wait` returns. -/
inductive PollEvent (ι : Type*)
  | update (e : ι × ChannelOp)
  | poll (ready : Nat → Events) (numEvents : Option (List (EpollEvent ι)))

namespace Polls

def new : Polls ι := ⟨.new, kInitEventListSize⟩

/-- The kernel answers for its interest list. -/
def Answered (s : Polls ι) : PollEvent ι → Prop
  | .update _ => True
  | .poll ready numEvents => ∀ answer ∈ numEvents, EpollWait s.poller.epollfd_ ready s.size answer

/-- A channel that has events is not reported. -/
def Truncated (s : Polls ι) : PollEvent ι → Prop
  | .update _ => False
  | .poll ready numEvents => ∃ answer ∈ numEvents, ∃ n event, s.poller.epollfd_ n = some event ∧
    reported (ready n) event.events ≠ 0 ∧
      ⟨reported (ready n) event.events, event.ptr⟩ ∉ answer

variable [DecidableEq ι]

def step (fd : ι → Nat) (s : Polls ι) : PollEvent ι → Polls ι
  | .update e => { s with poller := s.poller.step fd e }
  | .poll _ numEvents => { s with size := (EPollPoller.poll s.size numEvents).2 }

open Classical in
/-- The polls of a run that did not report everything. -/
noncomputable def truncations (fd : ι → Nat) (s : Polls ι) (es : List (PollEvent ι)) :
    List (PollEvent ι) :=
  collect (fun s e => if s.Truncated e then [e] else []) (step fd) s es

open Classical in
theorem truncations_cons (fd : ι → Nat) (s : Polls ι) (e : PollEvent ι) (es : List (PollEvent ι)) :
    truncations fd s (e :: es) =
      (if s.Truncated e then [e] else []) ++ truncations fd (s.step fd e) es := rfl

end Polls

variable [DecidableEq ι]

/-- What the owners declare meanwhile. -/
def declare (d : Declared ι) : PollEvent ι → Declared ι
  | .update e => d.step e
  | .poll _ _ => d

/-- The operations keep clear of what the poller gets wrong, and while it polls there are at most
`n` channels. -/
def AtMost (n : Nat) (d : Declared ι) : PollEvent ι → Prop
  | .update e => d.Asserted e ∧ d.EPollOk e
  | .poll _ _ => {c | d.registered c = true}.encard ≤ n

omit [DecidableEq ι] in
/-- Distinct channels that are registered are no more than all that are. -/
theorem length_le_of_registered {d : Declared ι} {n : Nat} {cs : List ι} (hnodup : cs.Nodup)
    (hreg : ∀ c ∈ cs, d.registered c = true) (hn : {c | d.registered c = true}.encard ≤ n) :
    cs.length ≤ n := by
  classical
  have hsub : (cs.toFinset : Set ι) ⊆ {c | d.registered c = true} := fun c hc =>
    hreg c (List.mem_toFinset.mp hc)
  have hcard := (Set.encard_le_encard hsub).trans hn
  rw [Set.encard_coe_eq_coe_finsetCard, List.toFinset_card_of_nodup hnodup] at hcard
  exact Nat.cast_le.mp hcard

omit [DecidableEq ι] in
/-- The entries of an answer are those of channels that are registered. -/
theorem Follows.active_of_mem {fd : ι → Nat} {d : Declared ι} {s : Polls ι}
    (h : Follows fd d s.poller) {ready : Nat → Events} {answer : List (EpollEvent ι)}
    (hwait : EpollWait s.poller.epollfd_ ready s.size answer) {e : EpollEvent ι}
    (he : e ∈ answer) : (e.ptr, e.events) ∈ d.active fd ready := by
  obtain ⟨n, event, hlist, rfl, hne⟩ := hwait.sound e he
  exact h.mem_active.mpr ⟨n, event, hlist, rfl, hne⟩

omit [DecidableEq ι] in
/-- A poll that does not report everything has filled `events_`. -/
theorem Follows.truncated {fd : ι → Nat} {d : Declared ι} {s : Polls ι}
    (h : Follows fd d s.poller) {n : Nat} {ready : Nat → Events}
    {numEvents : Option (List (EpollEvent ι))} (hanswer : s.Answered (.poll ready numEvents))
    (htruncated : s.Truncated (.poll ready numEvents))
    (hn : {c | d.registered c = true}.encard ≤ n) :
    s.size < n ∧ (0 < s.size → (EPollPoller.poll s.size numEvents).2 = s.size * 2) := by
  obtain ⟨answer, rfl, m, event, hlist, hne, hmissing⟩ := htruncated
  have hwait := hanswer answer rfl
  have hfull : answer.length = s.size := by
    refine Nat.le_antisymm hwait.fits (Nat.not_lt.mp fun hroom => hmissing ?_)
    exact hwait.all hroom m event hlist hne
  have hactive : (event.ptr, reported (ready m) event.events) ∈ d.active fd ready :=
    h.mem_active.mpr ⟨m, event, hlist, rfl, hne⟩
  have hnodup : (event.ptr :: answer.map EpollEvent.ptr).Nodup := by
    refine List.nodup_cons.mpr ⟨fun hmem => hmissing ?_, hwait.once⟩
    obtain ⟨e, he, hptr⟩ := List.mem_map.mp hmem
    have hevents : e.events = reported (ready m) event.events := by
      have hsame : e.events = reported (ready (fd e.ptr)) (d.channels e.ptr).events_ :=
        (h.active_of_mem hwait he).2.2.1
      have hreport : reported (ready m) event.events =
          reported (ready (fd event.ptr)) (d.channels event.ptr).events_ := hactive.2.2.1
      rw [hsame, hreport, hptr]
    rwa [← hptr, ← hevents]
  have hlength : (event.ptr :: answer.map EpollEvent.ptr).length ≤ n := by
    refine length_le_of_registered hnodup (fun c hc => ?_) hn
    rcases List.mem_cons.mp hc with rfl | hc
    · exact hactive.1
    · obtain ⟨e, he, rfl⟩ := List.mem_map.mp hc
      exact (h.active_of_mem hwait he).1
  rw [List.length_cons, List.length_map, hfull] at hlength
  refine ⟨hlength, fun hpos => ?_⟩
  rw [EPollPoller.poll, if_pos (hfull ▸ hpos)]
  exact if_pos hfull

omit [DecidableEq ι] in
/-- `events_` gets longer only when it was filled. -/
theorem Follows.size_poll {fd : ι → Nat} {d : Declared ι} {s : Polls ι}
    (h : Follows fd d s.poller) {n : Nat} {ready : Nat → Events}
    {numEvents : Option (List (EpollEvent ι))} (hanswer : s.Answered (.poll ready numEvents))
    (hn : {c | d.registered c = true}.encard ≤ n) :
    s.size ≤ (EPollPoller.poll s.size numEvents).2 ∧
      (EPollPoller.poll s.size numEvents).2 ≤ max s.size (2 * n) := by
  cases numEvents with
  | none => exact ⟨Nat.le_refl _, Nat.le_max_left _ _⟩
  | some answer =>
    have hwait := hanswer answer rfl
    have hlength : (answer.map EpollEvent.ptr).length ≤ n := by
      refine length_le_of_registered hwait.once (fun c hc => ?_) hn
      obtain ⟨e, he, rfl⟩ := List.mem_map.mp hc
      exact (h.active_of_mem hwait he).1
    rw [List.length_map] at hlength
    rw [EPollPoller.poll]
    split
    · dsimp only
      split
      · next hfull =>
        rw [← hfull, Nat.mul_comm]
        refine ⟨Nat.le_mul_of_pos_left _ Nat.two_pos, le_max_of_le_right ?_⟩
        exact Nat.mul_le_mul_left 2 hlength
      · exact ⟨Nat.le_refl _, Nat.le_max_left _ _⟩
    · exact ⟨Nat.le_refl _, Nat.le_max_left _ _⟩

/-- From a state on, the polls that do not report everything are few. -/
theorem Follows.truncations {fd : ι → Nat} (hfd : Function.Injective fd) {n : Nat}
    {es : List (PollEvent ι)} {d : Declared ι} {s : Polls ι} (h : Follows fd d s.poller)
    (hpos : 0 < s.size) (hok : Meets (AtMost n) declare d es)
    (hanswer : Meets Polls.Answered (Polls.step fd) s es) :
    (Polls.truncations fd s es).length = 0 ∨
      s.size * 2 ^ (Polls.truncations fd s es).length < 2 * n := by
  induction es generalizing d s with
  | nil => exact .inl rfl
  | cons e es ih =>
    rw [Polls.truncations_cons, List.length_append]
    cases e with
    | update e =>
      rw [if_neg (by exact id), List.length_nil, Nat.zero_add]
      exact ih (h.step hfd hok.1.1 hok.1.2) hpos hok.2 hanswer.2
    | poll ready numEvents =>
      have hmore := (h.size_poll hanswer.1 hok.1).1
      have hrest := ih (s := s.step fd (.poll ready numEvents)) h (hpos.trans_le hmore) hok.2
        hanswer.2
      split
      · next htruncated =>
        obtain ⟨hlt, hdouble⟩ := h.truncated hanswer.1 htruncated hok.1
        have hsize : (s.step fd (.poll ready numEvents)).size = s.size * 2 := hdouble hpos
        rw [hsize] at hrest
        rw [List.length_singleton, Nat.add_comm 1, Nat.pow_succ', ← Nat.mul_assoc]
        right
        rcases hrest with hzero | hrest
        · rw [hzero, Nat.pow_zero, Nat.mul_one, Nat.mul_comm]
          exact Nat.mul_lt_mul_of_pos_left hlt Nat.two_pos
        · exact hrest
      · rw [List.length_nil, Nat.zero_add]
        refine hrest.imp_right fun hlt => lt_of_le_of_lt ?_ hlt
        exact Nat.mul_le_mul_right _ hmore

theorem Follows.size_run {fd : ι → Nat} (hfd : Function.Injective fd) {n : Nat}
    {es : List (PollEvent ι)} {d : Declared ι} {s : Polls ι} (h : Follows fd d s.poller)
    (hok : Meets (AtMost n) declare d es) (hanswer : Meets Polls.Answered (Polls.step fd) s es) :
    (run (Polls.step fd) s es).size ≤ max s.size (2 * n) := by
  induction es generalizing d s with
  | nil => exact Nat.le_max_left _ _
  | cons e es ih =>
    cases e with
    | update e => exact ih (s := s.step fd (.update e)) (h.step hfd hok.1.1 hok.1.2) hok.2 hanswer.2
    | poll ready numEvents =>
      have hrest := ih (s := s.step fd (.poll ready numEvents)) h hok.2 hanswer.2
      have hone := (h.size_poll hanswer.1 hok.1).2
      exact hrest.trans (max_le hone (Nat.le_max_right _ _))

/-- In a run with at most `n` channels there are `k` polls that do not report everything only if
`16 * 2 ^ k < 2 * n`, and `events_` gets no longer than `2 * n`. -/
theorem truncated_polls (fd : ι → Nat) (hfd : Function.Injective fd) (n : Nat)
    (es : List (PollEvent ι)) (hok : Meets (AtMost n) declare Declared.new es)
    (hanswer : Meets Polls.Answered (Polls.step fd) Polls.new es) :
    ((Polls.truncations fd Polls.new es).length = 0 ∨
        kInitEventListSize * 2 ^ (Polls.truncations fd Polls.new es).length < 2 * n) ∧
      (run (Polls.step fd) Polls.new es).size ≤ max kInitEventListSize (2 * n) :=
  ⟨Follows.truncations hfd (s := Polls.new) follows_new (Nat.succ_pos 15) hok hanswer,
    Follows.size_run hfd (s := Polls.new) follows_new hok hanswer⟩

theorem truncated_polls_one :
    (run (Polls.step (· + 3)) Polls.new [.update (1, .enableReading),
      .poll readable (some [⟨POLLIN, 1⟩])]).size ≤ 16 := by
  refine (truncated_polls (· + 3) (add_left_injective 3) 1 _ ?_ ?_).2
  · refine ⟨⟨by decide, by decide⟩, ?_, trivial⟩
    have hone : {c | (Declared.new.step ((1 : Nat), .enableReading)).registered c = true} ⊆
        {1} := by
      intro c hc
      by_contra hne
      have hnot : Function.update (fun _ => false) 1 true c = true := hc
      rw [Function.update_of_ne hne] at hnot
      cases hnot
    exact (Set.encard_le_encard hone).trans (Set.encard_singleton 1).le
  · refine ⟨trivial, fun answer hanswer => ?_, trivial⟩
    obtain rfl := Option.mem_some_iff.mp hanswer
    exact epollWait_one (by decide)

end EPollPoller

end Mymuduo
