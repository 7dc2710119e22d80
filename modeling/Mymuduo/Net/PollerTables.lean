import Mymuduo.Net.DeclaredInterest
import Mathlib.Data.Set.Card

/-!
# What the pollers keep

Each poller keeps a map from descriptors to channels and, in the channels, an index. For
`PollPoller` the index is a position in `pollfds_`; for `EPollPoller` it says what the kernel was
told.

* `poll_table_bijection`: the map of `PollPoller`, its array and the indices stay in step.
* `epoll_ctl_legal`: `EPollPoller` adds to the interest list what is not in it, and changes or
  deletes what is.
-/

namespace Mymuduo

open Transition

namespace Declared

variable {ι : Type*}

/-- A removed channel is not updated again. -/
def Once (d : Declared ι) (e : ι × ChannelOp) : Prop :=
  e.2 ≠ .remove → d.registered e.1 = true ∨ d.everRegistered e.1 = false

/-- No other channel is registered under the descriptor of the channel that is updated. -/
def OwnDescriptor (fd : ι → Nat) (d : Declared ι) (e : ι × ChannelOp) : Prop :=
  e.2 ≠ .remove → ∀ c, d.registered c = true → fd c = fd e.1 → c = e.1

instance (d : Declared ι) (e : ι × ChannelOp) : Decidable (d.Once e) :=
  inferInstanceAs (Decidable (_ → _))

/-- Where no two channels have one descriptor, none is registered under that of another. -/
theorem ownDescriptor_of_injective {fd : ι → Nat} (hfd : Function.Injective fd) (d : Declared ι)
    (e : ι × ChannelOp) : d.OwnDescriptor fd e :=
  fun _ _ _ heq => hfd heq

end Declared

/-! ## `PollPoller` -/

namespace PollPoller

variable {ι : Type*}

structure Matches (fd : ι → Nat) (d : Declared ι) (p : PollPoller ι) : Prop where
  table : Table fd d.registered d.everRegistered p
  channels : p.channels = d.channels
  events : ∀ c pfd, d.registered c = true → p.HasPollfd c pfd →
    pfd.events = (d.channels c).events_.setWidth 16
  foreign : ∀ n, (∀ c, fd c ≠ n) → p.channels_ n = none
  fits : ∀ c, (d.channels c).events_ ∈ [0, 3, 4, 7]

theorem matches_new {fd : ι → Nat} : Matches fd (ι := ι) Declared.new new :=
  ⟨table_new, rfl, nofun, fun _ _ => rfl, fun _ => List.mem_cons_self⟩

/-- A `short` that holds what a channel can be interested in is promoted to the same number. -/
theorem signExtend_of_fits {ev : Events} (h : ev ∈ [0, 3, 4, 7]) :
    (ev.setWidth 16).signExtend 32 = ev := by
  simp only [List.mem_cons, List.not_mem_nil, or_false] at h
  rcases h with rfl | rfl | rfl | rfl <;> rfl

theorem Matches.mem_iff {fd : ι → Nat} {d : Declared ι} {p : PollPoller ι} (h : Matches fd d p)
    (c : ι) : p.channels_ (fd c) = some c ↔ d.registered c = true := by
  rw [h.table.map]
  split
  · next hreg => exact iff_of_true rfl hreg
  · next hreg => exact iff_of_false nofun hreg

/-- The channels of the elements are the channels in the map. -/
theorem Matches.encard_channels {fd : ι → Nat} (hfd : Function.Injective fd) {d : Declared ι}
    {p : PollPoller ι} (h : Matches fd d p) :
    {n | p.channels_ n ≠ none}.encard = p.pollfds_.length := by
  choose owner hreg hidx using h.table.owner
  have hinj : Function.Injective fun i : Fin p.pollfds_.length => fd (owner i i.isLt) := by
    intro i j heq
    have howner : owner i i.isLt = owner j j.isLt := hfd heq
    have hij : (i : Int) = j := by rw [← hidx i i.isLt, howner, hidx]
    exact Fin.ext (Int.ofNat.inj hij)
  have hrange : {n | p.channels_ n ≠ none} =
      Set.range fun i : Fin p.pollfds_.length => fd (owner i i.isLt) := by
    ext n
    constructor
    · intro hn
      obtain ⟨c, rfl⟩ : ∃ c, fd c = n := by
        by_contra hnot
        exact hn (h.foreign n (not_exists.mp hnot))
      have hc : d.registered c = true := by
        by_contra hnot
        exact hn ((h.table.map c).trans (if_neg hnot))
      obtain ⟨pfd, hat, -⟩ := h.table.slot c hc
      obtain ⟨idx, hidx', hget⟩ := id hat
      have hlt := hat.lt hidx'
      refine ⟨⟨idx, hlt⟩, congrArg fd ?_⟩
      exact h.table.index_inj hfd (hreg idx hlt) hc ((hidx idx hlt).trans hidx'.symm)
    · rintro ⟨i, rfl⟩
      have hsome := (h.mem_iff _).mpr (hreg i i.isLt)
      simp [hsome]
  rw [hrange, ← Set.image_univ, hinj.encard_image, Set.encard_univ]
  simp

variable [DecidableEq ι]

theorem Matches.remove {fd : ι → Nat} (hfd : Function.Injective fd) {d : Declared ι}
    {p : PollPoller ι} (h : Matches fd d p) {c : ι} (hreg : d.registered c = true) :
    Matches fd (d.step (c, .remove)) (removeChannel fd p c) := by
  obtain ⟨htable, hkeep⟩ := h.table.remove hfd hreg
  rw [Declared.step_remove]
  refine ⟨htable, (channels_removeChannel c).trans h.channels, ?_, ?_, h.fits⟩
  · intro c' pfd' hc' hat'
    obtain ⟨hne, hreg'⟩ := registered_remove.mp hc'
    obtain ⟨pfd, hat, -⟩ := h.table.slot c' hreg'
    obtain rfl : pfd = pfd' := (hkeep c' hne hreg' pfd hat).unique hat'
    exact h.events c' pfd hreg' hat
  · intro n hn
    rw [map_removeChannel, Function.update_of_ne (hn c).symm]
    exact h.foreign n hn

theorem Matches.add {fd : ι → Nat} (hfd : Function.Injective fd) {d : Declared ι}
    {p : PollPoller ι} (h : Matches fd d p) {c : ι} {op : ChannelOp} (hop : op ≠ .remove)
    (hreg : d.registered c = false) (hever : d.everRegistered c = false) :
    Matches fd (d.step (c, op)) (updateChannel fd
      { p with channels := Function.update p.channels c (op.apply (p.channels c)) } c) := by
  rw [Declared.step_update d c hop, h.channels]
  obtain ⟨htable, hself, hkeep⟩ :=
    (h.table.withChannels (Function.update d.channels c (op.apply (d.channels c)))).add hfd hreg
      hever
  refine ⟨htable, channels_updateChannel c, ?_, ?_, fits_update h.fits c op⟩
  · intro c' pfd' hc' hat'
    rcases eq_or_ne c' c with rfl | hne
    · rw [← hself.unique hat']
    · have hreg' : d.registered c' = true := (Function.update_of_ne hne ..).symm.trans hc'
      obtain ⟨pfd, hat, -⟩ := h.table.slot c' hreg'
      obtain rfl : pfd = pfd' := (hkeep c' hne pfd hat).unique hat'
      rw [h.events c' pfd hreg' hat]
      exact congrArg (fun ch : Channel => ch.events_.setWidth 16)
        (Function.update_of_ne hne ..).symm
  · intro n hn
    rw [map_updateChannel_of_ne (hn c)]
    exact h.foreign n hn

theorem Matches.modify {fd : ι → Nat} (hfd : Function.Injective fd) {d : Declared ι}
    {p : PollPoller ι} (h : Matches fd d p) {c : ι} {op : ChannelOp} (hop : op ≠ .remove)
    (hreg : d.registered c = true) :
    Matches fd (d.step (c, op)) (updateChannel fd
      { p with channels := Function.update p.channels c (op.apply (p.channels c)) } c) := by
  rw [Declared.step_again hop hreg (h.table.ever c hreg), h.channels]
  obtain ⟨htable, hself, hkeep⟩ :=
    (h.table.withChannels (Function.update d.channels c (op.apply (d.channels c)))).modify hfd hreg
  refine ⟨htable, channels_updateChannel c, ?_, ?_, fits_update h.fits c op⟩
  · intro c' pfd' hc' hat'
    obtain ⟨pfd, hat, -⟩ := h.table.slot c' hc'
    rcases eq_or_ne c' c with rfl | hne
    · rw [← (hself pfd hat).unique hat']
      rfl
    · obtain rfl : pfd = pfd' := (hkeep c' hne hc' pfd hat).unique hat'
      rw [h.events c' pfd hc' hat]
      exact congrArg (fun ch : Channel => ch.events_.setWidth 16)
        (Function.update_of_ne hne ..).symm
  · intro n hn
    rw [map_updateChannel_of_ne (hn c)]
    exact h.foreign n hn

/-- The table matches what is declared. -/
theorem Matches.step {fd : ι → Nat} (hfd : Function.Injective fd) {d : Declared ι}
    {p : PollPoller ι} (h : Matches fd d p) {e : ι × ChannelOp} (hassert : d.Asserted e)
    (honce : d.Once e) : Matches fd (d.step e) (step fd p e) := by
  obtain ⟨c, op⟩ := e
  unfold PollPoller.step
  split
  · next hop =>
    obtain rfl : op = .remove := hop
    exact h.remove hfd (hassert rfl).1
  · next hop =>
    cases hreg : d.registered c with
    | true => exact h.modify hfd hop hreg
    | false => exact h.add hfd hop hreg ((honce hop).resolve_left (by simp [hreg]))

/-- A channel that goes leaves the elements of the others as they are. -/
theorem Matches.keep {fd : ι → Nat} (hfd : Function.Injective fd) {d : Declared ι}
    {p : PollPoller ι} (h : Matches fd d p) {e : ι × ChannelOp} (hassert : d.Asserted e)
    (hop : e.2 = .remove) {c : ι} (hne : c ≠ e.1) (hin : p.channels_ (fd c) = some c) {pfd : Pollfd}
    (hat : p.HasPollfd c pfd) : (p.step fd e).HasPollfd c pfd := by
  have hkeep := (h.table.remove hfd (hassert hop).1).2 c hne ((h.mem_iff c).mp hin) pfd hat
  unfold PollPoller.step
  rw [if_pos hop]
  exact hkeep

end PollPoller

section PollTables

variable {ι : Type*} [DecidableEq ι]

/-- After every sequence of operations on channels with distinct descriptors, in which a channel
without interest is removed and no removed channel is updated again, there are as many elements as
channels in the map, each of these channels has one of its own for its descriptor and events, and no
removal changed the element of another channel. -/
theorem poll_table_bijection (fd : ι → Nat) (hfd : Function.Injective fd)
    (es : List (ι × ChannelOp)) (hassert : Meets Declared.Asserted Declared.step Declared.new es)
    (honce : Meets Declared.Once Declared.step Declared.new es) :
    let p := run (PollPoller.step fd) .new es
    let d := run Declared.step Declared.new es
    (∀ c, p.channels_ (fd c) = some c ↔ d.registered c = true) ∧
    {n | p.channels_ n ≠ none}.encard = p.pollfds_.length ∧
    (∀ c, p.channels_ (fd c) = some c → ∃ pfd, p.HasPollfd c pfd ∧
      (pfd.fd = fd c ∨ pfd.fd = -(fd c : Int) - 1) ∧
      pfd.events.signExtend 32 = (p.channels c).events_) ∧
    (∀ c c', p.channels_ (fd c) = some c → p.channels_ (fd c') = some c' →
      p.index_ c = p.index_ c' → c = c') ∧
    Meets (fun p e => e.2 = .remove → ∀ c, c ≠ e.1 → p.channels_ (fd c) = some c →
      ∀ pfd, p.HasPollfd c pfd → (PollPoller.step fd p e).HasPollfd c pfd)
      (PollPoller.step fd) .new es := by
  intro p d
  have hstep : ∀ d p e, PollPoller.Matches fd d p → d.Asserted e ∧ d.Once e →
      PollPoller.Matches fd (d.step e) (p.step fd e) :=
    fun _ _ _ h hok => h.step hfd hok.1 hok.2
  have hok := hassert.and honce
  have h : PollPoller.Matches fd d p := run_simulation hstep PollPoller.matches_new hok
  refine ⟨h.mem_iff, h.encard_channels hfd, ?_, ?_, ?_⟩
  · intro c hin
    have hreg := (h.mem_iff c).mp hin
    obtain ⟨pfd, hat, hnames⟩ := h.table.slot c hreg
    refine ⟨pfd, hat, hnames, ?_⟩
    rw [h.events c pfd hreg hat, h.channels, PollPoller.signExtend_of_fits (h.fits c)]
  · intro c c' hin hin' heq
    exact h.table.index_inj hfd ((h.mem_iff c).mp hin) ((h.mem_iff c').mp hin') heq
  · exact meets_simulation hstep (fun _ _ _ h hok hop _ hne hin _ => h.keep hfd hok.1 hop hne hin)
      PollPoller.matches_new hok

end PollTables

/-- The last element, which is to be skipped, takes the place of the one for descriptor 0. -/
theorem poll_table_bijection_three :
    let p := run (PollPoller.step id) .new [(0, .enableReading), (1, .enableReading),
      (2, .enableWriting), (0, .disableAll), (2, .disableAll), (0, .remove)]
    {n | p.channels_ n ≠ none}.encard = 2 ∧ ∃ pfd, p.HasPollfd 2 pfd ∧
      (pfd.fd = 2 ∨ pfd.fd = -3) ∧ pfd.events.signExtend 32 = Channel.kNoneEvent := by
  intro p
  obtain ⟨-, hcard, hslot, -, -⟩ := poll_table_bijection id Function.injective_id
    [(0, .enableReading), (1, .enableReading), (2, .enableWriting), (0, .disableAll),
      (2, .disableAll), (0, .remove)] (by decide +kernel) (by decide +kernel)
  obtain ⟨pfd, hat, hnames, hevents⟩ := hslot 2 (by decide +kernel)
  have hlen : p.pollfds_.length = 2 := by decide +kernel
  have hnone : (p.channels 2).events_ = Channel.kNoneEvent := by decide +kernel
  exact ⟨hcard.trans (congrArg _ hlen), pfd, hat, hnames, hevents.trans hnone⟩

/-! ## `EPollPoller` -/

namespace EPollPoller

variable {ι : Type*}

/-- The call of `epoll_ctl` that an operation makes. -/
def ctl (p : EPollPoller ι) (e : ι × ChannelOp) : Option EpollCtl :=
  if e.2 = .remove then if p.index_ e.1 = kAdded then some .EPOLL_CTL_DEL else none
  else if p.index_ e.1 = kNew ∨ p.index_ e.1 = kDeleted then some .EPOLL_CTL_ADD
  else if (e.2.apply (p.channels e.1)).isNoneEvent then some .EPOLL_CTL_DEL
  else some .EPOLL_CTL_MOD

theorem epollfd_update (fd : ι → Nat) (p : EPollPoller ι) (operation : EpollCtl) (c : ι) :
    (update fd p operation c).epollfd_ =
      (epoll_ctl p.epollfd_ operation (fd c) ⟨(p.channels c).events_, c⟩).getD p.epollfd_ := by
  unfold update
  split
  · next hctl => rw [hctl, Option.getD_some]
  · next hctl =>
    rw [hctl, Option.getD_none]
    split <;> rfl

/-- The indices of the channels say what is in the interest list and in the map. -/
structure Keeps (fd : ι → Nat) (d : Declared ι) (p : EPollPoller ι) : Prop where
  index : ∀ c, p.index_ c = kNew ∨ p.index_ c = kAdded ∨ p.index_ c = kDeleted
  registered : ∀ c, d.registered c = true ↔ p.index_ c ≠ kNew
  own : ∀ c c', d.registered c = true → d.registered c' = true → fd c = fd c' → c = c'
  map : ∀ n c, p.channels_ n = some c ↔
    fd c = n ∧ (p.index_ c = kAdded ∨ p.index_ c = kDeleted)
  list : ∀ n c, (∃ events, p.epollfd_ n = some ⟨events, c⟩) ↔ fd c = n ∧ p.index_ c = kAdded
  aborted : p.aborted = false

theorem keeps_new {fd : ι → Nat} : Keeps fd (ι := ι) Declared.new new := by
  have hadded (n : Nat) (c : ι) : ¬ (fd c = n ∧ kNew = kAdded) := fun h => by cases h.2
  have hdeleted (n : Nat) (c : ι) : ¬ (fd c = n ∧ (kNew = kAdded ∨ kNew = kDeleted)) := fun h => by
    rcases h.2 with h | h <;> cases h
  exact ⟨fun _ => .inl rfl, fun _ => iff_of_false nofun fun h => h rfl, nofun,
    fun n c => iff_of_false nofun (hdeleted n c), fun n c => iff_of_false nofun (hadded n c), rfl⟩

/-- The descriptor of the channel is listed if the channel is. -/
theorem Keeps.listed {fd : ι → Nat} {d : Declared ι} {p : EPollPoller ι} (h : Keeps fd d p) {c : ι}
    (hown : ∀ c', d.registered c' = true → fd c' = fd c → c' = c) :
    p.epollfd_ (fd c) = none ↔ p.index_ c ≠ kAdded := by
  constructor
  · intro hnone hadded
    obtain ⟨events, hsome⟩ := (h.list (fd c) c).mpr ⟨rfl, hadded⟩
    rw [hnone] at hsome
    cases hsome
  · intro hnot
    rcases hentry : p.epollfd_ (fd c) with _ | ⟨events, c'⟩
    · rfl
    · obtain ⟨hfd, hadded⟩ := (h.list (fd c) c').mp ⟨events, hentry⟩
      have hreg : d.registered c' = true := (h.registered c').mpr (by rw [hadded]; decide)
      obtain rfl := hown c' hreg hfd
      exact absurd hadded hnot

/-- No other registered channel has the descriptor of the channel that an operation is about. -/
theorem Keeps.alone {fd : ι → Nat} {d : Declared ι} {p : EPollPoller ι} (h : Keeps fd d p)
    {e : ι × ChannelOp} (hassert : d.Asserted e) (hown : d.OwnDescriptor fd e) :
    ∀ c, d.registered c = true → fd c = fd e.1 → c = e.1 := by
  intro c hreg hfd
  by_cases hop : e.2 = .remove
  · exact h.own c e.1 hreg (hassert hop).1 hfd
  · exact hown hop c hreg hfd

/-- What is added is not in the interest list, and what is modified or deleted is. -/
theorem Keeps.legal {fd : ι → Nat} {d : Declared ι} {p : EPollPoller ι} (h : Keeps fd d p)
    {e : ι × ChannelOp} (hassert : d.Asserted e) (hown : d.OwnDescriptor fd e) {op : EpollCtl}
    (hctl : p.ctl e = some op) : p.epollfd_ (fd e.1) = none ↔ op = .EPOLL_CTL_ADD := by
  rw [h.listed (h.alone hassert hown)]
  unfold ctl at hctl
  split at hctl
  · split at hctl
    · next hadded =>
      obtain rfl := Option.some.inj hctl
      exact iff_of_false (fun hnot => hnot hadded) nofun
    · cases hctl
  · split at hctl
    · next hindex =>
      obtain rfl := Option.some.inj hctl
      refine iff_of_true ?_ rfl
      rcases hindex with hnew | hdeleted
      · rw [hnew]
        decide
      · rw [hdeleted]
        decide
    · next hindex =>
      have hadded : p.index_ e.1 = kAdded := by
        rcases h.index e.1 with hnew | hadded | hdeleted
        · exact absurd (.inl hnew) hindex
        · exact hadded
        · exact absurd (.inr hdeleted) hindex
      split at hctl <;>
        · obtain rfl := Option.some.inj hctl
          exact iff_of_false (fun hnot => hnot hadded) nofun

variable [DecidableEq ι]

/-- The interest list changes by that call and by nothing else. -/
theorem epollfd_step (fd : ι → Nat) (p : EPollPoller ι) (e : ι × ChannelOp) :
    (p.step fd e).epollfd_ = match p.ctl e with
      | none => p.epollfd_
      | some operation =>
        (epoll_ctl p.epollfd_ operation (fd e.1)
          ⟨(e.2.apply (p.channels e.1)).events_, e.1⟩).getD p.epollfd_ := by
  obtain ⟨c, op⟩ := e
  unfold step ctl
  dsimp only
  split
  · next hop =>
    subst hop
    unfold removeChannel
    dsimp only
    split
    · exact epollfd_update ..
    · rfl
  · unfold updateChannel
    dsimp only
    split
    · rw [epollfd_update]
      split <;> simp
    · simp only [Function.update_self]
      split
      · rw [epollfd_update]
        simp
      · rw [epollfd_update]
        simp

omit [DecidableEq ι] in
/-- What names the channels with some property by their descriptors, once the channel `c` and what
is named by its descriptor have changed. -/
theorem named_update {fd : ι → Nat} {c : ι} {names names' : Nat → ι → Prop} {has has' : ι → Prop}
    (hold : ∀ n c', names n c' ↔ fd c' = n ∧ has c')
    (hkeep : ∀ n, n ≠ fd c → ∀ c', names' n c' ↔ names n c') (hself : names' (fd c) c ↔ has' c)
    (hothers : ∀ c', c' ≠ c →
      (has' c' ↔ has c') ∧ ¬ names' (fd c) c' ∧ (fd c' = fd c → ¬ has' c')) (n : Nat) (c' : ι) :
    names' n c' ↔ fd c' = n ∧ has' c' := by
  rcases eq_or_ne n (fd c) with rfl | hn
  · rcases eq_or_ne c' c with rfl | hne
    · exact hself.trans (and_iff_right rfl).symm
    · obtain ⟨-, hnot, hnone⟩ := hothers c' hne
      exact iff_of_false hnot fun h => hnone h.1 h.2
  · rw [hkeep n hn, hold]
    refine and_congr_right fun hfd => ?_
    have hne : c' ≠ c := by
      rintro rfl
      exact hn hfd.symm
    exact (hothers c' hne).1.symm

/-- What a step has to do when it concerns the channel `c`, whose index becomes `index`. -/
theorem Keeps.of_step {fd : ι → Nat} {d d' : Declared ι} {p p' : EPollPoller ι} (h : Keeps fd d p)
    (c : ι) (index : Int) (events : Events)
    (hown : ∀ c', d.registered c' = true → fd c' = fd c → c' = c)
    (hvalid : index = kNew ∨ index = kAdded ∨ index = kDeleted)
    (hregistered : d'.registered = Function.update d.registered c (decide (index ≠ kNew)))
    (hindex : p'.index_ = Function.update p.index_ c index)
    (hmap : p'.channels_ =
      Function.update p.channels_ (fd c) (if index = kNew then none else some c))
    (hlist : p'.epollfd_ = Function.update p.epollfd_ (fd c)
      (if index = kAdded then some ⟨events, c⟩ else none))
    (haborted : p'.aborted = p.aborted) : Keeps fd d' p' := by
  have hregistered' : ∀ c', c' ≠ c → d'.registered c' = d.registered c' := fun c' hne => by
    rw [hregistered, Function.update_of_ne hne]
  have hindex' : ∀ c', c' ≠ c → p'.index_ c' = p.index_ c' := fun c' hne => by
    rw [hindex, Function.update_of_ne hne]
  have hself : p'.index_ c = index := by rw [hindex, Function.update_self]
  -- a channel that has an index is not another channel with the same descriptor
  have hother : ∀ c', c' ≠ c → fd c' = fd c → p'.index_ c' = kNew := fun c' hne hfd => by
    rw [hindex' c' hne]
    by_contra hnot
    exact hne (hown c' ((h.registered c').mpr hnot) hfd)
  refine ⟨?_, ?_, ?_, ?_, ?_, haborted.trans h.aborted⟩
  · intro c'
    rcases eq_or_ne c' c with rfl | hne
    · rw [hself]
      exact hvalid
    · rw [hindex' c' hne]
      exact h.index c'
  · intro c'
    rcases eq_or_ne c' c with rfl | hne
    · rw [hself, hregistered, Function.update_self, decide_eq_true_iff]
    · rw [hindex' c' hne, hregistered' c' hne]
      exact h.registered c'
  · intro c₁ c₂ hreg₁ hreg₂ hfd
    rcases eq_or_ne c₁ c with rfl | hne₁
    · rcases eq_or_ne c₂ c₁ with rfl | hne₂
      · rfl
      · exact (hown c₂ ((hregistered' c₂ hne₂).symm.trans hreg₂) hfd.symm).symm
    · rcases eq_or_ne c₂ c with rfl | hne₂
      · exact hown c₁ ((hregistered' c₁ hne₁).symm.trans hreg₁) hfd
      · exact h.own c₁ c₂ ((hregistered' c₁ hne₁).symm.trans hreg₁)
          ((hregistered' c₂ hne₂).symm.trans hreg₂) hfd
  · refine named_update h.map (fun n hn c' => by rw [hmap, Function.update_of_ne hn]) ?_
      fun c' hne => ⟨by rw [hindex' c' hne], fun hsome => ?_, fun hfd hin => ?_⟩
    · rw [hmap, hself, Function.update_self]
      rcases hvalid with rfl | rfl | rfl <;> simp [kNew, kAdded, kDeleted]
    · rw [hmap, Function.update_self] at hsome
      split at hsome
      · cases hsome
      · exact hne (Option.some.inj hsome).symm
    · rw [hother c' hne hfd] at hin
      rcases hin with hin | hin <;> cases hin
  · refine named_update h.list (fun n hn c' => by rw [hlist, Function.update_of_ne hn]) ?_
      fun c' hne => ⟨by rw [hindex' c' hne], fun hlisted => ?_, fun hfd hin => ?_⟩
    · rw [hlist, hself, Function.update_self]
      rcases hvalid with rfl | rfl | rfl <;> simp [kNew, kAdded, kDeleted]
    · obtain ⟨_, hsome⟩ := hlisted
      rw [hlist, Function.update_self] at hsome
      split at hsome
      · exact hne (congrArg EpollEvent.ptr (Option.some.inj hsome)).symm
      · cases hsome
    · rw [hother c' hne hfd] at hin
      cases hin

/-- The indices go on saying so. -/
theorem Keeps.step {fd : ι → Nat} {d : Declared ι} {p : EPollPoller ι} (h : Keeps fd d p)
    {e : ι × ChannelOp} (hassert : d.Asserted e) (hown : d.OwnDescriptor fd e) :
    Keeps fd (d.step e) (p.step fd e) := by
  have halone := h.alone hassert hown
  have hlisted := h.listed halone
  have hpresent : p.index_ e.1 = kAdded → ∃ event, p.epollfd_ (fd e.1) = some event := fun hindex =>
    Option.ne_none_iff_exists'.mp fun hnone => hlisted.mp hnone hindex
  obtain ⟨c, op⟩ := e
  by_cases hop : op = .remove
  · subst hop
    have hnew := (h.registered c).mp (hassert rfl).1
    rcases h.index c with hindex | hindex | hindex
    · exact absurd hindex hnew
    · obtain ⟨event, hentry⟩ := hpresent hindex
      refine h.of_step c kNew 0 halone (.inl rfl) ?_ ?_ ?_ ?_ ?_ <;>
        simp [Declared.step_remove, EPollPoller.step, removeChannel, hindex, update, epoll_ctl,
          hentry, kNew, kAdded]
    · have hentry : p.epollfd_ (fd c) = none := hlisted.mpr (by rw [hindex]; decide)
      refine h.of_step c kNew 0 halone (.inl rfl) ?_ ?_ ?_ ?_ ?_ <;>
        simp [Declared.step_remove, EPollPoller.step, removeChannel, hindex, hentry, kNew, kAdded,
          kDeleted]
  · have hsteps : EPollPoller.step fd p (c, op) = updateChannel fd
        { p with channels := Function.update p.channels c (op.apply (p.channels c)) } c :=
      if_neg hop
    rw [hsteps, Declared.step_update d c hop]
    rcases h.index c with hindex | hindex | hindex
    · have hentry : p.epollfd_ (fd c) = none := hlisted.mpr (by rw [hindex]; decide)
      refine h.of_step c kAdded (op.apply (p.channels c)).events_ halone (.inr (.inl rfl))
        ?_ ?_ ?_ ?_ ?_ <;>
        simp [updateChannel, hindex, update, epoll_ctl, hentry, kNew, kAdded]
    · obtain ⟨event, hentry⟩ := hpresent hindex
      have hmapped : p.channels_ (fd c) = some c := (h.map (fd c) c).mpr ⟨rfl, .inl hindex⟩
      cases hafter : (op.apply (p.channels c)).isNoneEvent with
      | true =>
        refine h.of_step c kDeleted 0 halone (.inr (.inr rfl)) ?_ ?_ ?_ ?_ ?_ <;>
          simp [updateChannel, hindex, update, epoll_ctl, hentry, hmapped, hafter, kNew, kAdded,
            kDeleted]
      | false =>
        refine h.of_step c kAdded (op.apply (p.channels c)).events_ halone (.inr (.inl rfl))
          ?_ ?_ ?_ ?_ ?_ <;>
          simp [updateChannel, hindex, update, epoll_ctl, hentry, hmapped, hafter, kNew, kAdded,
            kDeleted]
    · have hentry : p.epollfd_ (fd c) = none := hlisted.mpr (by rw [hindex]; decide)
      have hmapped : p.channels_ (fd c) = some c := (h.map (fd c) c).mpr ⟨rfl, .inr hindex⟩
      refine h.of_step c kAdded (op.apply (p.channels c)).events_ halone (.inr (.inl rfl))
        ?_ ?_ ?_ ?_ ?_ <;>
        simp [updateChannel, hindex, update, epoll_ctl, hentry, hmapped, kNew, kAdded, kDeleted]

end EPollPoller

section EPollTables

variable {ι : Type*} [DecidableEq ι]

/-- In every sequence of operations on channels of which no two are registered with one descriptor,
and of which only those without interest are removed, a descriptor is in the interest list if the
index of its channel is `kAdded`, and in the map if that is `kAdded` or `kDeleted`. Each call adds
what is not in the list, or modifies or deletes what is, and none ends the program. -/
theorem epoll_ctl_legal (fd : ι → Nat) (es : List (ι × ChannelOp))
    (hassert : Meets Declared.Asserted Declared.step Declared.new es)
    (hown : Meets (Declared.OwnDescriptor fd) Declared.step Declared.new es) :
    let p := run (EPollPoller.step fd) .new es
    (∀ n c, (∃ events, p.epollfd_ n = some ⟨events, c⟩) ↔
      fd c = n ∧ p.index_ c = EPollPoller.kAdded) ∧
    (∀ n c, p.channels_ n = some c ↔
      fd c = n ∧ (p.index_ c = EPollPoller.kAdded ∨ p.index_ c = EPollPoller.kDeleted)) ∧
    Meets (fun p e => ∀ op, p.ctl e = some op →
      (p.epollfd_ (fd e.1) = none ↔ op = .EPOLL_CTL_ADD)) (EPollPoller.step fd) .new es ∧
    p.aborted = false := by
  intro p
  have hstep : ∀ d p e, EPollPoller.Keeps fd d p → d.Asserted e ∧ d.OwnDescriptor fd e →
      EPollPoller.Keeps fd (d.step e) (p.step fd e) :=
    fun _ _ _ h hok => h.step hok.1 hok.2
  have hok := hassert.and hown
  have h : EPollPoller.Keeps fd _ p := run_simulation hstep EPollPoller.keeps_new hok
  exact ⟨h.list, h.map, meets_simulation hstep (fun _ _ _ h hok _ => h.legal hok.1 hok.2)
    EPollPoller.keeps_new hok, h.aborted⟩

end EPollTables

/-- A channel that is disabled twice is added, deleted, added, and deleted before it is removed, and
can be registered again. -/
theorem epoll_ctl_legal_again :
    let es := [(0, .enableReading), (3, .enableWriting), (3, .disableAll), (3, .disableAll),
      (3, .remove), (3, .enableReading)]
    let p := run (EPollPoller.step id) .new es
    (∃ events, p.epollfd_ 3 = some ⟨events, 3⟩) ∧ p.channels_ 0 = some 0 ∧ p.aborted = false := by
  intro es p
  obtain ⟨hlist, hmap, -, haborted⟩ := epoll_ctl_legal id es (by decide +kernel)
    (meets_of_always (Declared.ownDescriptor_of_injective Function.injective_id))
  exact ⟨(hlist 3 3).mpr ⟨rfl, by decide +kernel⟩, (hmap 0 0).mpr ⟨rfl, .inl (by decide +kernel)⟩,
    haborted⟩

end Mymuduo
