import Mymuduo.Net.Poller
import Mathlib.Tactic.Common

/-!
# The table of `PollPoller`

`pollfds_` is an array that `channels_` and the `index()` of a channel point into. `Table` is what
the three have in common: each registered channel has an element, and each element a channel. A
channel that goes hands its place to the channel of the last element, whose index is found through
a descriptor that may be stored negated.

* `Table.remove`, `Table.add`, `Table.modify`: what each change of the table leaves as it is.
-/

namespace Mymuduo

namespace PollPoller

variable {ι : Type*}

/-- The channel's index is that of the element `pfd`. -/
def HasPollfd (p : PollPoller ι) (c : ι) (pfd : Pollfd) : Prop :=
  ∃ idx : Nat, p.index_ c = idx ∧ p.pollfds_[idx]? = some pfd

/-- The descriptor of the element is that of the channel, or its encoding as one to be skipped. -/
def Names (fd : ι → Nat) (c : ι) (pfd : Pollfd) : Prop :=
  pfd.fd = fd c ∨ pfd.fd = -(fd c : Int) - 1

/-- The registered channels have the elements of `pollfds_`, one each; a channel that never was
registered has no index. -/
structure Table (fd : ι → Nat) (registered everRegistered : ι → Bool) (p : PollPoller ι) :
    Prop where
  ever : ∀ c, registered c = true → everRegistered c = true
  fresh : ∀ c, everRegistered c = false → p.index_ c = -1
  map : ∀ c, p.channels_ (fd c) = if registered c then some c else none
  slot : ∀ c, registered c = true → ∃ pfd, p.HasPollfd c pfd ∧ Names fd c pfd
  owner : ∀ idx < p.pollfds_.length, ∃ c, registered c = true ∧ p.index_ c = idx

variable {fd : ι → Nat} {registered everRegistered : ι → Bool} {p : PollPoller ι}

theorem table_new : Table fd (fun _ => false) (fun _ => false) (new : PollPoller ι) :=
  ⟨nofun, fun _ _ => rfl, fun _ => rfl, nofun, nofun⟩

theorem HasPollfd.lt {c : ι} {pfd : Pollfd} {idx : Nat} (h : p.HasPollfd c pfd)
    (hidx : p.index_ c = idx) :
    idx < p.pollfds_.length := by
  obtain ⟨idx', hidx', hget⟩ := h
  obtain rfl : idx = idx' := Int.ofNat.inj (hidx.symm.trans hidx')
  exact (List.getElem?_eq_some_iff.mp hget).1

theorem HasPollfd.unique {c : ι} {pfd pfd' : Pollfd} (h : p.HasPollfd c pfd)
    (h' : p.HasPollfd c pfd') : pfd = pfd' := by
  obtain ⟨idx, hidx, hget⟩ := h
  obtain ⟨idx', hidx', hget'⟩ := h'
  obtain rfl : idx = idx' := Int.ofNat.inj (hidx.symm.trans hidx')
  exact Option.some.inj (hget.symm.trans hget')

/-- An element names one channel only. -/
theorem Names.inj (hfd : Function.Injective fd) {c c' : ι} {pfd : Pollfd} (h : Names fd c pfd)
    (h' : Names fd c' pfd) : c = c' := by
  apply hfd
  unfold Names at h h'
  omega

/-- The element of a registered channel after an update. -/
def updated (fd : ι → Nat) (p : PollPoller ι) (c : ι) (pfd : Pollfd) : Pollfd where
  fd := if (p.channels c).isNoneEvent then -(fd c) - 1 else pfd.fd
  events := (p.channels c).events_.setWidth 16

theorem Names.updated {c : ι} {pfd : Pollfd} (h : Names fd c pfd) :
    Names fd c (updated fd p c pfd) := by
  unfold Names PollPoller.updated
  dsimp only
  split
  · exact .inr rfl
  · exact h

/-- What the channels declare is not the table's concern. -/
theorem Table.withChannels (h : Table fd registered everRegistered p) (channels : ι → Channel) :
    Table fd registered everRegistered { p with channels := channels } :=
  ⟨h.ever, h.fresh, h.map, h.slot, h.owner⟩

/-- Two channels have two elements. -/
theorem Table.index_inj (hfd : Function.Injective fd) (h : Table fd registered everRegistered p)
    {c c' : ι} (hc : registered c = true) (hc' : registered c' = true)
    (heq : p.index_ c = p.index_ c') : c = c' := by
  obtain ⟨pfd, ⟨idx, hidx, hget⟩, hnames⟩ := h.slot c hc
  obtain ⟨pfd', hat', hnames'⟩ := h.slot c' hc'
  have hsame : pfd = pfd' := HasPollfd.unique (c := c') ⟨idx, heq ▸ hidx, hget⟩ hat'
  exact hnames.inj hfd (hsame ▸ hnames')

/-- The other channels have other elements. -/
theorem Table.index_ne (hfd : Function.Injective fd) (h : Table fd registered everRegistered p)
    {c c' : ι} (hc : registered c = true) (hc' : registered c' = true) (hne : c' ≠ c) {idx : Int}
    (hidx : p.index_ c = idx) : p.index_ c' ≠ idx :=
  fun heq => hne (h.index_inj hfd hc' hc (heq.trans hidx.symm))

/-! ## Swapping and popping -/

theorem length_iterSwap {α : Type*} (l : List α) (i j : Nat) :
    (iterSwap l i j).length = l.length := by
  unfold iterSwap
  split
  · simp
  · rfl

/-- The last element takes the place of the one that goes. -/
theorem getElem?_iterSwap_dropLast {α : Type*} {l : List α} {i : Nat} (hi : i < l.length - 1)
    (j : Nat) : (iterSwap l i (l.length - 1)).dropLast[j]? =
      if j < l.length - 1 then if j = i then l[l.length - 1]? else l[j]? else none := by
  have hlt : i < l.length := by omega
  have hlast : l.length - 1 < l.length := by omega
  rw [List.getElem?_dropLast, length_iterSwap]
  split
  · next hj =>
    simp only [iterSwap, List.getElem?_eq_getElem hlt, List.getElem?_eq_getElem hlast]
    rw [List.getElem?_set_ne (by omega)]
    split
    · next heq =>
      subst heq
      rw [List.getElem?_set_self hlt]
    · next hne => rw [List.getElem?_set_ne (Ne.symm hne)]
  · rfl

variable [DecidableEq ι]

@[simp] theorem channels_updateChannel (c : ι) :
    (updateChannel fd p c).channels = p.channels := by
  unfold updateChannel
  dsimp only
  split <;> rfl

@[simp] theorem channels_removeChannel (c : ι) :
    (removeChannel fd p c).channels = p.channels := by
  unfold removeChannel
  dsimp only
  split
  · rfl
  · split <;> rfl

@[simp] theorem map_removeChannel (c : ι) :
    (removeChannel fd p c).channels_ = Function.update p.channels_ (fd c) none := by
  unfold removeChannel
  dsimp only
  split
  · rfl
  · split <;> rfl

theorem map_updateChannel_of_ne {c : ι} {n : Nat} (hne : fd c ≠ n) :
    (updateChannel fd p c).channels_ n = p.channels_ n := by
  unfold updateChannel
  dsimp only
  split
  · exact Function.update_of_ne hne.symm ..
  · rfl

/-! ## Removing a channel -/

theorem registered_remove {c c' : ι} :
    Function.update registered c false c' = true ↔ c' ≠ c ∧ registered c' = true := by
  rcases eq_or_ne c' c with rfl | hne
  · simp
  · simp [hne]

theorem Table.map_remove (hfd : Function.Injective fd) (h : Table fd registered everRegistered p)
    (c c' : ι) : Function.update p.channels_ (fd c) none (fd c') =
      if Function.update registered c false c' then some c' else none := by
  rcases eq_or_ne c' c with rfl | hne
  · simp
  · rw [Function.update_of_ne (hfd.ne hne), Function.update_of_ne hne, h.map]

/-- The channel with the last element goes, and the others stay where they are. -/
theorem Table.removeLast (hfd : Function.Injective fd) (h : Table fd registered everRegistered p)
    {c : ι} (hreg : registered c = true) {idx : Nat} (hidx : p.index_ c = idx)
    (hlast : idx = p.pollfds_.length - 1) :
    Table fd (Function.update registered c false) everRegistered (removeChannel fd p c) ∧
      ∀ c', c' ≠ c → registered c' = true → ∀ pfd, p.HasPollfd c' pfd →
        (removeChannel fd p c).HasPollfd c' pfd := by
  have hremoved : removeChannel fd p c =
      { p with
        channels_ := Function.update p.channels_ (fd c) none
        pollfds_ := p.pollfds_.dropLast } := by
    simp only [removeChannel, hidx, Int.toNat_natCast, hlast, if_true]
  have hkeep : ∀ c', c' ≠ c → registered c' = true → ∀ pfd, p.HasPollfd c' pfd →
      (removeChannel fd p c).HasPollfd c' pfd := by
    intro c' hne hreg' pfd hat
    obtain ⟨idx', hidx', hget'⟩ := id hat
    have hlt' := hat.lt hidx'
    have hdiff := h.index_ne hfd hreg hreg' hne hidx
    rw [hremoved]
    refine ⟨idx', hidx', ?_⟩
    rw [List.getElem?_dropLast, if_pos (by omega)]
    exact hget'
  refine ⟨⟨fun c' hc' => h.ever c' (registered_remove.mp hc').2, ?_, ?_, ?_, ?_⟩, hkeep⟩
  · rw [hremoved]
    exact h.fresh
  · rw [hremoved]
    exact h.map_remove hfd c
  · intro c' hc'
    obtain ⟨hne, hreg'⟩ := registered_remove.mp hc'
    obtain ⟨pfd, hat, hnames⟩ := h.slot c' hreg'
    exact ⟨pfd, hkeep c' hne hreg' pfd hat, hnames⟩
  · rw [hremoved]
    intro idx' hlt'
    rw [List.length_dropLast] at hlt'
    obtain ⟨c', hreg', hidx'⟩ := h.owner idx' (by omega)
    have hne : c' ≠ c := by
      rintro rfl
      omega
    exact ⟨c', registered_remove.mpr ⟨hne, hreg'⟩, hidx'⟩

/-- The channel with the last element moves to the place of the one that goes. -/
theorem Table.removeInner (hfd : Function.Injective fd) (h : Table fd registered everRegistered p)
    {c : ι} (hreg : registered c = true) {idx : Nat} (hidx : p.index_ c = idx)
    (hlt : idx < p.pollfds_.length - 1) :
    Table fd (Function.update registered c false) everRegistered (removeChannel fd p c) ∧
      ∀ c', c' ≠ c → registered c' = true → ∀ pfd, p.HasPollfd c' pfd →
        (removeChannel fd p c).HasPollfd c' pfd := by
  obtain ⟨b, hregb, hidxb⟩ := h.owner (p.pollfds_.length - 1) (by omega)
  obtain ⟨pfdb, hatb, hnamesb⟩ := h.slot b hregb
  have hgetb : p.pollfds_[p.pollfds_.length - 1]? = some pfdb := by
    obtain ⟨idxb, hidxb', hgetb⟩ := hatb
    obtain rfl : idxb = p.pollfds_.length - 1 := by omega
    exact hgetb
  have hneb : b ≠ c := by
    rintro rfl
    omega
  have hfdb : (if pfdb.fd < 0 then -pfdb.fd - 1 else pfdb.fd).toNat = fd b := by
    unfold Names at hnamesb
    split <;> omega
  have hmoved : Function.update p.channels_ (fd c) none (fd b) = some b := by
    rw [h.map_remove hfd, if_pos (registered_remove.mpr ⟨hneb, hregb⟩)]
  have hshift := getElem?_iterSwap_dropLast hlt
  have hremoved : removeChannel fd p c =
      { p with
        channels_ := Function.update p.channels_ (fd c) none
        pollfds_ := (iterSwap p.pollfds_ idx (p.pollfds_.length - 1)).dropLast
        index_ := Function.update p.index_ b idx } := by
    simp only [removeChannel, hidx, Int.toNat_natCast, hlt.ne, if_false,
      List.getLast?_eq_getElem?, hgetb, hfdb, hmoved]
  have hkeep : ∀ c', c' ≠ c → registered c' = true → ∀ pfd, p.HasPollfd c' pfd →
      (removeChannel fd p c).HasPollfd c' pfd := by
    intro c' hne hreg' pfd hat
    rw [hremoved]
    rcases eq_or_ne c' b with rfl | hneb'
    · obtain rfl : pfd = pfdb := hat.unique hatb
      refine ⟨idx, Function.update_self .., ?_⟩
      rw [hshift, if_pos hlt, if_pos rfl]
      exact hgetb
    · obtain ⟨idx', hidx', hget'⟩ := id hat
      have hlt' := hat.lt hidx'
      have hdiff := h.index_ne hfd hreg hreg' hne hidx
      have hdiffb := h.index_ne hfd hregb hreg' hneb' hidxb
      refine ⟨idx', (Function.update_of_ne hneb' ..).trans hidx', ?_⟩
      rw [hshift, if_pos (by omega), if_neg (by omega)]
      exact hget'
  refine ⟨⟨fun c' hc' => h.ever c' (registered_remove.mp hc').2, ?_, ?_, ?_, ?_⟩, hkeep⟩
  · rw [hremoved]
    intro c' hc'
    have hne : c' ≠ b := by
      rintro rfl
      rw [h.ever _ hregb] at hc'
      cases hc'
    exact (Function.update_of_ne hne ..).trans (h.fresh c' hc')
  · rw [hremoved]
    exact h.map_remove hfd c
  · intro c' hc'
    obtain ⟨hne, hreg'⟩ := registered_remove.mp hc'
    obtain ⟨pfd, hat, hnames⟩ := h.slot c' hreg'
    exact ⟨pfd, hkeep c' hne hreg' pfd hat, hnames⟩
  · rw [hremoved]
    intro idx' hlt'
    rw [List.length_dropLast, length_iterSwap] at hlt'
    rcases eq_or_ne idx' idx with rfl | hne'
    · exact ⟨b, registered_remove.mpr ⟨hneb, hregb⟩, Function.update_self ..⟩
    · obtain ⟨c', hreg', hidx'⟩ := h.owner idx' (by omega)
      have hne : c' ≠ c := by
        rintro rfl
        omega
      have hneb' : c' ≠ b := by
        rintro rfl
        omega
      exact ⟨c', registered_remove.mpr ⟨hne, hreg'⟩,
        (Function.update_of_ne hneb' ..).trans hidx'⟩

/-- A registered channel goes, and the elements of the others stay theirs. -/
theorem Table.remove (hfd : Function.Injective fd) (h : Table fd registered everRegistered p)
    {c : ι} (hreg : registered c = true) :
    Table fd (Function.update registered c false) everRegistered (removeChannel fd p c) ∧
      ∀ c', c' ≠ c → registered c' = true → ∀ pfd, p.HasPollfd c' pfd →
        (removeChannel fd p c).HasPollfd c' pfd := by
  obtain ⟨pfd, hat, -⟩ := h.slot c hreg
  obtain ⟨idx, hidx, -⟩ := id hat
  have hlt := hat.lt hidx
  rcases eq_or_ne idx (p.pollfds_.length - 1) with hlast | hinner
  · exact h.removeLast hfd hreg hidx hlast
  · exact h.removeInner hfd hreg hidx (by omega)

/-! ## Updating a channel -/

/-- A new channel goes to the end. -/
theorem Table.add (hfd : Function.Injective fd) (h : Table fd registered everRegistered p) {c : ι}
    (hreg : registered c = false) (hever : everRegistered c = false) :
    Table fd (Function.update registered c true) (Function.update everRegistered c true)
        (updateChannel fd p c) ∧
      (updateChannel fd p c).HasPollfd c ⟨fd c, (p.channels c).events_.setWidth 16⟩ ∧
      ∀ c', c' ≠ c → ∀ pfd, p.HasPollfd c' pfd → (updateChannel fd p c).HasPollfd c' pfd := by
  have hupdated : updateChannel fd p c =
      { p with
        pollfds_ := p.pollfds_ ++ [⟨fd c, (p.channels c).events_.setWidth 16⟩]
        index_ := Function.update p.index_ c p.pollfds_.length
        channels_ := Function.update p.channels_ (fd c) (some c) } := by
    have hneg : p.index_ c < 0 := by
      rw [h.fresh c hever]
      decide
    simp only [updateChannel, if_pos hneg]
  rw [hupdated]
  have hself : HasPollfd { p with
      pollfds_ := p.pollfds_ ++ [⟨fd c, (p.channels c).events_.setWidth 16⟩]
      index_ := Function.update p.index_ c p.pollfds_.length
      channels_ := Function.update p.channels_ (fd c) (some c) } c
      ⟨fd c, (p.channels c).events_.setWidth 16⟩ :=
    ⟨p.pollfds_.length, Function.update_self .., List.getElem?_concat_length⟩
  have hkeep : ∀ c', c' ≠ c → ∀ pfd, p.HasPollfd c' pfd → HasPollfd { p with
      pollfds_ := p.pollfds_ ++ [⟨fd c, (p.channels c).events_.setWidth 16⟩]
      index_ := Function.update p.index_ c p.pollfds_.length
      channels_ := Function.update p.channels_ (fd c) (some c) } c' pfd := by
    rintro c' hne pfd ⟨idx, hidx, hget⟩
    refine ⟨idx, (Function.update_of_ne hne ..).trans hidx, ?_⟩
    exact (List.getElem?_append_left (List.getElem?_eq_some_iff.mp hget).1).trans hget
  refine ⟨⟨?_, ?_, ?_, ?_, ?_⟩, hself, hkeep⟩
  · intro c' hc'
    rcases eq_or_ne c' c with rfl | hne
    · exact Function.update_self ..
    · rw [Function.update_of_ne hne] at hc' ⊢
      exact h.ever c' hc'
  · intro c' hc'
    rcases eq_or_ne c' c with rfl | hne
    · simp at hc'
    · rw [Function.update_of_ne hne] at hc'
      exact (Function.update_of_ne hne ..).trans (h.fresh c' hc')
  · intro c'
    rcases eq_or_ne c' c with rfl | hne
    · simp
    · rw [Function.update_of_ne hne]
      exact (Function.update_of_ne (hfd.ne hne) ..).trans (h.map c')
  · intro c' hc'
    rcases eq_or_ne c' c with rfl | hne
    · exact ⟨_, hself, .inl rfl⟩
    · rw [Function.update_of_ne hne] at hc'
      obtain ⟨pfd, hat, hnames⟩ := h.slot c' hc'
      exact ⟨pfd, hkeep c' hne pfd hat, hnames⟩
  · intro idx hlt
    rw [List.length_append, List.length_singleton] at hlt
    rcases Nat.lt_or_ge idx p.pollfds_.length with hlt' | hge
    · obtain ⟨c', hreg', hidx'⟩ := h.owner idx hlt'
      have hne : c' ≠ c := by
        rintro rfl
        rw [hreg] at hreg'
        cases hreg'
      exact ⟨c', (Function.update_of_ne hne ..).trans hreg',
        (Function.update_of_ne hne ..).trans hidx'⟩
    · obtain rfl : idx = p.pollfds_.length := by omega
      exact ⟨c, Function.update_self .., Function.update_self ..⟩

/-- A registered channel keeps its place. -/
theorem Table.modify (hfd : Function.Injective fd) (h : Table fd registered everRegistered p)
    {c : ι} (hreg : registered c = true) :
    Table fd registered everRegistered (updateChannel fd p c) ∧
      (∀ pfd, p.HasPollfd c pfd → (updateChannel fd p c).HasPollfd c (updated fd p c pfd)) ∧
      ∀ c', c' ≠ c → registered c' = true → ∀ pfd, p.HasPollfd c' pfd →
        (updateChannel fd p c).HasPollfd c' pfd := by
  obtain ⟨pfd, ⟨idx, hidx, hget⟩, hnames⟩ := h.slot c hreg
  have hupdated : updateChannel fd p c =
      { p with pollfds_ := p.pollfds_.modify idx (updated fd p c) } := by
    have hneg : ¬ p.index_ c < 0 := by omega
    simp only [updateChannel, if_neg hneg]
    rw [hidx, Int.toNat_natCast]
    rfl
  rw [hupdated]
  have hself : ∀ pfd', p.HasPollfd c pfd' →
      HasPollfd { p with pollfds_ := p.pollfds_.modify idx (updated fd p c) } c
        (updated fd p c pfd') := by
    intro pfd' hat
    obtain rfl : pfd' = pfd := hat.unique ⟨idx, hidx, hget⟩
    refine ⟨idx, hidx, ?_⟩
    rw [List.getElem?_modify_eq, hget]
    rfl
  have hkeep : ∀ c', c' ≠ c → registered c' = true → ∀ pfd', p.HasPollfd c' pfd' →
      HasPollfd { p with pollfds_ := p.pollfds_.modify idx (updated fd p c) } c' pfd' := by
    rintro c' hne hreg' pfd' ⟨idx', hidx', hget'⟩
    have hdiff := h.index_ne hfd hreg hreg' hne hidx
    refine ⟨idx', hidx', ?_⟩
    rw [List.getElem?_modify_ne _ _ (by omega), hget']
  refine ⟨⟨h.ever, h.fresh, h.map, ?_, ?_⟩, hself, hkeep⟩
  · intro c' hc'
    rcases eq_or_ne c' c with rfl | hne
    · exact ⟨_, hself pfd ⟨idx, hidx, hget⟩, hnames.updated⟩
    · obtain ⟨pfd', hat', hnames'⟩ := h.slot c' hc'
      exact ⟨pfd', hkeep c' hne hc' pfd' hat', hnames'⟩
  · intro idx' hlt
    rw [List.length_modify] at hlt
    exact h.owner idx' hlt

end PollPoller

end Mymuduo
