import Mymuduo.Net.Bookkeeping

/-!
# Whole runs of `TcpServer`

`Kept` holds in every run with fewer than 2^31 connections (`kept_run`), and so the map, the names
and the order of the bookkeeping are right in every state (`Bookkeeping`).

Once a connection is closed, its removal waits in the base loop and then its destruction in its own
loop. Queues are served in order and only added to (`Grows`), so that whatever happens otherwise,
each of the two is done after as many functors of that loop as were queued there.
-/

namespace Mymuduo

open CString Transition

namespace TcpServer

/-! ## New connections -/

/-- `newConnection` before the connection's loop gets to know. -/
def register (s : TcpServer) : TcpServer :=
  { s with
    nextConnId_ := castInt (s.nextConnId_ + 1)
    next_ := s.advanceNext
    conns := s.conns ++ [s.makeConnection]
    connections_ :=
      Function.update s.connections_ s.makeConnection.name_ (some s.conns.length) }.record
    (.newConnection s.conns.length)

theorem newConnection_eq (s : TcpServer) :
    s.newConnection =
      if s.makeConnection.loop_ = 0 then s.register.connectEstablished 0 s.conns.length
      else s.register.queueInLoop s.makeConnection.loop_ [.connectEstablished s.conns.length] :=
  rfl

theorem nextConnId_eq {s : TcpServer} (h : s.nextConnId_ = castInt (s.conns.length + 1))
    (hfits : s.conns.length + 1 < 2 ^ 31) : s.nextConnId_ = s.conns.length + 1 := by
  rw [h, castInt_eq (by omega) (by omega)]

/-- A text of that length is not cut off. -/
theorem name_makeConnection {s : TcpServer} (h : s.nextConnId_ = castInt (s.conns.length + 1))
    (hfits : s.conns.length + 1 < 2 ^ 31) : s.makeConnection.name_ = s.connName s.conns.length := by
  have hlen : (ascii "#" ++ intText (s.conns.length + 1)).length ≤ 31 := by
    have htext := length_intText_le (z := s.conns.length + 1) (by omega) (by omega)
    have hmark : (ascii "#").length = 1 := rfl
    rw [List.length_append]
    omega
  rw [makeConnection, connName, nextConnId_eq h hfits, List.take_of_length_le hlen]

theorem conns_register (s : TcpServer) :
    s.register.conns[s.conns.length]? = some s.makeConnection :=
  List.getElem?_concat_length

theorem conns_register_of_ne (s : TcpServer) {k : Nat} (hne : k ≠ s.conns.length) :
    s.register.conns[k]? = s.conns[k]? := by
  show (s.conns ++ [s.makeConnection])[k]? = s.conns[k]?
  rcases Nat.lt_or_gt_of_ne hne with hlt | hgt
  · exact List.getElem?_append_left hlt
  · have hout : (s.conns ++ [s.makeConnection]).length ≤ k := by
      rw [List.length_append]
      exact hgt
    rw [List.getElem?_eq_none_iff.mpr hout, List.getElem?_eq_none_iff.mpr hgt.le]

theorem length_register (s : TcpServer) : s.register.conns.length = s.conns.length + 1 :=
  List.length_append

theorem Booked.register_other {s : TcpServer} {k : Nat} {token : Option (Nat × Task)}
    {history : List Record} (h : Booked s k token history) (hne : k ≠ s.conns.length) :
    Booked s.register k token history := by
  have hrecord : Record.isAbout k (.newConnection s.conns.length) = false := by
    simpa [Record.isAbout] using hne.symm
  exact ⟨h.tasks, (h.record_other hrecord).records⟩

theorem Ordered.register {s : TcpServer} (h : Ordered s) (hfits : s.conns.length + 1 < 2 ^ 31) :
    Ordered s.register := by
  have hname := name_makeConnection h.nextId hfits
  refine ⟨?_, ?_, ?_, ?_, ?_⟩
  · intro k x hx
    rcases eq_or_ne k s.conns.length with rfl | hne
    · rw [conns_register] at hx
      exact Option.some.inj hx ▸ hname
    · rw [conns_register_of_ne s hne] at hx
      exact h.named k x hx
  · intro name hforeign
    rw [length_register] at hforeign
    have hdiff : name ≠ s.makeConnection.name_ := hname ▸ hforeign _ (Nat.lt_succ_self _)
    exact (Function.update_of_ne hdiff ..).trans
      (h.foreign name fun k hk => hforeign k (Nat.lt_succ_of_lt hk))
  · intro k hk
    rw [length_register] at hk
    exact (h.absent k (Nat.le_of_succ_le hk)).register_other (Nat.ne_of_gt hk)
  · show castInt (s.nextConnId_ + 1) = castInt (s.register.conns.length + 1)
    rw [nextConnId_eq h.nextId hfits, length_register, Nat.cast_add, Nat.cast_one]
  · intro l k f hf
    obtain ⟨x, hx, hl⟩ := h.home l k f hf
    have hlt : k < s.conns.length := (List.getElem?_eq_some_iff.mp hx).1
    exact ⟨x, (conns_register_of_ne s hlt.ne).trans hx, hl⟩

theorem Follows.register {s : TcpServer} (h : Ordered s) (hfits : s.conns.length + 1 < 2 ^ 31)
    {k : Nat} {x : Connection} {g : Progress} (hg : Follows s k x g) (hx : s.conns[k]? = some x) :
    Follows s.register k x g := by
  have hlt : k < s.conns.length := (List.getElem?_eq_some_iff.mp hx).1
  have hdiff : x.name_ ≠ s.makeConnection.name_ := fun heq => by
    rw [h.named k x hx, name_makeConnection h.nextId hfits] at heq
    exact hlt.ne (connName_injective s heq)
  exact ⟨hg.holds, hg.booked.register_other hlt.ne, (Function.update_of_ne hdiff ..).trans hg.map⟩

theorem Kept.newConnection {s : TcpServer} (h : Kept s) (hfits : s.conns.length + 1 < 2 ^ 31) :
    Kept s.newConnection := by
  have hx := conns_register s
  have hothers : ∀ k ≠ s.conns.length, ∀ y, s.register.conns[k]? = some y →
      ∃ g, Follows s.register k y g := fun k hne y hy => by
    rw [conns_register_of_ne s hne] at hy
    obtain ⟨g, hg⟩ := h.follows k y hy
    exact ⟨g, hg.register h.ordered hfits hy⟩
  have hordered := h.ordered.register hfits
  have hidle : s.makeConnection.conn.channel_.isReading = false := by
    show Events.test Channel.kNoneEvent Channel.kReadEvent = false
    decide
  have hholds : Progress.created.Holds s.makeConnection.conn :=
    ⟨rfl, hidle, List.not_mem_nil⟩
  have hrecord : Record.isAbout s.conns.length (.newConnection s.conns.length) = true :=
    beq_self_eq_true s.conns.length
  have hbooked : Booked s.register s.conns.length none
      (Progress.created.history s.makeConnection.loop_ s.conns.length) := by
    have habsent := h.ordered.absent s.conns.length le_rfl
    have hnew := habsent.record (.newConnection s.conns.length)
    rw [List.filter_cons_of_pos hrecord, List.filter_nil] at hnew
    exact ⟨habsent.tasks, hnew.records⟩
  have hmap : s.register.connections_ s.makeConnection.name_ = some s.conns.length :=
    Function.update_self ..
  rw [newConnection_eq]
  split
  · next hbase =>
    have hest := Follows.established hx hholds hbooked hmap
    rw [hbase] at hest
    exact Kept.of_step hothers hordered hx
      (onlyAbout_recordAct hx (r := .connectEstablished 0 s.conns.length)
        (beq_self_eq_true s.conns.length) 0 [] .connectEstablished)
      (conns_recordAct hx (.connectEstablished 0 s.conns.length) 0 [] .connectEstablished) rfl rfl
      ⟨_, hest⟩
  · have htask : Task.isAbout s.conns.length (.connectEstablished s.conns.length) = true :=
      beq_self_eq_true s.conns.length
    refine Kept.of_step hothers hordered hx
      (onlyAbout_queueInLoop s.register s.makeConnection.name_ s.makeConnection.loop_ _ ?_
        (by simp)) hx rfl rfl ⟨.created, hholds, hbooked.queue _ htask, hmap⟩
    intro k hne
    simp [isAbout_task_of_ne htask hne]

/-! ## What a step leaves -/

/-- Queues are only added to, no record is lost and no connection is replaced. -/
structure Grows (s s' : TcpServer) : Prop where
  queues : ∀ l, s.queues l <+: s'.queues l
  records : s.records <+: s'.records
  conns : ∀ (k : Nat) (x : Connection), s.conns[k]? = some x →
    ∃ c, s'.conns[k]? = some { x with conn := c }
  length : s'.conns.length = s.conns.length

theorem Grows.refl (s : TcpServer) : Grows s s :=
  ⟨fun l => List.prefix_refl (s.queues l), List.prefix_refl s.records,
    fun _ x hx => ⟨x.conn, hx⟩, rfl⟩

theorem Grows.trans {s₁ s₂ s₃ : TcpServer} (h : Grows s₁ s₂) (h' : Grows s₂ s₃) : Grows s₁ s₃ := by
  refine ⟨fun l => (h.queues l).trans (h'.queues l), h.records.trans h'.records, fun k x hx => ?_,
    h'.length.trans h.length⟩
  obtain ⟨c, hc⟩ := h.conns k x hx
  obtain ⟨c', hc'⟩ := h'.conns k _ hc
  exact ⟨c', hc'⟩

theorem grows_record (s : TcpServer) (e : Record) : Grows s (s.record e) :=
  { Grows.refl s with records := List.prefix_append s.records [e] }

theorem grows_queueInLoop (s : TcpServer) (l : Nat) (ts : List Task) :
    Grows s (s.queueInLoop l ts) := by
  refine { Grows.refl s with queues := fun l' => ?_ }
  rw [queues_queueInLoop]
  exact List.prefix_append ..

theorem grows_removeConnectionInLoop (s : TcpServer) (l k : Nat) :
    Grows s (s.removeConnectionInLoop l k) := by
  cases hx : s.conns[k]? with
  | none =>
    simp only [removeConnectionInLoop, hx]
    exact .refl s
  | some x =>
    rw [removeConnectionInLoop_eq hx]
    have herase : Grows s
        { s with connections_ := Function.update s.connections_ x.name_ none } :=
      { Grows.refl s with }
    exact (herase.trans (grows_record _ _)).trans (grows_queueInLoop _ x.loop_ _)

theorem grows_removeConnection (s : TcpServer) (l k : Nat) : Grows s (s.removeConnection l k) := by
  unfold removeConnection
  dsimp only
  split
  · exact (grows_record s _).trans (grows_removeConnectionInLoop _ l k)
  · exact (grows_record s _).trans (grows_queueInLoop _ 0 _)

theorem grows_putBack {s : TcpServer} {k : Nat} {x : Connection} (hx : s.conns[k]? = some x)
    (c : TcpConnection) : Grows s (s.putBack k x c) := by
  have hset : Grows s { s with conns := s.conns.set k (x.store c) } := by
    refine { Grows.refl s with conns := fun j y hy => ?_, length := List.length_set }
    rcases eq_or_ne j k with rfl | hne
    · obtain rfl : x = y := Option.some.inj (hx.symm.trans hy)
      exact ⟨_, conns_putBack hx c⟩
    · exact ⟨y.conn, (List.getElem?_set_ne hne.symm).trans hy⟩
  exact hset.trans (grows_queueInLoop _ x.loop_ _)

theorem grows_act (s : TcpServer) (l k : Nat) (pending : List Functor) (e : TcpConnection.Event) :
    Grows s (s.act l k pending e) := by
  cases hx : s.conns[k]? with
  | none =>
    simp only [act, hx]
    exact .refl s
  | some x =>
    have hput := grows_putBack hx (x.step pending e)
    rw [act_eq hx]
    split
    · exact hput.trans (grows_removeConnection _ l k)
    · exact hput

theorem grows_connectEstablished (s : TcpServer) (l k : Nat) :
    Grows s (s.connectEstablished l k) :=
  (grows_record s _).trans (grows_act _ l k [] _)

theorem grows_runTask (s : TcpServer) (l : Nat) (r : SysRet) (t : Task) :
    Grows s (s.runTask l r t) := by
  cases t with
  | connectEstablished k => exact grows_connectEstablished s l k
  | removeConnectionInLoop k => exact grows_removeConnectionInLoop s l k
  | connectDestroyed k => exact (grows_record s _).trans (grows_act _ l k [] _)
  | functor k f => exact grows_act s l k [f] _

/-- What an event does before it only adds: a connection comes in or a functor goes out. -/
def start (s : TcpServer) : Event → TcpServer
  | .newConnection => s.register
  | .conn _ _ => s
  | .doPendingFunctor l _ => s.setQueue l (s.queues l).tail

theorem grows_step (s : TcpServer) (e : Event) : Grows (s.start e) (s.step e) := by
  cases e with
  | newConnection =>
    rw [step, newConnection_eq, start]
    split
    · exact grows_connectEstablished _ 0 _
    · exact grows_queueInLoop ..
  | conn k e =>
    rw [step, start]
    split
    · exact .refl s
    · next x _ =>
      split
      · exact grows_act s x.loop_ k [] e
      · exact .refl s
  | doPendingFunctor l r =>
    rw [step, start]
    split
    · next hq =>
      refine { Grows.refl s with queues := fun l' => ?_ }
      rw [queues_setQueue, hq, List.tail_nil]
      split
      · exact List.nil_prefix
      · exact List.prefix_refl _
    · next t ts hq =>
      rw [hq, List.tail_cons]
      exact grows_runTask _ l r t

/-- The event is a run of the first functor in the queue of the loop `l`. -/
def Event.runs (l : Nat) : Event → Bool
  | .doPendingFunctor l' _ => l' == l
  | _ => false

theorem queues_step (s : TcpServer) (l : Nat) (e : Event) :
    (if e.runs l then (s.queues l).tail else s.queues l) <+: (s.step e).queues l := by
  have hstart : (s.start e).queues l = if e.runs l then (s.queues l).tail else s.queues l := by
    cases e with
    | newConnection => rfl
    | conn => rfl
    | doPendingFunctor l' r =>
      rw [start, queues_setQueue]
      rcases eq_or_ne l l' with rfl | hne
      · simp [Event.runs]
      · simp [Event.runs, hne, hne.symm]
  exact hstart ▸ (grows_step s e).queues l

theorem records_step (s : TcpServer) (e : Event) : s.records <+: (s.step e).records := by
  have hstart : s.records <+: (s.start e).records := by
    cases e with
    | newConnection => exact List.prefix_append ..
    | conn => exact List.prefix_refl _
    | doPendingFunctor => exact List.prefix_refl _
  exact hstart.trans (grows_step s e).records

theorem conns_step (s : TcpServer) (e : Event) {k : Nat} {x : Connection}
    (hx : s.conns[k]? = some x) : ∃ c, (s.step e).conns[k]? = some { x with conn := c } := by
  refine (grows_step s e).conns k x ?_
  cases e with
  | newConnection =>
    exact (conns_register_of_ne s (List.getElem?_eq_some_iff.mp hx).1.ne).trans hx
  | conn => exact hx
  | doPendingFunctor => exact hx

theorem length_step (s : TcpServer) (e : Event) :
    (s.step e).conns.length = s.conns.length + [e].count .newConnection := by
  rw [(grows_step s e).length]
  cases e with
  | newConnection => exact length_register s
  | conn => rfl
  | doPendingFunctor => rfl

/-! ## Runs -/

/-- There is a number left for the connection. -/
def Fits (s : TcpServer) (e : Event) : Prop :=
  e = .newConnection → s.conns.length + 1 < 2 ^ 31

theorem Kept.step {s : TcpServer} (h : Kept s) {e : Event} (hfits : s.Fits e) :
    Kept (s.step e) := by
  cases e with
  | newConnection => exact h.newConnection (hfits rfl)
  | conn k e =>
    rw [TcpServer.step]
    split
    · exact h
    · next x hx =>
      split
      · next he => exact h.conn hx he
      · exact h
  | doPendingFunctor l r =>
    rw [TcpServer.step]
    split
    · exact h
    · next t ts hq => exact h.runTask hq r

theorem meets_fits {s : TcpServer} {es : List Event}
    (h : s.conns.length + es.count .newConnection < 2 ^ 31) : Meets Fits step s es := by
  induction es generalizing s with
  | nil => trivial
  | cons e es ih =>
    rw [← List.singleton_append, List.count_append] at h
    refine ⟨?_, ih ?_⟩
    · rintro rfl
      rw [List.count_singleton_self] at h
      omega
    · rw [length_step]
      omega

theorem kept_run {s : TcpServer} (h : Kept s) {es : List Event}
    (hcount : s.conns.length + es.count .newConnection < 2 ^ 31) :
    Kept (run step s es) :=
  run_invariant (fun _ _ h hfits => h.step hfits) h (meets_fits hcount)

theorem kept_new (name : Bytes) (writeCompleteCallback : Bool) (numThreads : Nat) :
    Kept (new name writeCompleteCallback numThreads) := by
  refine ⟨fun k x hx => ?_, fun k x hx => ?_, fun _ _ => rfl, fun k _ => ⟨fun _ => rfl, rfl⟩,
    (castInt_eq (z := 1) (by decide) (by decide)).symm, fun l k f hf => ?_⟩
  · cases hx
  · cases hx
  · cases hf

theorem length_run (s : TcpServer) (es : List Event) :
    (run step s es).conns.length = s.conns.length + es.count .newConnection := by
  induction es generalizing s with
  | nil => rfl
  | cons e es ih =>
    have hcount : ([e] ++ es).count .newConnection =
        [e].count .newConnection + es.count .newConnection := List.count_append
    rw [run_cons, ih, length_step, Nat.add_assoc, ← hcount, List.singleton_append]

theorem records_run (s : TcpServer) (es : List Event) :
    s.records <+: (run step s es).records :=
  run_preserves (I := fun s' => s.records <+: s'.records)
    (fun s' e h => h.trans (records_step s' e)) es (List.prefix_refl _)

theorem conns_run {s : TcpServer} (es : List Event) {k : Nat} {x : Connection}
    (hx : s.conns[k]? = some x) : ∃ c, (run step s es).conns[k]? = some { x with conn := c } := by
  refine run_preserves (I := fun (s' : TcpServer) => ∃ c, s'.conns[k]? = some { x with conn := c })
    (fun s' e h => ?_) es ⟨x.conn, hx⟩
  obtain ⟨c, hc⟩ := h
  obtain ⟨c', hc'⟩ := conns_step s' e hc
  exact ⟨c', hc'⟩

/-! ## The bookkeeping in every state -/

/-- The whole bookkeeping of a connection. -/
def life (loop k : Nat) : List Record :=
  [.newConnection k, .connectEstablished loop k, .removeConnection loop k,
    .removeConnectionInLoop 0 k 1, .connectDestroyed loop k]

/-- The bookkeeping of the server is right. -/
structure Bookkeeping (s : TcpServer) : Prop where
  names : (s.conns.map Connection.name_).Nodup
  created : ∀ k, .newConnection k ∈ s.records ↔ k < s.conns.length
  /-- The map has the connections whose `removeConnectionInLoop` has not run, under their names. -/
  map : ∀ name k, s.connections_ name = some k ↔
    (∃ x, s.conns[k]? = some x ∧ x.name_ = name) ∧ ∀ l n, .removeConnectionInLoop l k n ∉ s.records
  erased : ∀ l k n, .removeConnectionInLoop l k n ∈ s.records → n = 1
  closed : ∀ k x, s.conns[k]? = some x →
    (Effect.closeCallback ∈ x.conn.trace ↔ .removeConnection x.loop_ k ∈ s.records)
  life : ∀ k x, s.conns[k]? = some x →
    s.records.filter (Record.isAbout k) <+: life x.loop_ k

theorem Follows.mem_records {s : TcpServer} {k : Nat} {x : Connection} {g : Progress}
    (hg : Follows s k x g) {e : Record} (he : e.isAbout k = true) :
    e ∈ s.records ↔ e ∈ g.history x.loop_ k := by
  rw [← hg.booked.records, List.mem_filter, and_iff_left he]

theorem Kept.mem_records {s : TcpServer} (h : Kept s) {k : Nat} {e : Record}
    (he : e.isAbout k = true) (hmem : e ∈ s.records) :
    ∃ x g, s.conns[k]? = some x ∧ Follows s k x g ∧ e ∈ g.history x.loop_ k := by
  cases hx : s.conns[k]? with
  | none =>
    have habsent := h.ordered.absent k (List.getElem?_eq_none_iff.mp hx)
    have hin : e ∈ s.records.filter (Record.isAbout k) := List.mem_filter.mpr ⟨hmem, he⟩
    rw [habsent.records] at hin
    cases hin
  | some x =>
    obtain ⟨g, hg⟩ := h.follows k x hx
    exact ⟨x, g, rfl, hg, (hg.mem_records he).mp hmem⟩

theorem Progress.mapped_iff (g : Progress) (loop k : Nat) :
    g.mapped = true ↔ ∀ l n, Record.removeConnectionInLoop l k n ∉ g.history loop k := by
  cases g <;> simp [mapped, history]

theorem Follows.map_iff {s : TcpServer} {k : Nat} {x : Connection} {g : Progress}
    (hg : Follows s k x g) :
    s.connections_ x.name_ = some k ↔ ∀ l n, .removeConnectionInLoop l k n ∉ s.records := by
  have hrecord : ∀ l n, Record.isAbout k (.removeConnectionInLoop l k n) = true :=
    fun _ _ => beq_self_eq_true k
  simp only [hg.mem_records (hrecord _ _), ← g.mapped_iff x.loop_ k, hg.map]
  cases g.mapped <;> simp

theorem Kept.map_iff {s : TcpServer} (h : Kept s) (name : Bytes) (k : Nat) :
    s.connections_ name = some k ↔
      (∃ x, s.conns[k]? = some x ∧ x.name_ = name) ∧
        ∀ l n, .removeConnectionInLoop l k n ∉ s.records := by
  constructor
  · intro hmap
    obtain ⟨j, hj, rfl⟩ : ∃ j < s.conns.length, name = s.connName j := by
      by_contra hno
      rw [h.ordered.foreign name fun j hj heq => hno ⟨j, hj, heq⟩] at hmap
      cases hmap
    have hx : s.conns[j]? = some s.conns[j] := List.getElem?_eq_getElem hj
    have hname := h.ordered.named j _ hx
    obtain ⟨g, hg⟩ := h.follows j _ hx
    rw [← hname, hg.map] at hmap
    split at hmap
    · next hmapped =>
      obtain rfl : j = k := Option.some.inj hmap
      refine ⟨⟨_, hx, hname⟩, hg.map_iff.mp ?_⟩
      rw [hg.map, if_pos hmapped]
    · cases hmap
  · rintro ⟨⟨x, hx, rfl⟩, hno⟩
    obtain ⟨g, hg⟩ := h.follows k x hx
    exact hg.map_iff.mpr hno

theorem Kept.names_nodup {s : TcpServer} (h : Kept s) :
    (s.conns.map Connection.name_).Nodup := by
  refine List.nodup_iff_getElem?_ne_getElem?.mpr fun i j hij hj heq => ?_
  rw [List.length_map] at hj
  have hi : i < s.conns.length := hij.trans hj
  rw [List.getElem?_map, List.getElem?_map, List.getElem?_eq_getElem hi,
    List.getElem?_eq_getElem hj] at heq
  have hnames : s.conns[i].name_ = s.conns[j].name_ := Option.some.inj heq
  rw [h.ordered.named i _ (List.getElem?_eq_getElem hi),
    h.ordered.named j _ (List.getElem?_eq_getElem hj)] at hnames
  exact hij.ne (connName_injective s hnames)

theorem Kept.bookkeeping {s : TcpServer} (h : Kept s) : Bookkeeping s where
  names := h.names_nodup
  created := fun k => by
    have hrecord : Record.isAbout k (.newConnection k) = true := beq_self_eq_true k
    constructor
    · intro hmem
      obtain ⟨x, -, hx, -⟩ := h.mem_records hrecord hmem
      exact (List.getElem?_eq_some_iff.mp hx).1
    · intro hk
      obtain ⟨g, hg⟩ := h.follows k _ (List.getElem?_eq_getElem hk)
      rw [hg.mem_records hrecord]
      cases g <;> exact List.mem_cons_self
  map := h.map_iff
  erased := fun l k n hmem => by
    have hrecord : Record.isAbout k (.removeConnectionInLoop l k n) = true := beq_self_eq_true k
    obtain ⟨x, g, -, -, hin⟩ := h.mem_records hrecord hmem
    cases g <;> simp_all [Progress.history]
  closed := fun k x hx => by
    obtain ⟨g, hg⟩ := h.follows k x hx
    have hrecord : Record.isAbout k (.removeConnection x.loop_ k) = true := beq_self_eq_true k
    rw [hg.mem_records hrecord]
    have hholds := hg.holds
    cases g with
    | created => simp [Progress.history, hholds.2.2]
    | established => simp [Progress.history, hholds.2]
    | closed | removed | destroyed => simp [Progress.history, hholds.2.2]
  life := fun k x hx => by
    obtain ⟨g, hg⟩ := h.follows k x hx
    rw [hg.booked.records]
    cases g <;> simp [Progress.history, TcpServer.life]

/-! ## The end of a closed connection -/

/-- The loop `l` runs as many functors in `es` as it has queued. -/
def Served (l : Nat) (s : TcpServer) (es : List Event) : Prop :=
  (s.queues l).length ≤ es.countP (Event.runs l)

instance (l : Nat) (s : TcpServer) (es : List Event) : Decidable (Served l s es) :=
  inferInstanceAs (Decidable (_ ≤ _))

/-- What is queued comes to the front of its queue and is run. -/
theorem Served.runs {l : Nat} {s : TcpServer} {es : List Event} (h : Served l s es) {t : Task}
    (ht : t ∈ s.queues l) :
    ∃ es₁ r es₂ ts, es = es₁ ++ .doPendingFunctor l r :: es₂ ∧
      (run step s es₁).queues l = t :: ts := by
  obtain ⟨front, rest, hq⟩ := List.append_of_mem ht
  have hlen : front.length < es.countP (Event.runs l) := by
    rw [Served, hq, List.length_append, List.length_cons] at h
    omega
  obtain ⟨es₁, e, es₂, hes, hruns, hhead⟩ :=
    run_takes (q := fun s => s.queues l) (fun s e => queues_step s l e) hq hlen
  obtain ⟨ts, hts⟩ := List.head?_eq_some_iff.mp hhead
  cases e with
  | doPendingFunctor l' r =>
    obtain rfl : l' = l := beq_iff_eq.mp hruns
    exact ⟨es₁, r, es₂, ts, hes, hts⟩
  | _ => cases hruns

theorem tasksIn_token (l : Nat) (t : Task) : tasksIn (some (l, t)) l = [t] := if_pos rfl

/-- The task that is next for a connection is queued. -/
theorem Follows.queued {s : TcpServer} {k : Nat} {x : Connection} {g : Progress}
    (hg : Follows s k x g) {l : Nat} {t : Task} (ht : g.token x.loop_ k = some (l, t)) :
    t ∈ s.queues l := by
  have htasks := hg.booked.tasks l
  rw [ht, tasksIn_token] at htasks
  exact (List.mem_filter.mp (htasks ▸ List.mem_cons_self)).1

theorem Served.recorded {l : Nat} {s : TcpServer} {es : List Event} (h : Served l s es) {t : Task}
    (ht : t ∈ s.queues l) {p : Record → Prop}
    (hrun : ∀ es₁ r ts, (run step s es₁).queues l = t :: ts →
      ∃ e ∈ (((run step s es₁).setQueue l ts).runTask l r t).records, p e) :
    ∃ e ∈ (run step s es).records, p e := by
  obtain ⟨es₁, r, es₂, ts, rfl, hq⟩ := h.runs ht
  obtain ⟨e, he, hp⟩ := hrun es₁ r ts hq
  refine ⟨e, ?_, hp⟩
  rw [run_append, run_cons, step, hq]
  exact (records_run _ es₂).subset he

/-- The base loop takes a closed connection out of the map. -/
theorem recorded_removal {s : TcpServer} (h : Kept s) {k : Nat} {x : Connection}
    (hx : s.conns[k]? = some x) (hclosed : Effect.closeCallback ∈ x.conn.trace)
    {es : List Event} (hserved : Served 0 s es) :
    ∃ e ∈ (run step s es).records, ∃ n, e = .removeConnectionInLoop 0 k n := by
  obtain ⟨g, hg⟩ := h.follows k x hx
  have hholds := hg.holds
  have hrecord : Record.isAbout k (.removeConnectionInLoop 0 k 1) = true := beq_self_eq_true k
  have hdone : .removeConnectionInLoop 0 k 1 ∈ g.history x.loop_ k →
      ∃ e ∈ (run step s es).records, ∃ n, e = .removeConnectionInLoop 0 k n := fun hin =>
    ⟨_, (records_run s es).subset ((hg.mem_records hrecord).mpr hin), 1, rfl⟩
  cases g with
  | created => exact absurd hclosed hholds.2.2
  | established => exact absurd hclosed hholds.2
  | closed =>
    refine hserved.recorded (hg.queued rfl) fun es₁ r ts hq => ?_
    obtain ⟨c, hc⟩ := conns_run es₁ hx
    rw [runTask, removeConnectionInLoop_eq (s := (run step s es₁).setQueue 0 ts) hc]
    exact ⟨_, List.mem_append_right _ List.mem_cons_self, _, rfl⟩
  | removed | destroyed => exact hdone (by simp [Progress.history])

/-- Its own loop destroys a connection that is out of the map. -/
theorem recorded_destruction {s : TcpServer} (h : Kept s) {k : Nat} {x : Connection}
    (hx : s.conns[k]? = some x) {n : Nat} (hremoved : .removeConnectionInLoop 0 k n ∈ s.records)
    {es : List Event} (hserved : Served x.loop_ s es) :
    ∃ e ∈ (run step s es).records, e = .connectDestroyed x.loop_ k := by
  obtain ⟨g, hg⟩ := h.follows k x hx
  have hrecord : Record.isAbout k (.removeConnectionInLoop 0 k n) = true := beq_self_eq_true k
  rw [hg.mem_records hrecord] at hremoved
  cases g with
  | created | established | closed => simp [Progress.history] at hremoved
  | removed =>
    refine hserved.recorded (hg.queued rfl) fun es₁ r ts hq => ⟨_, ?_, rfl⟩
    exact (grows_act _ x.loop_ k [] _).records.subset
      (List.mem_append_right _ List.mem_cons_self)
  | destroyed =>
    have hdestroyed : Record.isAbout k (.connectDestroyed x.loop_ k) = true := beq_self_eq_true k
    refine ⟨_, (records_run s es).subset ((hg.mem_records hdestroyed).mpr ?_), rfl⟩
    simp [Progress.history]

/-- What `connectDestroyed` is the end of. -/
theorem life_of_destroyed {s : TcpServer} (h : Kept s) {k : Nat} {x : Connection}
    (hx : s.conns[k]? = some x) (hdestroyed : .connectDestroyed x.loop_ k ∈ s.records) :
    s.records.filter (Record.isAbout k) = life x.loop_ k := by
  obtain ⟨g, hg⟩ := h.follows k x hx
  have hrecord : Record.isAbout k (.connectDestroyed x.loop_ k) = true := beq_self_eq_true k
  rw [hg.mem_records hrecord] at hdestroyed
  rw [hg.booked.records]
  cases g with
  | destroyed => rfl
  | _ => simp [Progress.history] at hdestroyed

/-- The bookkeeping is right in every state, and a connection that is closed after `es₀` has all of
it once the base loop and then its own loop have run what they had queued. -/
theorem connections_kept (name : Bytes) (writeCompleteCallback : Bool) (numThreads : Nat)
    (es : List Event) (hcount : es.count .newConnection < 2 ^ 31) :
    (run step (new name writeCompleteCallback numThreads) es).conns.length =
        es.count .newConnection ∧
      Bookkeeping (run step (new name writeCompleteCallback numThreads) es) ∧
      ∀ es₀ es₁ es₂ k x, es = es₀ ++ es₁ ++ es₂ →
        (run step (new name writeCompleteCallback numThreads) es₀).conns[k]? = some x →
        Effect.closeCallback ∈ x.conn.trace →
        Served 0 (run step (new name writeCompleteCallback numThreads) es₀) es₁ →
        Served x.loop_ (run step (new name writeCompleteCallback numThreads) (es₀ ++ es₁)) es₂ →
        (run step (new name writeCompleteCallback numThreads) es).records.filter
          (Record.isAbout k) = life x.loop_ k := by
  have hkept : ∀ es', es' <+: es →
      Kept (run step (new name writeCompleteCallback numThreads) es') := fun es' hpre =>
    kept_run (kept_new name writeCompleteCallback numThreads)
      ((Nat.zero_add _).trans_lt ((hpre.sublist.count_le .newConnection).trans_lt hcount))
  refine ⟨(length_run _ es).trans (Nat.zero_add _), (hkept es List.prefix_rfl).bookkeeping, ?_⟩
  rintro es₀ es₁ es₂ k x rfl hx hclosed hbase hown
  have h₁ := hkept (es₀ ++ es₁) (List.prefix_append _ es₂)
  have h₀ := hkept es₀ ((List.prefix_append es₀ es₁).trans (List.prefix_append _ es₂))
  have hend := hkept (es₀ ++ es₁ ++ es₂) List.prefix_rfl
  obtain ⟨_, hremoved, n, rfl⟩ := recorded_removal h₀ hx hclosed hbase
  rw [← run_append] at hremoved
  obtain ⟨c₁, hx₁⟩ := conns_run es₁ hx
  rw [← run_append] at hx₁
  obtain ⟨_, hdestroyed, rfl⟩ := recorded_destruction h₁ hx₁ hremoved hown
  rw [← run_append] at hdestroyed
  obtain ⟨c₂, hx₂⟩ := conns_run es₂ hx₁
  rw [← run_append] at hx₂
  exact life_of_destroyed (x := { x with conn := c₂ }) hend hx₂ hdestroyed

/-- A connection in the loop of a pool is closed by the peer and has all of the bookkeeping. -/
theorem connections_kept_closed :
    (run step (new [102] false 1)
      [.newConnection, .doPendingFunctor 1 (.ok 0), .conn 0 (.handleRead (.ok [])),
        .doPendingFunctor 0 (.ok 0), .doPendingFunctor 1 (.ok 0)]).records.filter
      (Record.isAbout 0) = life 1 0 := by
  have hlen : 0 < (run step (new [102] false 1) [.newConnection, .doPendingFunctor 1 (.ok 0),
      .conn 0 (.handleRead (.ok []))]).conns.length := by
    decide +kernel
  exact (connections_kept [102] false 1 _ (by decide)).2.2
    [.newConnection, .doPendingFunctor 1 (.ok 0), .conn 0 (.handleRead (.ok []))]
    [.doPendingFunctor 0 (.ok 0)] [.doPendingFunctor 1 (.ok 0)] 0 _ rfl
    (List.getElem?_eq_getElem hlen) (by decide +kernel +revert) (by decide +kernel)
    (by decide +kernel +revert)

end TcpServer

end Mymuduo
