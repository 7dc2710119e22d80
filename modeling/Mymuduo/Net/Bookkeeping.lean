import Mymuduo.Net.ChannelRemoval
import Mymuduo.Net.LifeCycle
import Mymuduo.Net.TcpServer

/-!
# The bookkeeping of `TcpServer`

The bookkeeping of a connection goes from loop to loop: the base loop makes the connection, its own
loop establishes and closes it, the base loop takes it out of `connections_`, and its own loop
destroys it. `Progress` is how far this has got. What is next is a task in a queue, and there is
never more than one of them for a connection (`Progress.token`), because only a connection that is
established can be closed.

* `Kept`: every connection has got somewhere, and the map and the names agree with that.
* `Kept.conn`, `Kept.runTask`: what happens to a connection in its loop keeps it, and so does every
  task.
-/

namespace Mymuduo

open CString Transition

/-- The tasks of the bookkeeping of the connection `k`. -/
def Task.isAbout (k : Nat) : Task → Bool
  | .connectEstablished j => j == k
  | .removeConnectionInLoop j => j == k
  | .connectDestroyed j => j == k
  | .functor _ _ => false

def Record.isAbout (k : Nat) : Record → Bool
  | .newConnection j => j == k
  | .connectEstablished _ j => j == k
  | .removeConnection _ j => j == k
  | .removeConnectionInLoop _ j _ => j == k
  | .connectDestroyed _ j => j == k

namespace TcpServer

/-! ## Queues and records -/

/-- The tasks in the loop `l`, of which there is one in all or none. -/
def tasksIn (token : Option (Nat × Task)) (l : Nat) : List Task :=
  match token with
  | some (l', t) => if l = l' then [t] else []
  | none => []

/-- What the queues and the records have about the connection `k`. -/
structure Booked (s : TcpServer) (k : Nat) (token : Option (Nat × Task)) (history : List Record) :
    Prop where
  tasks : ∀ l, (s.queues l).filter (Task.isAbout k) = tasksIn token l
  records : s.records.filter (Record.isAbout k) = history

theorem Booked.of_eq {s s' : TcpServer} {k : Nat} {token : Option (Nat × Task)}
    {history : List Record} (h : Booked s k token history) (hq : s'.queues = s.queues)
    (hr : s'.records = s.records) : Booked s' k token history :=
  ⟨hq ▸ h.tasks, hr ▸ h.records⟩

theorem Booked.record {s : TcpServer} {k : Nat} {token : Option (Nat × Task)}
    {history : List Record} (h : Booked s k token history) (e : Record) :
    Booked (s.record e) k token (history ++ [e].filter (Record.isAbout k)) :=
  ⟨h.tasks, by rw [TcpServer.record, List.filter_append, h.records]⟩

theorem Booked.record_other {s : TcpServer} {k : Nat} {token : Option (Nat × Task)}
    {history : List Record} (h : Booked s k token history) {e : Record}
    (he : e.isAbout k = false) : Booked (s.record e) k token history := by
  simpa [he] using h.record e

theorem queues_queueInLoop (s : TcpServer) (l : Nat) (ts : List Task) (l' : Nat) :
    (s.queueInLoop l ts).queues l' = s.queues l' ++ if l' = l then ts else [] := by
  rcases eq_or_ne l' l with rfl | hne
  · simp [queueInLoop]
  · simp [queueInLoop, hne]

theorem queues_setQueue (s : TcpServer) (l : Nat) (ts : List Task) (l' : Nat) :
    (s.setQueue l ts).queues l' = if l' = l then ts else s.queues l' :=
  Function.update_apply s.queues l ts l'

theorem Booked.queue_other {s : TcpServer} {k : Nat} {token : Option (Nat × Task)}
    {history : List Record} (h : Booked s k token history) (l : Nat) {ts : List Task}
    (hts : ts.filter (Task.isAbout k) = []) : Booked (s.queueInLoop l ts) k token history := by
  refine ⟨fun l' => ?_, h.records⟩
  rw [queues_queueInLoop, List.filter_append, h.tasks l']
  split
  · rw [hts, List.append_nil]
  · rw [List.filter_nil, List.append_nil]

/-- The one task there is of a connection. -/
theorem Booked.queue {s : TcpServer} {k : Nat} {history : List Record}
    (h : Booked s k none history) (l : Nat) {t : Task} (ht : t.isAbout k = true) :
    Booked (s.queueInLoop l [t]) k (some (l, t)) history := by
  refine ⟨fun l' => ?_, h.records⟩
  rw [queues_queueInLoop, List.filter_append, h.tasks l']
  simp only [tasksIn, List.nil_append]
  split <;> simp [ht]

theorem Booked.setQueue_other {s : TcpServer} {k : Nat} {token : Option (Nat × Task)}
    {history : List Record} (h : Booked s k token history) {l : Nat} {t : Task} {ts : List Task}
    (hq : s.queues l = t :: ts) (ht : t.isAbout k = false) :
    Booked (s.setQueue l ts) k token history := by
  refine ⟨fun l' => ?_, h.records⟩
  rw [← h.tasks l']
  rcases eq_or_ne l' l with rfl | hne
  · simp [setQueue, hq, ht]
  · simp [setQueue, hne]

/-- A task of the connection that comes out of a queue was the one there was. -/
theorem Booked.setQueue {s : TcpServer} {k : Nat} {token : Option (Nat × Task)}
    {history : List Record} (h : Booked s k token history) {l : Nat} {t : Task} {ts : List Task}
    (hq : s.queues l = t :: ts) (ht : t.isAbout k = true) :
    token = some (l, t) ∧ Booked (s.setQueue l ts) k none history := by
  have hhere := h.tasks l
  rw [hq, List.filter_cons_of_pos ht] at hhere
  cases token with
  | none => cases hhere
  | some lt =>
    obtain ⟨l', t'⟩ := lt
    rw [tasksIn] at hhere
    split at hhere
    · next heq =>
      subst heq
      obtain ⟨rfl, hrest⟩ := List.cons_eq_cons.mp hhere
      refine ⟨rfl, fun l' => ?_, h.records⟩
      rcases eq_or_ne l' l with rfl | hne
      · simpa [TcpServer.setQueue, tasksIn] using hrest
      · have hthere := h.tasks l'
        rw [tasksIn, if_neg hne] at hthere
        simpa [TcpServer.setQueue, tasksIn, hne] using hthere
    · cases hhere

/-! ## How far a connection has got -/

inductive Progress
  | created
  | established
  | closed
  | removed
  | destroyed

namespace Progress

/-- The task that takes the bookkeeping on, and the loop it is queued in. -/
def token (loop k : Nat) : Progress → Option (Nat × Task)
  | created => some (loop, .connectEstablished k)
  | established => none
  | closed => some (0, .removeConnectionInLoop k)
  | removed => some (loop, .connectDestroyed k)
  | destroyed => none

def history (loop k : Nat) : Progress → List Record
  | created => [.newConnection k]
  | established => [.newConnection k, .connectEstablished loop k]
  | closed => [.newConnection k, .connectEstablished loop k, .removeConnection loop k]
  | removed => [.newConnection k, .connectEstablished loop k, .removeConnection loop k,
      .removeConnectionInLoop 0 k 1]
  | destroyed => [.newConnection k, .connectEstablished loop k, .removeConnection loop k,
      .removeConnectionInLoop 0 k 1, .connectDestroyed loop k]

/-- Is the connection in `connections_`? -/
def mapped : Progress → Bool
  | removed => false
  | destroyed => false
  | _ => true

/-- The state of the connection itself. -/
def Holds (c : TcpConnection) : Progress → Prop
  | created => c.state_ = .kConnecting ∧ c.channel_.isReading = false ∧
      Effect.closeCallback ∉ c.trace
  | established => c.Up ∧ Effect.closeCallback ∉ c.trace
  | _ => c.state_ = .kDisconnected ∧ c.channel_.isReading = false ∧
      Effect.closeCallback ∈ c.trace

end Progress

/-- The name of the connection `k`. -/
def connName (s : TcpServer) (k : Nat) : Bytes := s.name_ ++ (ascii "#" ++ intText (k + 1))

theorem connName_injective (s : TcpServer) {j k : Nat} (h : s.connName j = s.connName k) :
    j = k := by
  have htext : intText ((j : Int) + 1) = intText (k + 1) :=
    List.append_cancel_left (List.append_cancel_left h)
  have hid := intText_injective htext
  omega

/-- The connection `k` has got as far as `g`. -/
structure Follows (s : TcpServer) (k : Nat) (x : Connection) (g : Progress) : Prop where
  holds : g.Holds x.conn
  booked : Booked s k (g.token x.loop_ k) (g.history x.loop_ k)
  map : s.connections_ x.name_ = if g.mapped then some k else none

/-- The names and numbers, and whose functors are queued where. -/
structure Ordered (s : TcpServer) : Prop where
  named : ∀ k x, s.conns[k]? = some x → x.name_ = s.connName k
  foreign : ∀ name, (∀ k < s.conns.length, name ≠ s.connName k) → s.connections_ name = none
  absent : ∀ k, s.conns.length ≤ k → Booked s k none []
  nextId : s.nextConnId_ = castInt (s.conns.length + 1)
  home : ∀ l k f, .functor k f ∈ s.queues l → ∃ x, s.conns[k]? = some x ∧ x.loop_ = l

structure Kept (s : TcpServer) : Prop where
  follows : ∀ k x, s.conns[k]? = some x → ∃ g, Follows s k x g
  ordered : Ordered s

/-! ## Steps that concern one connection -/

theorem isAbout_of_ne {e : Record} {k j : Nat} (he : e.isAbout k = true) (hne : j ≠ k) :
    e.isAbout j = false := by
  cases e <;> simp_all [Record.isAbout, Ne.symm]

/-- Nothing but the connection `k` is concerned, which is called `name` and lives in `loop`. -/
structure OnlyAbout (k : Nat) (name : Bytes) (loop : Nat) (s s' : TcpServer) : Prop where
  name_ : s'.name_ = s.name_
  nextConnId_ : s'.nextConnId_ = s.nextConnId_
  map : ∀ n ≠ name, s'.connections_ n = s.connections_ n
  booked : ∀ j ≠ k, ∀ token history, Booked s j token history → Booked s' j token history
  length : s'.conns.length = s.conns.length
  conns : ∀ j ≠ k, s'.conns[j]? = s.conns[j]?
  functors : ∀ l j f, .functor j f ∈ s'.queues l → .functor j f ∈ s.queues l ∨ j = k ∧ l = loop

theorem OnlyAbout.trans {k : Nat} {name : Bytes} {loop : Nat} {s₁ s₂ s₃ : TcpServer}
    (h : OnlyAbout k name loop s₁ s₂) (h' : OnlyAbout k name loop s₂ s₃) :
    OnlyAbout k name loop s₁ s₃ where
  name_ := h'.name_.trans h.name_
  nextConnId_ := h'.nextConnId_.trans h.nextConnId_
  map := fun n hn => (h'.map n hn).trans (h.map n hn)
  booked := fun j hj token history hb =>
    h'.booked j hj token history (h.booked j hj token history hb)
  length := h'.length.trans h.length
  conns := fun j hj => (h'.conns j hj).trans (h.conns j hj)
  functors := fun l j f hf => (h'.functors l j f hf).elim (h.functors l j f) .inr

theorem onlyAbout_record (s : TcpServer) {k : Nat} (name : Bytes) (loop : Nat) {e : Record}
    (he : e.isAbout k = true) : OnlyAbout k name loop s (s.record e) :=
  ⟨rfl, rfl, fun _ _ => rfl, fun _ hj _ _ hb => hb.record_other (isAbout_of_ne he hj), rfl,
    fun _ _ => rfl, fun _ _ _ => .inl⟩

theorem onlyAbout_queueInLoop (s : TcpServer) {k : Nat} (name : Bytes) (loop l : Nat)
    {ts : List Task} (hts : ∀ j ≠ k, ts.filter (Task.isAbout j) = [])
    (hfs : ∀ j f, .functor j f ∈ ts → j = k ∧ l = loop) :
    OnlyAbout k name loop s (s.queueInLoop l ts) := by
  refine ⟨rfl, rfl, fun _ _ => rfl, fun j hj _ _ hb => hb.queue_other l (hts j hj), rfl,
    fun _ _ => rfl, fun l' j f hf => ?_⟩
  rw [queues_queueInLoop, List.mem_append] at hf
  refine hf.imp id fun hf => ?_
  split at hf
  · next heq => exact heq ▸ hfs j f hf
  · cases hf

theorem onlyAbout_setQueue (s : TcpServer) {k : Nat} (name : Bytes) (loop : Nat) {l : Nat}
    {t : Task} {ts : List Task} (hq : s.queues l = t :: ts) (ht : ∀ j ≠ k, t.isAbout j = false) :
    OnlyAbout k name loop s (s.setQueue l ts) := by
  refine ⟨rfl, rfl, fun _ _ => rfl, fun j hj _ _ hb => hb.setQueue_other hq (ht j hj), rfl,
    fun _ _ => rfl, fun l' j f hf => .inl ?_⟩
  rw [queues_setQueue] at hf
  split at hf
  · next heq =>
    rw [heq, hq]
    exact List.mem_cons_of_mem _ hf
  · exact hf

theorem filter_functors (fs : List Functor) (k j : Nat) :
    (fs.map (Task.functor k)).filter (Task.isAbout j) = [] := by
  simp [List.filter_eq_nil_iff, Task.isAbout]

theorem Booked.putBack {s : TcpServer} {j : Nat} {token : Option (Nat × Task)}
    {history : List Record} (h : Booked s j token history) (k : Nat) (x : Connection)
    (c : TcpConnection) : Booked (s.putBack k x c) j token history := by
  have hset : Booked { s with conns := s.conns.set k (x.store c) } j token history :=
    h.of_eq rfl rfl
  exact hset.queue_other x.loop_ (filter_functors c.pendingFunctors_ k j)

theorem onlyAbout_putBack (s : TcpServer) (k : Nat) (name : Bytes) (x : Connection)
    (c : TcpConnection) : OnlyAbout k name x.loop_ s (s.putBack k x c) := by
  have hset : OnlyAbout k name x.loop_ s { s with conns := s.conns.set k (x.store c) } :=
    ⟨rfl, rfl, fun _ _ => rfl, fun _ _ _ _ hb => hb.of_eq rfl rfl, List.length_set,
      fun _ hj => List.getElem?_set_ne hj.symm, fun _ _ _ => .inl⟩
  refine hset.trans (onlyAbout_queueInLoop _ name x.loop_ x.loop_
    (fun j _ => filter_functors c.pendingFunctors_ k j) fun j f hf => ?_)
  obtain ⟨f', -, heq⟩ := List.mem_map.mp hf
  exact ⟨(Task.functor.inj heq).1.symm, rfl⟩

theorem conns_putBack {s : TcpServer} {k : Nat} {x : Connection} (hx : s.conns[k]? = some x)
    (c : TcpConnection) : (s.putBack k x c).conns[k]? = some (x.store c) :=
  List.getElem?_set_self (List.getElem?_eq_some_iff.mp hx).1

theorem removeConnectionInLoop_eq {s : TcpServer} {k : Nat} {x : Connection}
    (hx : s.conns[k]? = some x) (l : Nat) :
    s.removeConnectionInLoop l k =
      let n := if (s.connections_ x.name_).isSome then 1 else 0
      ({ s with connections_ := Function.update s.connections_ x.name_ none }.record
        (.removeConnectionInLoop l k n)).queueInLoop x.loop_ [.connectDestroyed k] := by
  simp only [removeConnectionInLoop, hx]

theorem onlyAbout_removeConnectionInLoop {s : TcpServer} {k : Nat} {x : Connection}
    (hx : s.conns[k]? = some x) (l : Nat) :
    OnlyAbout k x.name_ x.loop_ s (s.removeConnectionInLoop l k) := by
  rw [removeConnectionInLoop_eq hx]
  have herase : OnlyAbout k x.name_ x.loop_ s
      { s with connections_ := Function.update s.connections_ x.name_ none } :=
    ⟨rfl, rfl, fun _ hn => Function.update_of_ne hn .., fun _ _ _ _ hb => hb.of_eq rfl rfl, rfl,
      fun _ _ => rfl, fun _ _ _ => .inl⟩
  refine (herase.trans (onlyAbout_record _ x.name_ x.loop_ ?_)).trans
    (onlyAbout_queueInLoop _ x.name_ x.loop_ x.loop_ ?_ (by simp))
  · exact beq_self_eq_true k
  · intro j hj
    simp [Task.isAbout, hj.symm]

/-- The connection is taken out of the map, and its destruction is queued. -/
theorem Follows.removed {s : TcpServer} {k : Nat} {x : Connection} (hx : s.conns[k]? = some x)
    (hholds : Progress.removed.Holds x.conn)
    (hbooked : Booked s k none (Progress.closed.history x.loop_ k))
    (hmap : s.connections_ x.name_ = some k) :
    Follows (s.removeConnectionInLoop 0 k) k x .removed := by
  rw [removeConnectionInLoop_eq hx]
  refine ⟨hholds, ?_, Function.update_self ..⟩
  have hrecord : Record.isAbout k (.removeConnectionInLoop 0 k 1) = true := beq_self_eq_true k
  have herase : Booked { s with connections_ := Function.update s.connections_ x.name_ none } k
      none (Progress.closed.history x.loop_ k) := hbooked.of_eq rfl rfl
  have hnew := herase.record (.removeConnectionInLoop 0 k 1)
  rw [List.filter_cons_of_pos hrecord, List.filter_nil] at hnew
  rw [hmap]
  exact hnew.queue x.loop_ (beq_self_eq_true k)

theorem onlyAbout_removeConnection {s : TcpServer} {k : Nat} {x : Connection}
    (hx : s.conns[k]? = some x) (l : Nat) :
    OnlyAbout k x.name_ x.loop_ s (s.removeConnection l k) := by
  have hrecord : OnlyAbout k x.name_ x.loop_ s (s.record (.removeConnection l k)) :=
    onlyAbout_record s x.name_ x.loop_ (beq_self_eq_true k)
  unfold removeConnection
  dsimp only
  split
  · exact hrecord.trans (onlyAbout_removeConnectionInLoop (s := s.record _) hx l)
  · refine hrecord.trans (onlyAbout_queueInLoop _ x.name_ x.loop_ 0 ?_ (by simp))
    intro j hj
    simp [Task.isAbout, hj.symm]

/-- What `closeCallback_` does: the bookkeeping goes to the base loop. -/
theorem Follows.closed {s : TcpServer} {k : Nat} {x : Connection} (hx : s.conns[k]? = some x)
    (hholds : Progress.closed.Holds x.conn)
    (hbooked : Booked s k none (Progress.established.history x.loop_ k))
    (hmap : s.connections_ x.name_ = some k) :
    ∃ g, Follows (s.removeConnection x.loop_ k) k x g := by
  have hrecord : Record.isAbout k (.removeConnection x.loop_ k) = true := beq_self_eq_true k
  have hnew := hbooked.record (.removeConnection x.loop_ k)
  rw [List.filter_cons_of_pos hrecord, List.filter_nil] at hnew
  unfold removeConnection
  dsimp only
  split
  · next hbase =>
    have hrem := Follows.removed (s := s.record (.removeConnection x.loop_ k)) hx hholds hnew hmap
    exact ⟨.removed, by rw [hbase] at hrem ⊢; exact hrem⟩
  · exact ⟨.closed, hholds, hnew.queue 0 (beq_self_eq_true k), hmap⟩

/-- A step that concerns the connection `k` has to see to that connection. -/
theorem Kept.of_step {s s' : TcpServer} {k : Nat} {x x' : Connection}
    (hfollows : ∀ j ≠ k, ∀ y, s.conns[j]? = some y → ∃ g, Follows s j y g) (h : Ordered s)
    (hx : s.conns[k]? = some x) (honly : OnlyAbout k x.name_ x.loop_ s s')
    (hx' : s'.conns[k]? = some x') (hname : x'.name_ = x.name_) (hloop : x'.loop_ = x.loop_)
    (hown : ∃ g, Follows s' k x' g) : Kept s' := by
  have hconn : ∀ j, s'.connName j = s.connName j := fun j => by
    simp only [connName, honly.name_]
  refine ⟨?_, ?_, ?_, ?_, ?_, ?_⟩
  · intro j y hy
    rcases eq_or_ne j k with rfl | hne
    · rw [hx'] at hy
      exact Option.some.inj hy ▸ hown
    · rw [honly.conns j hne] at hy
      obtain ⟨g, hg⟩ := hfollows j hne y hy
      have hdiff : y.name_ ≠ x.name_ := fun heq => by
        rw [h.named j y hy, h.named k x hx] at heq
        exact hne (connName_injective s heq)
      exact ⟨g, hg.holds, honly.booked j hne _ _ hg.booked, (honly.map _ hdiff).trans hg.map⟩
  · intro j y hy
    rw [hconn]
    rcases eq_or_ne j k with rfl | hne
    · rw [hx'] at hy
      obtain rfl := Option.some.inj hy
      rw [hname]
      exact h.named j x hx
    · rw [honly.conns j hne] at hy
      exact h.named j y hy
  · intro name hforeign
    have hk : k < s.conns.length := (List.getElem?_eq_some_iff.mp hx).1
    have hfor : ∀ j < s.conns.length, name ≠ s.connName j := fun j hj => by
      rw [← hconn]
      exact hforeign j (honly.length ▸ hj)
    have hdiff : name ≠ x.name_ := h.named k x hx ▸ hfor k hk
    rw [honly.map name hdiff]
    exact h.foreign name hfor
  · intro j hj
    rw [honly.length] at hj
    have hne : j ≠ k := by
      rintro rfl
      exact absurd (List.getElem?_eq_some_iff.mp hx).1 (Nat.not_lt.mpr hj)
    exact honly.booked j hne _ _ (h.absent j hj)
  · rw [honly.nextConnId_, honly.length]
    exact h.nextId
  · intro l j f hf
    rcases honly.functors l j f hf with hf | ⟨rfl, rfl⟩
    · rcases eq_or_ne j k with rfl | hne
      · obtain ⟨y, hy, hl⟩ := h.home l j f hf
        obtain rfl : x = y := Option.some.inj (hx.symm.trans hy)
        exact ⟨x', hx', hloop.trans hl⟩
      · rw [honly.conns j hne]
        exact h.home l j f hf
    · exact ⟨x', hx', hloop⟩

/-! ## The steps of a connection -/

theorem act_eq {s : TcpServer} {k : Nat} {x : Connection} (hx : s.conns[k]? = some x) (l : Nat)
    (pending : List Functor) (e : TcpConnection.Event) :
    s.act l k pending e =
      if .closeCallback ∈ (x.step pending e).trace.drop x.conn.trace.length then
        (s.putBack k x (x.step pending e)).removeConnection l k
      else s.putBack k x (x.step pending e) := by
  simp only [act, hx]

theorem onlyAbout_act {s : TcpServer} {k : Nat} {x : Connection} (hx : s.conns[k]? = some x)
    (l : Nat) (pending : List Functor) (e : TcpConnection.Event) :
    OnlyAbout k x.name_ x.loop_ s (s.act l k pending e) := by
  have hput := onlyAbout_putBack s k x.name_ x (x.step pending e)
  have hx' := conns_putBack hx (x.step pending e)
  rw [act_eq hx]
  split
  · exact hput.trans (onlyAbout_removeConnection hx' l)
  · exact hput

theorem conns_removeConnectionInLoop (s : TcpServer) (l k : Nat) :
    (s.removeConnectionInLoop l k).conns = s.conns := by
  unfold removeConnectionInLoop
  split <;> rfl

theorem conns_removeConnection (s : TcpServer) (l k : Nat) :
    (s.removeConnection l k).conns = s.conns := by
  unfold removeConnection
  dsimp only
  split
  · exact conns_removeConnectionInLoop _ l k
  · rfl

theorem conns_act {s : TcpServer} {k : Nat} {x : Connection} (hx : s.conns[k]? = some x) (l : Nat)
    (pending : List Functor) (e : TcpConnection.Event) :
    (s.act l k pending e).conns[k]? = some (x.store (x.step pending e)) := by
  rw [act_eq hx]
  split
  · rw [conns_removeConnection]
    exact conns_putBack hx _
  · exact conns_putBack hx _

theorem Channel.isReading_of_switches {ch ch' : Channel} (h : TcpConnection.Switches ch ch') :
    ch'.isReading = ch.isReading := by
  cases h with
  | same => rfl
  | enable => exact @Channel.isReading_switch ch .enableWriting rfl
  | disable => exact @Channel.isReading_switch ch .disableWriting rfl

/-- Going on changes nothing about how far a connection has got. -/
theorem Progress.Holds.goesOn {g : Progress} {c c' : TcpConnection} (h : g.Holds c)
    (hon : TcpConnection.GoesOn c c') : g.Holds c' := by
  obtain ⟨es, hes, htr⟩ := hon.trace
  have hnone : Effect.closeCallback ∉ es := fun hm => Bool.false_ne_true (hes _ hm).symm
  have hcb : Effect.closeCallback ∈ c'.trace ↔ Effect.closeCallback ∈ c.trace := by
    simp [htr, hnone]
  have hread := Channel.isReading_of_switches hon.channel_
  have hstay : ¬ c.Up → c'.state_ = c.state_ := fun hdown =>
    hon.state_.resolve_right fun hup => hdown hup.1
  cases g with
  | established => exact ⟨hon.up.mpr h.1, fun hm => h.2 (hcb.mp hm)⟩
  | created =>
    exact ⟨(hstay (by simp [TcpConnection.Up, h.1])).trans h.1, hread.trans h.2.1,
      fun hm => h.2.2 (hcb.mp hm)⟩
  | closed | removed | destroyed =>
    exact ⟨(hstay (by simp [TcpConnection.Up, h.1])).trans h.1, hread.trans h.2.1,
      hcb.mpr h.2.2⟩

/-- A step that is not about going down. -/
theorem Follows.goesOn {s : TcpServer} {k : Nat} {x : Connection} {g : Progress}
    (h : Follows s k x g) (hx : s.conns[k]? = some x) (l : Nat) {pending : List Functor}
    {e : TcpConnection.Event} (hon : TcpConnection.GoesOn x.conn (x.step pending e)) :
    Follows (s.act l k pending e) k (x.store (x.step pending e)) g := by
  have hholds : g.Holds (x.step pending e) := h.holds.goesOn hon
  obtain ⟨es, hes, htr⟩ := hon.trace
  have hnone : Effect.closeCallback ∉ es := fun hm => Bool.false_ne_true (hes _ hm).symm
  rw [act_eq hx, htr, List.drop_left, if_neg hnone]
  refine ⟨?_, h.booked.putBack k x _, h.map⟩
  cases g <;> exact hholds

/-- A step that closes: only a connection that is established gets there. -/
theorem Follows.closes {s : TcpServer} {k : Nat} {x : Connection} {g : Progress}
    (h : Follows s k x g) (hx : s.conns[k]? = some x) {pending fs : List Functor}
    {e : TcpConnection.Event} (hup : x.conn.Up)
    (hclose : x.step pending e = { x.conn with pendingFunctors_ := fs }.handleClose) :
    ∃ g', Follows (s.act x.loop_ k pending e) k (x.store (x.step pending e)) g' := by
  have hholds := h.holds
  cases g with
  | created => simp [TcpConnection.Up, hholds.1] at hup
  | closed | removed | destroyed => simp [TcpConnection.Up, hholds.1] at hup
  | established =>
    have htr := TcpConnection.trace_handleClose { x.conn with pendingFunctors_ := fs }
    have hcb : Effect.closeCallback ∈ (x.step pending e).trace.drop x.conn.trace.length := by
      rw [hclose, htr, List.drop_left]
      simp
    rw [act_eq hx, if_pos hcb]
    have hdown : Progress.closed.Holds (x.step pending e) := by
      rw [hclose]
      refine ⟨rfl, ?_, by simp⟩
      show Events.test Channel.kNoneEvent Channel.kReadEvent = false
      decide
    exact Follows.closed (conns_putBack hx _) hdown (h.booked.putBack k x _) h.map

/-- Any step of a connection in its loop: it closes only while it is up. -/
theorem Follows.act {s : TcpServer} {k : Nat} {x : Connection} {g : Progress}
    (h : Follows s k x g) (hx : s.conns[k]? = some x) {pending : List Functor}
    {e : TcpConnection.Event} (he : e.isLife = true)
    (hup : ({ x.conn with pendingFunctors_ := pending } : TcpConnection).closes e = true →
      x.conn.Up) :
    ∃ g', Follows (s.act x.loop_ k pending e) k (x.store (x.step pending e)) g' := by
  cases hcl : ({ x.conn with pendingFunctors_ := pending } : TcpConnection).closes e with
  | true =>
    obtain ⟨fs, hstep⟩ := TcpConnection.closes_step hcl
    have hclose : x.step pending e = { x.conn with pendingFunctors_ := fs }.handleClose := hstep
    exact h.closes hx (hup hcl) hclose
  | false =>
    exact ⟨g, h.goesOn hx x.loop_ ((TcpConnection.goesOn_step he hcl).after (.inl rfl) rfl rfl)⟩

theorem Kept.act {s : TcpServer} (h : Kept s) {k : Nat} {x : Connection}
    (hx : s.conns[k]? = some x) {pending : List Functor} {e : TcpConnection.Event}
    (he : e.isLife = true)
    (hup : ({ x.conn with pendingFunctors_ := pending } : TcpConnection).closes e = true →
      x.conn.Up) : Kept (s.act x.loop_ k pending e) := by
  obtain ⟨g, hg⟩ := h.follows k x hx
  exact Kept.of_step (fun j _ => h.follows j) h.ordered hx (onlyAbout_act hx x.loop_ pending e)
    (conns_act hx x.loop_ pending e) rfl rfl (hg.act hx he hup)

/-- What happens to a connection in its loop. -/
theorem Kept.conn {s : TcpServer} (h : Kept s) {k : Nat} {x : Connection}
    (hx : s.conns[k]? = some x) {e : TcpConnection.Event} (he : x.enabled e = true) :
    Kept (s.act x.loop_ k [] e) := by
  refine h.act hx (by cases e <;> first | rfl | cases he) fun hcl => ?_
  cases e with
  | forceCloseInLoop => exact of_decide_eq_true hcl
  | handleRead r =>
    -- a channel that reads belongs to a connection that is up
    have hread : x.conn.channel_.isReading = true := he
    obtain ⟨g, hg⟩ := h.follows k x hx
    have hholds := hg.holds
    cases g with
    | established => exact hholds.1
    | created | closed | removed | destroyed => simp [hholds.2.1] at hread
  | handleClose | doPendingFunctor | connectEstablished | connectDestroyed => cases he
  | _ => cases hcl

/-! ## The tasks -/

/-- A step of the connection that goes on record, as `connectEstablished` and `connectDestroyed`
do. -/
theorem onlyAbout_recordAct {s : TcpServer} {k : Nat} {x : Connection}
    (hx : s.conns[k]? = some x) {r : Record} (hr : r.isAbout k = true) (l : Nat)
    (pending : List Functor) (e : TcpConnection.Event) :
    OnlyAbout k x.name_ x.loop_ s ((s.record r).act l k pending e) :=
  (onlyAbout_record s x.name_ x.loop_ hr).trans (onlyAbout_act (s := s.record r) hx l pending e)

theorem conns_recordAct {s : TcpServer} {k : Nat} {x : Connection} (hx : s.conns[k]? = some x)
    (r : Record) (l : Nat) (pending : List Functor) (e : TcpConnection.Event) :
    ((s.record r).act l k pending e).conns[k]? = some (x.store (x.step pending e)) :=
  conns_act (s := s.record r) hx l pending e

/-- `connectEstablished` of a connection that was made. -/
theorem Follows.established {s : TcpServer} {k : Nat} {x : Connection} (hx : s.conns[k]? = some x)
    (hholds : Progress.created.Holds x.conn)
    (hbooked : Booked s k none (Progress.created.history x.loop_ k))
    (hmap : s.connections_ x.name_ = some k) :
    Follows (s.connectEstablished x.loop_ k) k (x.store (x.step [] .connectEstablished))
      .established := by
  have hrecord : Record.isAbout k (.connectEstablished x.loop_ k) = true := beq_self_eq_true k
  have hnew := hbooked.record (.connectEstablished x.loop_ k)
  rw [List.filter_cons_of_pos hrecord, List.filter_nil] at hnew
  have htr : (x.step [] .connectEstablished).trace =
      x.conn.trace ++ [.connectionCallback true] := rfl
  rw [connectEstablished, act_eq (s := s.record _) hx, htr, List.drop_left, if_neg (by simp)]
  refine ⟨⟨.inl rfl, ?_⟩, hnew.putBack k x _, hmap⟩
  show Effect.closeCallback ∉ (x.step [] .connectEstablished).trace
  simpa [htr] using hholds.2.2

/-- `connectDestroyed` of a connection that is out of the map. -/
theorem Follows.destroyed {s : TcpServer} {k : Nat} {x : Connection} (hx : s.conns[k]? = some x)
    (hholds : Progress.removed.Holds x.conn)
    (hbooked : Booked s k none (Progress.removed.history x.loop_ k))
    (hmap : s.connections_ x.name_ = none) :
    Follows (s.connectDestroyed x.loop_ k) k (x.store (x.step [] .connectDestroyed))
      .destroyed := by
  have hrecord : Record.isAbout k (.connectDestroyed x.loop_ k) = true := beq_self_eq_true k
  have hnew := hbooked.record (.connectDestroyed x.loop_ k)
  rw [List.filter_cons_of_pos hrecord, List.filter_nil] at hnew
  have hstay : x.step [] .connectDestroyed = { x.conn with pendingFunctors_ := [] } := by
    have hs : x.conn.state_ ≠ .kConnected := by simp [hholds.1]
    exact if_neg hs
  rw [connectDestroyed, act_eq (s := s.record _) hx, hstay, List.drop_length, if_neg (by simp)]
  exact ⟨hholds, hnew.putBack k x _, hmap⟩

/-- The connection that the first task of a queue is about has got as far as the task says. -/
theorem Kept.task {s : TcpServer} (h : Kept s) {l k : Nat} {t : Task} {ts : List Task}
    (hq : s.queues l = t :: ts) (ht : t.isAbout k = true) :
    ∃ x g, s.conns[k]? = some x ∧ Follows s k x g ∧ g.token x.loop_ k = some (l, t) ∧
      Booked (s.setQueue l ts) k none (g.history x.loop_ k) := by
  cases hx : s.conns[k]? with
  | none =>
    have habsent := h.ordered.absent k (List.getElem?_eq_none_iff.mp hx)
    cases (habsent.setQueue hq ht).1
  | some x =>
    obtain ⟨g, hg⟩ := h.follows k x hx
    obtain ⟨htoken, hbooked⟩ := hg.booked.setQueue hq ht
    exact ⟨x, g, rfl, hg, htoken, hbooked⟩

theorem isAbout_task_of_ne {t : Task} {k j : Nat} (ht : t.isAbout k = true) (hne : j ≠ k) :
    t.isAbout j = false := by
  cases t <;> simp_all [Task.isAbout, Ne.symm]

/-- What follows on a task is all that has to be looked at. -/
theorem Kept.popped {s : TcpServer} (h : Kept s) {l k : Nat} {t : Task} {ts : List Task}
    (hq : s.queues l = t :: ts) (ht : ∀ j ≠ k, t.isAbout j = false) {x x' : Connection}
    (hx : s.conns[k]? = some x) {s' : TcpServer}
    (honly : OnlyAbout k x.name_ x.loop_ (s.setQueue l ts) s') (hx' : s'.conns[k]? = some x')
    (hname : x'.name_ = x.name_) (hloop : x'.loop_ = x.loop_)
    (hown : ∃ g, Follows s' k x' g) : Kept s' :=
  Kept.of_step (fun j _ => h.follows j) h.ordered hx
    ((onlyAbout_setQueue s x.name_ x.loop_ hq ht).trans honly) hx' hname hloop hown

theorem Kept.runTask {s : TcpServer} (h : Kept s) {l : Nat} {t : Task} {ts : List Task}
    (hq : s.queues l = t :: ts) (r : SysRet) : Kept ((s.setQueue l ts).runTask l r t) := by
  cases t with
  | connectEstablished k =>
    have ht : Task.isAbout k (.connectEstablished k) = true := beq_self_eq_true k
    obtain ⟨x, g, hx, hg, htoken, hbooked⟩ := h.task hq ht
    cases g with
    | created =>
      obtain ⟨rfl, -⟩ := Prod.mk.inj (Option.some.inj htoken)
      have hx₁ : (s.setQueue x.loop_ ts).conns[k]? = some x := hx
      have honly := onlyAbout_recordAct hx₁ (r := .connectEstablished x.loop_ k)
        (beq_self_eq_true k) x.loop_ [] .connectEstablished
      exact h.popped hq (fun j => isAbout_task_of_ne ht) hx honly
        (conns_recordAct hx₁ (.connectEstablished x.loop_ k) x.loop_ [] .connectEstablished) rfl rfl
        ⟨_, Follows.established hx₁ hg.holds hbooked hg.map⟩
    | _ => cases htoken
  | removeConnectionInLoop k =>
    have ht : Task.isAbout k (.removeConnectionInLoop k) = true := beq_self_eq_true k
    obtain ⟨x, g, hx, hg, htoken, hbooked⟩ := h.task hq ht
    cases g with
    | closed =>
      obtain ⟨rfl, -⟩ := Prod.mk.inj (Option.some.inj htoken)
      have hx₁ : (s.setQueue 0 ts).conns[k]? = some x := hx
      exact h.popped hq (fun j => isAbout_task_of_ne ht) hx
        (onlyAbout_removeConnectionInLoop hx₁ 0)
        ((congrArg (·[k]?) (conns_removeConnectionInLoop _ 0 k)).trans hx₁) rfl rfl
        ⟨_, Follows.removed hx₁ hg.holds hbooked hg.map⟩
    | _ => cases htoken
  | connectDestroyed k =>
    have ht : Task.isAbout k (.connectDestroyed k) = true := beq_self_eq_true k
    obtain ⟨x, g, hx, hg, htoken, hbooked⟩ := h.task hq ht
    cases g with
    | removed =>
      obtain ⟨rfl, -⟩ := Prod.mk.inj (Option.some.inj htoken)
      have hx₁ : (s.setQueue x.loop_ ts).conns[k]? = some x := hx
      exact h.popped hq (fun j => isAbout_task_of_ne ht) hx
        (onlyAbout_recordAct hx₁ (r := .connectDestroyed x.loop_ k) (beq_self_eq_true k) x.loop_ []
          .connectDestroyed)
        (conns_recordAct hx₁ (.connectDestroyed x.loop_ k) x.loop_ [] .connectDestroyed) rfl rfl
        ⟨_, Follows.destroyed hx₁ hg.holds hbooked hg.map⟩
    | _ => cases htoken
  | functor k f =>
    obtain ⟨x, hx, rfl⟩ := h.ordered.home l k f (by rw [hq]; exact List.mem_cons_self)
    obtain ⟨g, hg⟩ := h.follows k x hx
    have hpop := onlyAbout_setQueue s x.name_ x.loop_ (k := k) hq fun _ _ => rfl
    have hpopped : Kept (s.setQueue x.loop_ ts) :=
      Kept.of_step (fun j _ => h.follows j) h.ordered hx hpop hx rfl rfl
        ⟨g, hg.holds, hg.booked.setQueue_other hq rfl, hg.map⟩
    refine hpopped.act hx rfl fun hcl => ?_
    simp only [TcpConnection.closes, List.head?_cons, Bool.and_eq_true] at hcl
    exact of_decide_eq_true hcl.2

end TcpServer

end Mymuduo
