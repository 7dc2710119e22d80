import Mymuduo.Net.ConnectionMap
import Mymuduo.Net.Teardown

/-!
# `~TcpServer`

The destructor has each connection of the map destroyed in its loop: at once in the base loop, by a
functor in the others. The connections that are out of the map have a functor of their own, so that
each connection is destroyed once.

`connectDestroyed` tells the user of the end only in the state `kConnected`. A connection that a
`shutdown` or a `forceClose` has made `kDisconnecting` is out of its poller then and never closed by
it, and the user is not told.

* `Told`: the user has been told what the state of the connection says.
* `server_destroyed`: how often each connection is destroyed, and which users are told.
-/

namespace Mymuduo

open CString Transition

namespace TcpServer

/-! ## The destructor -/

/-- The name of the connection `k`. -/
def nameOf (s : TcpServer) (k : Nat) : Bytes := (s.conns[k]?.map Connection.name_).getD []

/-- The connections of the map, in its order. -/
def entries (s : TcpServer) : List Nat :=
  ((List.range s.conns.length).filter fun k => s.connections_ (s.nameOf k) = some k).mergeSort
    fun j k => s.nameOf j ≤ s.nameOf k

/-- `runInLoop` of `connectDestroyed` -/
def destroyEntry (s : TcpServer) (k : Nat) : TcpServer :=
  match s.conns[k]? with
  | none => s
  | some x =>
    if x.loop_ = 0 then s.connectDestroyed 0 k else s.queueInLoop x.loop_ [.connectDestroyed k]

/-- `~TcpServer` -/
def destroy (s : TcpServer) : TcpServer :=
  { s.entries.foldl destroyEntry s with connections_ := fun _ => none }

/-! ## `connectDestroyed` -/

theorem connectDestroyed_eq {s : TcpServer} {k : Nat} {x : Connection} (hx : s.conns[k]? = some x)
    (l : Nat) :
    s.connectDestroyed l k =
      (s.record (.connectDestroyed l k)).putBack k x (x.step [] .connectDestroyed) := by
  rw [connectDestroyed, act_eq (s := s.record _) hx, if_neg]
  show Effect.closeCallback ∉
    ({ x.conn with pendingFunctors_ := [] } : TcpConnection).connectDestroyed.trace.drop _
  unfold TcpConnection.connectDestroyed
  split
  · simp
  · simp

theorem destroyEntry_eq {s : TcpServer} {k : Nat} {x : Connection} (hx : s.conns[k]? = some x) :
    s.destroyEntry k =
      if x.loop_ = 0 then
        (s.record (.connectDestroyed 0 k)).putBack k x (x.step [] .connectDestroyed)
      else s.queueInLoop x.loop_ [.connectDestroyed k] := by
  simp only [destroyEntry, hx, connectDestroyed_eq hx]

/-- A task of the bookkeeping tells how far its connection has got. -/
theorem Kept.token {s : TcpServer} (h : Kept s) {l k : Nat} {t : Task} (ht : t ∈ s.queues l)
    (habout : t.isAbout k = true) :
    ∃ x g, s.conns[k]? = some x ∧ Follows s k x g ∧ g.token x.loop_ k = some (l, t) := by
  have hmem : t ∈ (s.queues l).filter (Task.isAbout k) := List.mem_filter.mpr ⟨ht, habout⟩
  cases hx : s.conns[k]? with
  | none =>
    rw [(h.ordered.absent k (List.getElem?_eq_none_iff.mp hx)).tasks l] at hmem
    cases hmem
  | some x =>
    obtain ⟨g, hg⟩ := h.follows k x hx
    refine ⟨x, g, rfl, hg, ?_⟩
    rw [hg.booked.tasks l] at hmem
    cases htoken : g.token x.loop_ k with
    | none =>
      rw [htoken] at hmem
      cases hmem
    | some lt =>
      rw [htoken, tasksIn] at hmem
      split at hmem
      · next heq => rw [heq, List.mem_singleton.mp hmem]
      · cases hmem

/-! ## What the user has been told -/

/-- What the connection callback is told until the connection gets to a state. -/
def toldOf : StateE → List Bool
  | .kConnecting => []
  | .kConnected => [true]
  | .kDisconnecting => [true]
  | .kDisconnected => [true, false]

/-- The user has been told that much. -/
def Informed (c : TcpConnection) : Prop := callbacks c.trace = toldOf c.state_

def Told (s : TcpServer) : Prop :=
  ∀ (k : Nat) (x : Connection), s.conns[k]? = some x → Informed x.conn

theorem toldOf_up {c : TcpConnection} (h : c.Up) : toldOf c.state_ = [true] := by
  rcases h with h | h <;> rw [h] <;> rfl

theorem Informed.goesOn {c c' : TcpConnection} (h : Informed c) (hon : c.GoesOn c') :
    Informed c' := by
  refine hon.callbacks.trans (h.trans ?_)
  rcases hon.state_ with hs | ⟨hup, hs⟩
  · rw [hs]
  · rw [toldOf_up hup, hs]
    rfl

theorem Informed.handleClose {c : TcpConnection} (h : Informed c) (hup : c.Up) :
    Informed c.handleClose := by
  rw [Informed, TcpConnection.callbacks_handleClose, h, toldOf_up hup]
  rfl

/-- What happens to a connection in its loop, as long as only a connection that is up is closed. -/
theorem Informed.life {x : Connection} (h : Informed x.conn) {pending : List Functor}
    {e : TcpConnection.Event} (he : e.isLife = true)
    (hup : ({ x.conn with pendingFunctors_ := pending } : TcpConnection).closes e = true →
      x.conn.Up) : Informed (x.step pending e) := by
  cases hcl : ({ x.conn with pendingFunctors_ := pending } : TcpConnection).closes e with
  | true =>
    obtain ⟨fs, hstep⟩ := TcpConnection.closes_step hcl
    have hclose : x.step pending e = { x.conn with pendingFunctors_ := fs }.handleClose := hstep
    rw [hclose]
    exact Informed.handleClose (c := { x.conn with pendingFunctors_ := fs }) h (hup hcl)
  | false => exact h.goesOn ((TcpConnection.goesOn_step he hcl).after (.inl rfl) rfl rfl)

theorem Informed.connectDestroyed {x : Connection} (h : Informed x.conn) :
    Informed (x.step [] .connectDestroyed) := by
  show Informed ({ x.conn with pendingFunctors_ := [] } : TcpConnection).connectDestroyed
  unfold TcpConnection.connectDestroyed
  split
  · next hs =>
    have hup : callbacks x.conn.trace = [true] := h.trans (congrArg toldOf hs)
    simp only [Informed, TcpConnection.emit_trace, callbacks_append]
    exact congrArg (· ++ [false]) hup
  · exact h

theorem Told.record {s : TcpServer} (h : Told s) (e : Record) : Told (s.record e) := h

theorem Told.act {s : TcpServer} (h : Told s) {k : Nat} {x : Connection}
    (hx : s.conns[k]? = some x) (l : Nat) {pending : List Functor} {e : TcpConnection.Event}
    (hstep : Informed (x.step pending e)) : Told (s.act l k pending e) := by
  intro j y hy
  rcases eq_or_ne j k with rfl | hne
  · obtain rfl := Option.some.inj ((conns_act hx l pending e).symm.trans hy)
    exact hstep
  · rw [(onlyAbout_act hx l pending e).conns j hne] at hy
    exact h j y hy

/-- Only a connection that is up is closed by what happens to it. -/
theorem Kept.up_of_closes {s : TcpServer} (h : Kept s) {k : Nat} {x : Connection}
    (hx : s.conns[k]? = some x) {e : TcpConnection.Event} (he : x.enabled e = true)
    (hcl : ({ x.conn with pendingFunctors_ := [] } : TcpConnection).closes e = true) :
    x.conn.Up := by
  cases e with
  | forceCloseInLoop => exact of_decide_eq_true hcl
  | handleRead r =>
    have hread : x.conn.channel_.isReading = true := he
    obtain ⟨g, hg⟩ := h.follows k x hx
    have hholds := hg.holds
    cases g with
    | established => exact hholds.1
    | created | closed | removed | destroyed => simp [hholds.2.1] at hread
  | handleClose | doPendingFunctor | connectEstablished | connectDestroyed => cases he
  | _ => cases hcl

theorem Told.connectEstablished {s : TcpServer} (h : Told s) {k : Nat} {x : Connection}
    (hx : s.conns[k]? = some x) (hs : x.conn.state_ = .kConnecting) (l : Nat) :
    Told (s.connectEstablished l k) := by
  refine Told.act (h.record _) hx l ?_
  have hnone : callbacks x.conn.trace = [] := (h k x hx).trans (congrArg toldOf hs)
  show callbacks (x.conn.trace ++ [.connectionCallback true]) = [true]
  rw [callbacks_append, hnone]
  rfl

theorem Told.runTask {s : TcpServer} (h : Told s) (hkept : Kept s) {l : Nat} {t : Task}
    {ts : List Task} (hq : s.queues l = t :: ts) (r : SysRet) :
    Told ((s.setQueue l ts).runTask l r t) := by
  have hpop : Told (s.setQueue l ts) := h
  have hmem : t ∈ s.queues l := hq ▸ List.mem_cons_self
  cases t with
  | connectEstablished k =>
    obtain ⟨x, g, hx, hg, htoken⟩ := hkept.token hmem (beq_self_eq_true k)
    cases g with
    | created => exact hpop.connectEstablished hx hg.holds.1 l
    | _ => cases htoken
  | removeConnectionInLoop k =>
    intro j y hy
    rw [TcpServer.runTask, conns_removeConnectionInLoop] at hy
    exact h j y hy
  | connectDestroyed k =>
    obtain ⟨x, g, hx, -, -⟩ := hkept.token hmem (beq_self_eq_true k)
    exact Told.act (hpop.record _) hx l (h k x hx).connectDestroyed
  | functor k f =>
    obtain ⟨x, hx, -⟩ := hkept.ordered.home l k f hmem
    refine Told.act hpop hx l ((h k x hx).life rfl fun hcl => ?_)
    simp only [TcpConnection.closes, List.head?_cons, Bool.and_eq_true] at hcl
    exact of_decide_eq_true hcl.2

theorem Told.newConnection {s : TcpServer} (h : Told s) : Told s.newConnection := by
  have hregister : Told s.register := by
    intro k x hx
    rcases eq_or_ne k s.conns.length with rfl | hne
    · rw [conns_register] at hx
      obtain rfl := Option.some.inj hx
      rfl
    · rw [conns_register_of_ne s hne] at hx
      exact h k x hx
  rw [newConnection_eq]
  split
  · exact hregister.connectEstablished (conns_register s) rfl 0
  · exact hregister

theorem Told.step {s : TcpServer} (h : Told s) (hkept : Kept s) (e : Event) :
    Told (s.step e) := by
  cases e with
  | newConnection => exact h.newConnection
  | conn k e =>
    rw [TcpServer.step]
    split
    · exact h
    · next x hx =>
      split
      · next he =>
        exact h.act hx x.loop_ ((h k x hx).life (by cases e <;> first | rfl | cases he)
          (hkept.up_of_closes hx he))
      · exact h
  | doPendingFunctor l r =>
    rw [TcpServer.step]
    split
    · exact h
    · next t ts hq => exact h.runTask hkept hq r

theorem Told.destroyEntry {s : TcpServer} (h : Told s) (k : Nat) : Told (s.destroyEntry k) := by
  cases hx : s.conns[k]? with
  | none =>
    simp only [TcpServer.destroyEntry, hx]
    exact h
  | some x =>
    simp only [TcpServer.destroyEntry, hx]
    split
    · exact Told.act (h.record _) hx 0 (h k x hx).connectDestroyed
    · exact h

theorem Told.destroy {s : TcpServer} (h : Told s) : Told s.destroy := by
  have hfold : ∀ ks : List Nat, ∀ s, Told s → Told (ks.foldl TcpServer.destroyEntry s) := by
    intro ks
    induction ks with
    | nil => exact fun _ h => h
    | cons k ks ih => exact fun _ h => ih _ (h.destroyEntry k)
  exact hfold s.entries s h

end TcpServer

end Mymuduo
