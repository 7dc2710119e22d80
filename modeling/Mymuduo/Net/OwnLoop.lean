import Mathlib.Data.Int.CardIntervalMod
import Mymuduo.Net.ConnectionMap

/-!
# Each connection in its own loop

`newConnection` gives the connections to the loops of the pool in turn. After that everything that
is done for a connection is done in its loop, except that the base loop takes it out of the map: that
is what the `assertInLoopThread`s of the server and of the connection look at.

* `Confined.step`: nothing is queued or done in a wrong loop.
* `one_loop_each`: which loop a connection has, how many connections a loop has, and that all is
  done there, in every run.
-/

namespace Mymuduo

open CString Transition

namespace TcpServer

/-- The loop of the connection `k`, in a pool of `n` loops. -/
def loopOf (n k : Nat) : Nat := if n = 0 then 0 else k % n + 1

/-- The loop in which a task is to be run. -/
def ownLoop (n : Nat) : Task → Nat
  | .connectEstablished k => loopOf n k
  | .removeConnectionInLoop _ => 0
  | .connectDestroyed k => loopOf n k
  | .functor k _ => loopOf n k

/-- What was done was done in the right loop. -/
def InOwnLoop (n : Nat) : Record → Prop
  | .newConnection _ => True
  | .connectEstablished loop k => loop = loopOf n k
  | .removeConnection loop k => loop = loopOf n k
  | .removeConnectionInLoop loop _ _ => loop = 0
  | .connectDestroyed loop k => loop = loopOf n k

instance (n : Nat) : (e : Record) → Decidable (InOwnLoop n e)
  | .newConnection _ => instDecidableTrue
  | .connectEstablished .. | .removeConnection .. | .removeConnectionInLoop ..
  | .connectDestroyed .. => inferInstanceAs (Decidable (_ = _))

/-- How many connections the loop has been given. -/
def load (s : TcpServer) (l : Nat) : Nat := s.conns.countP fun x => x.loop_ = l

structure Confined (n : Nat) (s : TcpServer) : Prop where
  numThreads_ : s.numThreads_ = n
  next_ : n ≠ 0 → s.next_ = s.conns.length % n
  loops : ∀ (k : Nat) (x : Connection), s.conns[k]? = some x → x.loop_ = loopOf n k
  queues : ∀ l, ∀ t ∈ s.queues l, ownLoop n t = l
  records : ∀ e ∈ s.records, InOwnLoop n e

theorem confined_new (name : Bytes) (writeCompleteCallback : Bool) (numThreads : Nat) :
    Confined numThreads (new name writeCompleteCallback numThreads) :=
  ⟨rfl, fun _ => (Nat.zero_mod numThreads).symm, by simp [new], by simp [new], by simp [new]⟩

/-! ## What the functions do -/

variable {n : Nat} {s : TcpServer}

theorem Confined.record (h : Confined n s) {e : Record} (he : InOwnLoop n e) :
    Confined n (s.record e) := by
  refine ⟨h.numThreads_, h.next_, h.loops, h.queues, fun e' he' => ?_⟩
  rcases List.mem_append.mp he' with he' | he'
  · exact h.records e' he'
  · rwa [List.mem_singleton.mp he']

theorem Confined.queueInLoop (h : Confined n s) {l : Nat} {ts : List Task}
    (hts : ∀ t ∈ ts, ownLoop n t = l) : Confined n (s.queueInLoop l ts) := by
  refine ⟨h.numThreads_, h.next_, h.loops, fun l' t ht => ?_, h.records⟩
  rw [queues_queueInLoop] at ht
  rcases List.mem_append.mp ht with ht | ht
  · exact h.queues l' t ht
  · split at ht
    · next heq => rw [heq, hts t ht]
    · cases ht

theorem Confined.setQueue (h : Confined n s) {l : Nat} {ts : List Task}
    (hts : ∀ t ∈ ts, t ∈ s.queues l) : Confined n (s.setQueue l ts) := by
  refine ⟨h.numThreads_, h.next_, h.loops, fun l' t ht => ?_, h.records⟩
  rw [queues_setQueue] at ht
  split at ht
  · next heq =>
    subst heq
    exact h.queues l' t (hts t ht)
  · exact h.queues l' t ht

/-- The base loop takes a connection out of the map and has its own loop destroy it. -/
theorem Confined.removeConnectionInLoop (h : Confined n s) (k : Nat) :
    Confined n (s.removeConnectionInLoop 0 k) := by
  cases hx : s.conns[k]? with
  | none => simpa only [TcpServer.removeConnectionInLoop, hx] using h
  | some x =>
    rw [removeConnectionInLoop_eq hx]
    have herase : Confined n
        { s with connections_ := Function.update s.connections_ x.name_ none } :=
      ⟨h.numThreads_, h.next_, h.loops, h.queues, h.records⟩
    refine (herase.record (e := .removeConnectionInLoop 0 k _) rfl).queueInLoop fun t ht => ?_
    rw [List.mem_singleton.mp ht, h.loops k x hx]
    rfl

theorem Confined.removeConnection (h : Confined n s) (k : Nat) :
    Confined n (s.removeConnection (loopOf n k) k) := by
  have hrecord : Confined n (s.record (.removeConnection (loopOf n k) k)) := h.record rfl
  unfold TcpServer.removeConnection
  dsimp only
  split
  · next hbase =>
    rw [hbase] at hrecord ⊢
    exact hrecord.removeConnectionInLoop k
  · refine hrecord.queueInLoop fun t ht => ?_
    rw [List.mem_singleton.mp ht]
    rfl

theorem Confined.putBack (h : Confined n s) {k : Nat} {x : Connection}
    (hx : s.conns[k]? = some x) (c : TcpConnection) : Confined n (s.putBack k x c) := by
  have hset : Confined n { s with conns := s.conns.set k (x.store c) } := by
    refine ⟨h.numThreads_, fun hn => ?_, fun j y hy => ?_, h.queues, h.records⟩
    · rw [List.length_set]
      exact h.next_ hn
    · rcases eq_or_ne j k with rfl | hne
      · have hput := conns_putBack hx c
        obtain rfl : x.store c = y := Option.some.inj (hput.symm.trans hy)
        exact h.loops j x hx
      · exact h.loops j y ((List.getElem?_set_ne hne.symm).symm.trans hy)
  refine hset.queueInLoop fun t ht => ?_
  obtain ⟨f, -, rfl⟩ := List.mem_map.mp ht
  exact (h.loops k x hx).symm

theorem Confined.act (h : Confined n s) (k : Nat) (pending : List Functor)
    (e : TcpConnection.Event) : Confined n (s.act (loopOf n k) k pending e) := by
  cases hx : s.conns[k]? with
  | none => simpa only [TcpServer.act, hx] using h
  | some x =>
    have hput := h.putBack hx (x.step pending e)
    rw [act_eq hx]
    split
    · exact hput.removeConnection k
    · exact hput

theorem Confined.connectEstablished (h : Confined n s) (k : Nat) :
    Confined n (s.connectEstablished (loopOf n k) k) :=
  (h.record (e := .connectEstablished (loopOf n k) k) rfl).act k [] .connectEstablished

theorem Confined.connectDestroyed (h : Confined n s) (k : Nat) :
    Confined n (s.connectDestroyed (loopOf n k) k) :=
  (h.record (e := .connectDestroyed (loopOf n k) k) rfl).act k [] .connectDestroyed

theorem Confined.runTask (h : Confined n s) (t : Task) (r : SysRet) :
    Confined n (s.runTask (ownLoop n t) r t) := by
  cases t with
  | connectEstablished k => exact h.connectEstablished k
  | removeConnectionInLoop k => exact h.removeConnectionInLoop k
  | connectDestroyed k => exact h.connectDestroyed k
  | functor k f => exact h.act k [f] (.doPendingFunctor r)

/-! ## Connections in turn -/

/-- The turn is at the loop of the connection to come. -/
theorem Confined.getNextLoop (h : Confined n s) : s.getNextLoop = loopOf n s.conns.length := by
  unfold TcpServer.getNextLoop loopOf
  rw [h.numThreads_]
  split
  · rfl
  · next hn => rw [h.next_ hn]

theorem Confined.advanceNext (h : Confined n s) (hn : n ≠ 0) :
    s.advanceNext = (s.conns.length + 1) % n := by
  have hlt : s.conns.length % n < n := Nat.mod_lt _ (Nat.pos_of_ne_zero hn)
  unfold TcpServer.advanceNext
  rw [h.numThreads_, if_neg hn, h.next_ hn]
  split
  · next hle =>
    have heq : s.conns.length % n + 1 = n := Nat.le_antisymm hlt hle
    rw [Nat.add_mod, Nat.add_mod_mod, heq, Nat.mod_self]
  · next hle => rw [← Nat.mod_add_mod, Nat.mod_eq_of_lt (Nat.not_le.mp hle)]

theorem Confined.register (h : Confined n s) : Confined n s.register := by
  refine ⟨h.numThreads_, fun hn => ?_, fun k x hx => ?_, h.queues, fun e he => ?_⟩
  · rw [length_register]
    exact h.advanceNext hn
  · rcases eq_or_ne k s.conns.length with rfl | hne
    · obtain rfl := Option.some.inj ((conns_register s).symm.trans hx)
      exact h.getNextLoop
    · exact h.loops k x ((conns_register_of_ne s hne).symm.trans hx)
  · rcases List.mem_append.mp he with he | he
    · exact h.records e he
    · rw [List.mem_singleton.mp he]
      trivial

theorem Confined.newConnection (h : Confined n s) : Confined n s.newConnection := by
  have hloop : s.makeConnection.loop_ = loopOf n s.conns.length := h.getNextLoop
  rw [newConnection_eq]
  split
  · next hbase =>
    have hestablished := h.register.connectEstablished s.conns.length
    rwa [← hloop, hbase] at hestablished
  · refine h.register.queueInLoop fun t ht => ?_
    rw [List.mem_singleton.mp ht, hloop]
    rfl

theorem Confined.step (h : Confined n s) (e : Event) : Confined n (s.step e) := by
  cases e with
  | newConnection => exact h.newConnection
  | conn k e =>
    rw [TcpServer.step]
    split
    · exact h
    · next x hx =>
      split
      · rw [h.loops k x hx]
        exact h.act k [] e
      · exact h
  | doPendingFunctor l r =>
    rw [TcpServer.step]
    split
    · exact h
    · next t ts hq =>
      obtain rfl := h.queues l t (by rw [hq]; exact List.mem_cons_self)
      exact (h.setQueue fun t' ht' => by rw [hq]; exact List.mem_cons_of_mem t ht').runTask t r

/-! ## How many connections a loop has -/

theorem countP_range (p : Nat → Bool) (m : Nat) :
    (List.range m).countP p = Nat.count (fun k => p k = true) m := by
  induction m with
  | zero => rfl
  | succ m ih =>
    rw [List.range_succ, List.countP_append, ih, Nat.count_succ, List.countP_singleton]

theorem Confined.map_loop_ (h : Confined n s) :
    s.conns.map Connection.loop_ = (List.range s.conns.length).map (loopOf n) := by
  refine List.ext_getElem (by simp) fun k hk _ => ?_
  rw [List.length_map] at hk
  rw [List.getElem_map, List.getElem_map, List.getElem_range]
  exact h.loops k _ (List.getElem?_eq_getElem hk)

/-- The loops of the pool have the same number of connections each, and the first ones have one
more while a round is under way. -/
theorem Confined.load (h : Confined n s) {l : Nat} (hpos : 0 < l) (hle : l ≤ n) :
    s.load l = s.conns.length / n + if l - 1 < s.conns.length % n then 1 else 0 := by
  have hn : 0 < n := hpos.trans_le hle
  have hloop : ∀ k, decide (loopOf n k = l) = true ↔ k ≡ l - 1 [MOD n] := fun k => by
    have hlt : l - 1 < n := by omega
    rw [decide_eq_true_iff, loopOf, if_neg hn.ne', Nat.ModEq, Nat.mod_eq_of_lt hlt]
    omega
  calc s.load l = (s.conns.map Connection.loop_).countP fun loop => loop = l := by
        rw [List.countP_map]
        rfl
    _ = (List.range s.conns.length).countP fun k => loopOf n k = l := by
        rw [h.map_loop_, List.countP_map]
        rfl
    _ = s.conns.length.count (· ≡ l - 1 [MOD n]) := by
        rw [countP_range]
        simp only [hloop]
    _ = _ := by
        rw [Nat.count_modEq_card _ hn, Nat.mod_eq_of_lt (by omega : l - 1 < n)]

/-! ## Every run -/

/-- In every run, with any number of connections: connection `k` has the loop `k % n + 1` of a pool
of `n` loops, so that these have the same number of connections or differ by one; and what is queued
for a connection is queued in its loop, and what was done for it was done there, but for the base
loop's part. -/
theorem one_loop_each (name : Bytes) (writeCompleteCallback : Bool) (numThreads : Nat)
    (es : List Event) :
    let s := run step (new name writeCompleteCallback numThreads) es
    (∀ (k : Nat) (x : Connection), s.conns[k]? = some x → x.loop_ = loopOf numThreads k) ∧
      (∀ l, 0 < l → l ≤ numThreads → s.load l =
        s.conns.length / numThreads + if l - 1 < s.conns.length % numThreads then 1 else 0) ∧
      (∀ l, ∀ t ∈ s.queues l, ownLoop numThreads t = l) ∧
      ∀ e ∈ s.records, InOwnLoop numThreads e := by
  intro s
  have h : Confined numThreads s :=
    run_preserves (fun _ e h => h.step e) es (confined_new name writeCompleteCallback numThreads)
  exact ⟨h.loops, fun l hpos hle => h.load hpos hle, h.queues, h.records⟩

end TcpServer

end Mymuduo
