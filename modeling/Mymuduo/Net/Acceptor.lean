import Mathlib.Logic.Function.Basic
import Mymuduo.Lib.Transition

/-!
# `net/Acceptor`

An acceptor, the connections that wait in the kernel, and the descriptors of the process, of which
there are no more than `limit`. Other threads open and close descriptors at any time, also between
two calls of `handleRead`'s last branch. In that branch, when there is no descriptor left for the
connection, `idleFd_` is given up for it, and the connection is closed. A descriptor is known with
whom it belongs to, so that a `close` of somebody else's would be seen.

The errors after which `sockets::accept` ends the process are left out, and it is taken for granted
that logging leaves `errno` as it is.

* `Owned.step`, `Accounted.step`: whose the descriptors are, and where the connections are.
* `acceptor_owns`: in every run no descriptor of somebody else is closed, and no connection is lost.
* `backlog_shrinks`: as long as no other thread opens a descriptor in the middle of that branch,
  every `handleRead` takes the first connection that waits; and once one did when there was no other
  left, no connection is taken any more, until a descriptor is closed.
* `backlog_shrinks_fails`: which is what `handleRead` cannot help, however often it is called.
-/

namespace Mymuduo

open Transition

/-- Whom a descriptor belongs to. -/
inductive FdOwner
  | acceptSocket
  | idle
  /-- a connection for which there is no other descriptor -/
  | refused (conn : Nat)
  /-- The connection was handed over. -/
  | connection (conn : Nat)
  | other
  deriving DecidableEq, Repr

/-- Is it for the rest of the process to close? -/
def FdOwner.isElsewhere : FdOwner → Bool
  | .connection _ | .other => true
  | _ => false

/-- Is it for the acceptor to close? -/
def FdOwner.isSpare : FdOwner → Bool
  | .idle | .refused _ => true
  | _ => false

/-- Where the loop is in `handleRead`. -/
inductive AcceptorPc
  | idle
  /-- about to close `idleFd_` -/
  | full
  /-- about to call `::accept` -/
  | accepting
  /-- about to close what it accepted -/
  | refusing
  /-- about to open `/dev/null` -/
  | reopening
  deriving DecidableEq, Repr

/-- There is something in `idleFd_` that is to be closed. -/
def AcceptorPc.holds : AcceptorPc → Bool
  | .idle | .full | .refusing => true
  | .accepting | .reopening => false

inductive AcceptorEffect
  | accepted (conn fd : Nat)
  /-- taken to be closed -/
  | refused (conn : Nat)
  | closed (fd : Nat) (owner : FdOwner)
  deriving DecidableEq, Repr

structure Acceptor where
  newConnectionCallback_ : Bool
  /-- `none` is -1. -/
  idleFd_ : Option Nat
  pc : AcceptorPc
  limit : Nat
  fds : Nat → Option FdOwner
  /-- the connections that wait -/
  backlog : List Nat
  arrived : Nat
  trace : List AcceptorEffect

namespace Acceptor

/-- An acceptor that listens, when `spare` descriptors of the process are still free. -/
def new (newConnectionCallback : Bool) (spare : Nat) : Acceptor where
  newConnectionCallback_ := newConnectionCallback
  idleFd_ := some 1
  pc := .idle
  limit := spare + 2
  fds := fun fd => if fd = 0 then some .acceptSocket else if fd = 1 then some .idle else none
  backlog := []
  arrived := 0
  trace := []

def emit (s : Acceptor) (e : AcceptorEffect) : Acceptor := { s with trace := s.trace ++ [e] }

/-! ## The kernel -/

/-- The lowest descriptor that is free. -/
def freeFd (s : Acceptor) : Option Nat := (List.range s.limit).find? fun fd => (s.fds fd).isNone

def setFd (s : Acceptor) (fd : Nat) (owner : Option FdOwner) : Acceptor :=
  { s with fds := Function.update s.fds fd owner }

/-- `close(fd)`, which does nothing where there is no descriptor. -/
def close (s : Acceptor) : Option Nat → Acceptor
  | none => s
  | some fd =>
    match s.fds fd with
    | none => s
    | some owner => (s.setFd fd none).emit (.closed fd owner)

/-! ## `handleRead` -/

/-- The connection `conn` was accepted. -/
def newConnection (s : Acceptor) (conn fd : Nat) : Acceptor :=
  if s.newConnectionCallback_ then
    (s.setFd fd (some (.connection conn))).emit (.accepted conn fd)
  else ((s.setFd fd (some (.refused conn))).emit (.refused conn)).close (some fd)

/-- `handleRead`, up to the branch for `EMFILE`; `interrupted` is any other error. That may be one
which takes a connection from those that wait, such as `ECONNABORTED`: a connection like that is
none of those that arrive here. -/
def handleRead (s : Acceptor) (interrupted : Bool) : Acceptor :=
  if interrupted then s
  else
    match s.freeFd, s.backlog with
    | none, _ => { s with pc := .full }
    | some _, [] => s
    | some fd, conn :: backlog => { s with backlog := backlog }.newConnection conn fd

/-- The branch for `EMFILE`, call by call -/
def proceed (s : Acceptor) (interrupted : Bool) : Acceptor :=
  match s.pc with
  | .idle => s
  | .full => { s.close s.idleFd_ with pc := .accepting }
  | .accepting =>
    let s := { s with idleFd_ := none, pc := .refusing }
    if interrupted then s
    else
      match s.freeFd, s.backlog with
      | some fd, conn :: backlog =>
        ({ s with idleFd_ := some fd, backlog := backlog }.setFd fd (some (.refused conn))).emit
          (.refused conn)
      | _, _ => s
  | .refusing => { s.close s.idleFd_ with pc := .reopening }
  | .reopening =>
    let s := { s with idleFd_ := s.freeFd, pc := .idle }
    match s.idleFd_ with
    | some fd => s.setFd fd (some .idle)
    | none => s

/-! ## Runs -/

inductive Event
  /-- A connection arrives. -/
  | arrive
  | handleRead (interrupted : Bool)
  | proceed (interrupted : Bool)
  /-- Another thread opens a descriptor. -/
  | open_
  /-- Another thread closes one of its own, or that of a connection. -/
  | close (fd : Nat)
  deriving DecidableEq, Repr

def step (s : Acceptor) : Event → Acceptor
  | .arrive => { s with backlog := s.backlog ++ [s.arrived], arrived := s.arrived + 1 }
  | .handleRead interrupted => if s.pc = .idle then s.handleRead interrupted else s
  | .proceed interrupted => s.proceed interrupted
  | .open_ =>
    match s.freeFd with
    | some fd => s.setFd fd (some .other)
    | none => s
  | .close fd =>
    match s.fds fd with
    | some owner => if owner.isElsewhere then s.setFd fd none else s
    | none => s

/-- The connections that were accepted, in order. -/
def taken (s : Acceptor) : List Nat :=
  s.trace.filterMap fun
    | .accepted conn _ => some conn
    | .refused conn => some conn
    | .closed .. => none

/-! ## Whose the descriptors are -/

def spareFd (s : Acceptor) (fd : Nat) : Bool := (s.fds fd).any FdOwner.isSpare

/-- What is for the acceptor to close is in `idleFd_`, and nothing else is when it is closed. -/
structure Owned (s : Acceptor) : Prop where
  listening : s.fds 0 = some .acceptSocket
  limit : ∀ fd, s.fds fd ≠ none → fd < s.limit
  closed : ∀ fd owner, .closed fd owner ∈ s.trace → owner.isSpare = true
  spare : ∀ fd, s.spareFd fd = true ↔ s.idleFd_ = some fd ∧ s.pc.holds = true
  idle : ∀ fd, s.spareFd fd = true → s.pc ≠ .refusing → s.fds fd = some .idle

theorem owned_new (newConnectionCallback : Bool) (spare : Nat) :
    Owned (new newConnectionCallback spare) := by
  have hspare : ∀ fd, (new newConnectionCallback spare).spareFd fd = true ↔ fd = 1 := fun fd => by
    simp only [spareFd, new]
    split
    · next heq => simp [heq, FdOwner.isSpare]
    · split <;> simp_all [FdOwner.isSpare]
  refine ⟨rfl, fun fd hfd => ?_, nofun, fun fd => ?_, fun fd hfd _ => ?_⟩
  · simp only [new] at hfd ⊢
    split at hfd
    · omega
    · split at hfd
      · omega
      · exact absurd rfl hfd
  · rw [hspare]
    simp [new, AcceptorPc.holds, eq_comm]
  · rw [(hspare fd).mp hfd]
    rfl

/-- No descriptor is free. -/
def Full (s : Acceptor) : Prop := ∀ fd < s.limit, s.fds fd ≠ none

theorem freeFd_eq_some {s : Acceptor} {fd : Nat} (h : s.freeFd = some fd) :
    s.fds fd = none ∧ fd < s.limit := by
  have hfree : (s.fds fd).isNone = true :=
    List.find?_some (p := fun fd => (s.fds fd).isNone) h
  exact ⟨Option.isNone_iff_eq_none.mp hfree, List.mem_range.mp (List.mem_of_find?_eq_some h)⟩

theorem freeFd_eq_none {s : Acceptor} : s.freeFd = none ↔ s.Full := by
  simp [freeFd, Full]

theorem spareFd_setFd (s : Acceptor) (fd : Nat) (owner : Option FdOwner) (fd' : Nat) :
    (s.setFd fd owner).spareFd fd' =
      if fd' = fd then owner.any FdOwner.isSpare else s.spareFd fd' := by
  rcases eq_or_ne fd' fd with rfl | hne
  · simp [spareFd, setFd]
  · simp [spareFd, setFd, hne]

/-- The acceptor's own socket stays, and there are never more descriptors than may be. -/
theorem Owned.setFd_limit {s : Acceptor} (h : Owned s) {fd : Nat} (hfd : fd < s.limit)
    (owner : Option FdOwner) : ∀ fd', (s.setFd fd owner).fds fd' ≠ none → fd' < s.limit := by
  intro fd' hfd'
  rcases eq_or_ne fd' fd with rfl | hne
  · exact hfd
  · exact h.limit fd' (by simpa [setFd, hne] using hfd')

theorem Owned.setFd_listening {s : Acceptor} (h : Owned s) {fd : Nat}
    (hfd : s.fds fd ≠ some .acceptSocket) (owner : Option FdOwner) :
    (s.setFd fd owner).fds 0 = some .acceptSocket := by
  have hne : 0 ≠ fd := by
    rintro rfl
    exact hfd h.listening
  simpa [setFd, hne] using h.listening

/-- A descriptor of the rest of the process changes hands. -/
theorem Owned.setFd {s : Acceptor} (h : Owned s) {fd : Nat} {owner : Option FdOwner}
    (hbefore : ∀ o, s.fds fd = some o → o.isElsewhere = true)
    (hafter : ∀ o, owner = some o → o.isElsewhere = true) (hlimit : fd < s.limit) :
    Owned (s.setFd fd owner) := by
  have hnot : ∀ o : Option FdOwner, (∀ o', o = some o' → o'.isElsewhere = true) →
      o.any FdOwner.isSpare = false := fun o ho => by
    cases o with
    | none => rfl
    | some o => cases o <;> first | rfl | cases ho _ rfl
  have hspare : ∀ fd', (s.setFd fd owner).spareFd fd' = s.spareFd fd' := fun fd' => by
    rw [spareFd_setFd]
    split
    · next heq => rw [heq, hnot owner hafter, spareFd, hnot _ hbefore]
    · rfl
  refine ⟨h.setFd_listening ?_ owner, h.setFd_limit hlimit owner, h.closed, fun fd' => ?_,
    fun fd' hfd' hpc => ?_⟩
  · intro heq
    cases hbefore _ heq
  · rw [hspare]
    exact h.spare fd'
  · rw [hspare] at hfd'
    have hne : fd' ≠ fd := by
      rintro rfl
      rw [spareFd, hnot _ hbefore] at hfd'
      cases hfd'
    simpa [Acceptor.setFd, hne] using h.idle fd' hfd' hpc

theorem Owned.emit {s : Acceptor} (h : Owned s) {e : AcceptorEffect}
    (he : ∀ fd owner, e = .closed fd owner → owner.isSpare = true) : Owned (s.emit e) := by
  refine ⟨h.listening, h.limit, fun fd owner hm => ?_, h.spare, h.idle⟩
  rcases List.mem_append.mp hm with hm | hm
  · exact h.closed fd owner hm
  · exact he fd owner (List.mem_singleton.mp hm).symm

/-- Nothing is for the acceptor to close. -/
def Bare (s : Acceptor) : Prop := ∀ fd, s.spareFd fd = false

theorem owned_of_bare {s : Acceptor} (hpc : s.pc.holds = false) (hbare : s.Bare)
    (hlistening : s.fds 0 = some .acceptSocket) (hlimit : ∀ fd, s.fds fd ≠ none → fd < s.limit)
    (hclosed : ∀ fd owner, .closed fd owner ∈ s.trace → owner.isSpare = true) : Owned s :=
  ⟨hlistening, hlimit, hclosed, fun fd => by simp [hbare fd, hpc], fun fd hfd => by
    rw [hbare fd] at hfd; cases hfd⟩

/-- The acceptor gives up what is in `idleFd_`. -/
theorem Owned.giveUp {s : Acceptor} (h : Owned s) (hholds : s.pc.holds = true) {pc : AcceptorPc}
    (hpc : pc.holds = false) : Owned { s.close s.idleFd_ with pc := pc } := by
  have honly : ∀ fd, s.idleFd_ ≠ some fd → s.spareFd fd = false := fun fd hne => by
    by_contra hspare
    exact hne ((h.spare fd).mp (by simpa using hspare)).1
  cases hidle : s.idleFd_ with
  | none =>
    exact owned_of_bare hpc (fun fd => honly fd (by rw [hidle]; exact nofun)) h.listening h.limit
      h.closed
  | some fd =>
    have hspare := (h.spare fd).mpr ⟨hidle, hholds⟩
    obtain ⟨owner, howner, hown⟩ : ∃ o, s.fds fd = some o ∧ o.isSpare = true := by
      simpa [spareFd, Option.any_eq_true] using hspare
    have hclose : s.close (some fd) = (s.setFd fd none).emit (.closed fd owner) := by
      rw [Acceptor.close, howner]
    rw [hclose]
    refine owned_of_bare hpc (fun fd' => ?_) ?_ ?_ ?_
    · show (s.setFd fd none).spareFd fd' = false
      rw [spareFd_setFd]
      split
      · rfl
      · next hne =>
        refine honly fd' ?_
        rw [hidle]
        rintro ⟨⟩
        exact hne rfl
    · refine h.setFd_listening ?_ none
      rw [howner]
      rintro ⟨⟩
      cases hown
    · exact h.setFd_limit (h.limit fd (by rw [howner]; exact Option.some_ne_none owner)) none
    · exact (h.emit (e := .closed fd owner) (by rintro _ _ ⟨⟩; exact hown)).closed

theorem Owned.bare {s : Acceptor} (h : Owned s) (hpc : s.pc.holds = false) : s.Bare := by
  intro fd
  by_contra hspare
  have hholds := ((h.spare fd).mp (by simpa using hspare)).2
  rw [hpc] at hholds
  cases hholds

/-- The acceptor has nothing in `idleFd_` although it goes on as if. -/
theorem Owned.takeNone {s : Acceptor} (h : Owned s) (hpc : s.pc.holds = false) (pc : AcceptorPc) :
    Owned { s with idleFd_ := none, pc := pc } :=
  ⟨h.listening, h.limit, h.closed, fun fd => iff_of_false
    (by simpa [spareFd] using h.bare hpc fd) nofun, fun fd hfd => by
      have hspare : s.spareFd fd = true := hfd
      rw [h.bare hpc fd] at hspare
      cases hspare⟩

/-- The acceptor gets a descriptor and has it in `idleFd_`. -/
theorem Owned.take {s : Acceptor} (h : Owned s) (hpc : s.pc.holds = false) {fd : Nat}
    (hfree : s.freeFd = some fd) {pc : AcceptorPc} (hholds : pc.holds = true) {owner : FdOwner}
    (hspare : owner.isSpare = true) (hidle : pc ≠ .refusing → owner = .idle) :
    Owned ({ s with idleFd_ := some fd, pc := pc }.setFd fd (some owner)) := by
  obtain ⟨hnone, hlimit⟩ := freeFd_eq_some hfree
  have hiff : ∀ fd', ({ s with idleFd_ := some fd, pc := pc }.setFd fd (some owner)).spareFd fd' =
      decide (fd' = fd) := fun fd' => by
    rw [spareFd_setFd]
    split
    · next heq => simpa [heq] using hspare
    · next hne => simpa [hne, spareFd] using h.bare hpc fd'
  refine ⟨h.setFd_listening (by rw [hnone]; exact nofun) _, h.setFd_limit hlimit _, h.closed,
    fun fd' => ?_, fun fd' hfd' hne => ?_⟩
  · rw [hiff, decide_eq_true_iff]
    simp [Acceptor.setFd, hholds, eq_comm]
  · rw [hiff, decide_eq_true_iff] at hfd'
    rw [hfd', ← hidle hne]
    exact Function.update_self ..

/-! ## The steps -/

/-- A connection that is refused at once leaves the descriptors as they were. -/
theorem refused_at_once {s : Acceptor} {fd : Nat} (hnone : s.fds fd = none) (conn : Nat) :
    ((s.setFd fd (some (.refused conn))).emit (.refused conn)).close (some fd) =
      (s.emit (.refused conn)).emit (.closed fd (.refused conn)) := by
  have hsame : Function.update s.fds fd none = s.fds := by
    rw [← hnone]
    exact Function.update_eq_self fd s.fds
  simp [Acceptor.close, Acceptor.setFd, Acceptor.emit, hsame]

theorem Owned.newConnection {s : Acceptor} (h : Owned s) {fd : Nat} (hfree : s.freeFd = some fd)
    (conn : Nat) : Owned (s.newConnection conn fd) := by
  obtain ⟨hnone, hlimit⟩ := freeFd_eq_some hfree
  unfold Acceptor.newConnection
  split
  · have hset : Owned (s.setFd fd (some (.connection conn))) :=
      h.setFd (by rw [hnone]; exact nofun) (by rintro _ ⟨⟩; rfl) hlimit
    exact hset.emit nofun
  · rw [refused_at_once hnone]
    exact (h.emit (by simp)).emit (by rintro _ _ ⟨⟩; rfl)

theorem Owned.handleRead {s : Acceptor} (h : Owned s) (hpc : s.pc = .idle) (interrupted : Bool) :
    Owned (s.handleRead interrupted) := by
  unfold Acceptor.handleRead
  split
  · exact h
  · split
    · refine ⟨h.listening, h.limit, h.closed, fun fd => ?_, fun fd hfd _ => ?_⟩
      · have hspare := h.spare fd
        rw [hpc] at hspare
        exact hspare
      · exact h.idle fd hfd (by rw [hpc]; exact nofun)
    · exact h
    · next fd conn backlog hfree _ =>
      have hbacklog : Owned { s with backlog := backlog } :=
        ⟨h.listening, h.limit, h.closed, h.spare, h.idle⟩
      exact hbacklog.newConnection hfree conn

theorem Owned.proceed {s : Acceptor} (h : Owned s) (interrupted : Bool) :
    Owned (s.proceed interrupted) := by
  unfold Acceptor.proceed
  split
  · exact h
  · next hpc => exact h.giveUp (by rw [hpc]; rfl) rfl
  · next hpc =>
    have hholds : s.pc.holds = false := by rw [hpc]; rfl
    have hnone : Owned { s with idleFd_ := none, pc := .refusing } := h.takeNone hholds .refusing
    dsimp only
    split
    · exact hnone
    · split
      -- the kernel gives the descriptor that was closed a step before, or another one
      · next fd conn backlog hfree _ =>
        have hbacklog : Owned { s with backlog := backlog } :=
          ⟨h.listening, h.limit, h.closed, h.spare, h.idle⟩
        have htake : Owned ({ s with
            backlog := backlog, idleFd_ := some fd, pc := .refusing }.setFd fd
            (some (.refused conn))) :=
          hbacklog.take hholds hfree rfl rfl fun hne => absurd rfl hne
        exact htake.emit nofun
      · exact hnone
  · next hpc => exact h.giveUp (by rw [hpc]; rfl) rfl
  · next hpc =>
    have hholds : s.pc.holds = false := by rw [hpc]; rfl
    cases hfree : s.freeFd with
    | none => exact h.takeNone hholds .idle
    | some fd => exact h.take hholds hfree rfl rfl fun _ => rfl

theorem Owned.step {s : Acceptor} (h : Owned s) (e : Event) : Owned (s.step e) := by
  cases e with
  | arrive => exact ⟨h.listening, h.limit, h.closed, h.spare, h.idle⟩
  | handleRead interrupted =>
    rw [Acceptor.step]
    split
    · next hpc => exact h.handleRead hpc interrupted
    · exact h
  | proceed interrupted => exact h.proceed interrupted
  | open_ =>
    rw [Acceptor.step]
    split
    · next fd hfree =>
      obtain ⟨hnone, hlimit⟩ := freeFd_eq_some hfree
      exact h.setFd (by rw [hnone]; exact nofun) (by rintro _ ⟨⟩; rfl) hlimit
    · exact h
  | close fd =>
    rw [Acceptor.step]
    split
    · next owner howner =>
      split
      · next helsewhere =>
        refine h.setFd (fun o ho => ?_) nofun
          (h.limit fd (by rw [howner]; exact Option.some_ne_none owner))
        rw [howner] at ho
        cases ho
        exact helsewhere
      · exact h
    · exact h

/-! ## Where the connections are -/

/-- Every connection that arrived was taken, or it waits. -/
def Accounted (s : Acceptor) : Prop := s.taken ++ s.backlog = List.range s.arrived

theorem Accounted.of_same {s s' : Acceptor} (h : Accounted s) (htaken : s'.taken = s.taken)
    (hbacklog : s'.backlog = s.backlog) (harrived : s'.arrived = s.arrived) : Accounted s' := by
  rw [Accounted, htaken, hbacklog, harrived]
  exact h

theorem Accounted.take {s s' : Acceptor} (h : Accounted s) {conn : Nat} {backlog : List Nat}
    (hs : s.backlog = conn :: backlog) (htaken : s'.taken = s.taken ++ [conn])
    (hbacklog : s'.backlog = backlog) (harrived : s'.arrived = s.arrived) : Accounted s' := by
  rw [Accounted, htaken, hbacklog, harrived, List.append_assoc, List.singleton_append, ← hs]
  exact h

theorem taken_close (s : Acceptor) (fd : Option Nat) :
    (s.close fd).taken = s.taken ∧ (s.close fd).backlog = s.backlog ∧
      (s.close fd).arrived = s.arrived := by
  unfold Acceptor.close
  split
  · exact ⟨rfl, rfl, rfl⟩
  · split
    · exact ⟨rfl, rfl, rfl⟩
    · exact ⟨by simp [taken, Acceptor.emit, Acceptor.setFd], rfl, rfl⟩

theorem Accounted.proceed {s : Acceptor} (h : Accounted s) (interrupted : Bool) :
    Accounted (s.proceed interrupted) := by
  unfold Acceptor.proceed
  split
  · exact h
  · obtain ⟨htaken, hbacklog, harrived⟩ := taken_close s s.idleFd_
    exact h.of_same htaken hbacklog harrived
  · dsimp only
    split
    · exact h
    · split
      · next fd conn backlog _ hbacklog =>
        exact h.take hbacklog (by simp [taken, Acceptor.emit, Acceptor.setFd]) rfl rfl
      · exact h
  · obtain ⟨htaken, hbacklog, harrived⟩ := taken_close s s.idleFd_
    exact h.of_same htaken hbacklog harrived
  · dsimp only
    split <;> exact h

theorem Accounted.handleRead {s : Acceptor} (h : Accounted s) (interrupted : Bool) :
    Accounted (s.handleRead interrupted) := by
  unfold Acceptor.handleRead
  split
  · exact h
  · split
    · exact h
    · exact h
    · next fd conn backlog hfree hbacklog =>
      unfold Acceptor.newConnection
      split
      · exact h.take hbacklog (by simp [taken, Acceptor.emit, Acceptor.setFd]) rfl rfl
      · have hfree' : ({ s with backlog := backlog } : Acceptor).fds fd = none :=
          (freeFd_eq_some hfree).1
        rw [refused_at_once hfree']
        exact h.take hbacklog (by simp [taken, Acceptor.emit]) rfl rfl

theorem Accounted.step {s : Acceptor} (h : Accounted s) (e : Event) : Accounted (s.step e) := by
  cases e with
  | arrive =>
    show s.taken ++ (s.backlog ++ [s.arrived]) = List.range (s.arrived + 1)
    rw [List.range_succ, ← List.append_assoc, show s.taken ++ s.backlog = _ from h]
  | handleRead interrupted =>
    rw [Acceptor.step]
    split
    · exact h.handleRead interrupted
    · exact h
  | proceed interrupted => exact h.proceed interrupted
  | open_ =>
    rw [Acceptor.step]
    split <;> exact h
  | close fd =>
    rw [Acceptor.step]
    split
    · split <;> exact h
    · exact h

/-! ## Every run -/

/-- Whatever the other threads do in between: only descriptors are closed that are the acceptor's.
Between two calls of `handleRead` it has the one in `idleFd_`, if there is one, and its own socket.
And every connection was taken, in the order of arrival, or it waits. -/
theorem acceptor_owns (newConnectionCallback : Bool) (spare : Nat) (es : List Event) :
    let s := run step (new newConnectionCallback spare) es
    (∀ fd owner, .closed fd owner ∈ s.trace → owner.isSpare = true) ∧
      (s.pc = .idle → ∀ fd, (s.spareFd fd = true ↔ s.idleFd_ = some fd) ∧
        (s.spareFd fd = true → s.fds fd = some .idle)) ∧
      s.fds 0 = some .acceptSocket ∧ s.taken ++ s.backlog = List.range s.arrived := by
  intro s
  have h : Owned s :=
    run_preserves (fun _ e h => h.step e) es (owned_new newConnectionCallback spare)
  have haccounted : Accounted s := run_preserves (fun _ e h => h.step e) es rfl
  refine ⟨h.closed, fun hpc fd => ⟨?_, fun hfd => h.idle fd hfd (by rw [hpc]; exact nofun)⟩,
    h.listening, haccounted⟩
  rw [h.spare, hpc]
  exact and_iff_left rfl

/-- One connection more than there are descriptors. -/
example :
    let s := run step (new true 1) [.arrive, .arrive, .handleRead false, .handleRead false,
      .proceed false, .proceed false, .proceed false, .proceed false]
    s.trace = [.accepted 0 2, .closed 1 .idle, .refused 1, .closed 1 (.refused 1)] ∧
      s.idleFd_ = some 1 := by
  decide +kernel

/-! ## The backlog -/

/-- No other thread opens a descriptor in the branch for `EMFILE`. -/
def Undisturbed (s : Acceptor) (e : Event) : Prop := e = .open_ → s.pc = .idle ∨ s.pc = .full

instance (s : Acceptor) (e : Event) : Decidable (s.Undisturbed e) :=
  inferInstanceAs (Decidable (_ → _))

/-- There is a descriptor for the next connection, or for `idleFd_`. -/
structure Reserved (s : Acceptor) : Prop where
  idle : s.pc = .idle ∨ s.pc = .full → s.idleFd_ ≠ none
  free : s.pc = .accepting ∨ s.pc = .reopening → ¬ s.Full
  refusing : s.pc = .refusing → s.idleFd_ ≠ none ∨ ¬ s.Full

theorem not_full_of_free {s : Acceptor} {fd : Nat} (hlt : fd < s.limit) (hnone : s.fds fd = none) :
    ¬ s.Full := fun hfull => hfull fd hlt hnone

theorem exists_freeFd {s : Acceptor} (h : ¬ s.Full) : ∃ fd, s.freeFd = some fd := by
  rw [← freeFd_eq_none] at h
  exact Option.ne_none_iff_exists'.mp h

/-- What is closed can be had again. -/
theorem Owned.not_full_close {s : Acceptor} (h : Owned s) (hpc : s.pc.holds = true) {fd : Nat}
    (hidle : s.idleFd_ = some fd) : ¬ (s.close s.idleFd_).Full := by
  have hspare := (h.spare fd).mpr ⟨hidle, hpc⟩
  obtain ⟨owner, howner, -⟩ : ∃ o, s.fds fd = some o ∧ o.isSpare = true := by
    simpa [spareFd, Option.any_eq_true] using hspare
  have hclose : s.close s.idleFd_ = (s.setFd fd none).emit (.closed fd owner) := by
    rw [hidle, Acceptor.close, howner]
  rw [hclose]
  exact not_full_of_free (h.limit fd (by rw [howner]; exact Option.some_ne_none owner))
    (Function.update_self ..)

theorem newConnection_fields (s : Acceptor) (conn fd : Nat) :
    (s.newConnection conn fd).pc = s.pc ∧ (s.newConnection conn fd).idleFd_ = s.idleFd_ := by
  unfold Acceptor.newConnection
  split
  · exact ⟨rfl, rfl⟩
  · unfold Acceptor.close
    dsimp only
    split <;> exact ⟨rfl, rfl⟩

theorem handleRead_fields {s : Acceptor} (hpc : s.pc = .idle) (interrupted : Bool) :
    (s.handleRead interrupted).idleFd_ = s.idleFd_ ∧
      ((s.handleRead interrupted).pc = .idle ∨ (s.handleRead interrupted).pc = .full) := by
  unfold Acceptor.handleRead
  split
  · exact ⟨rfl, .inl hpc⟩
  · split
    · exact ⟨rfl, .inr rfl⟩
    · exact ⟨rfl, .inl hpc⟩
    · next fd conn backlog _ _ =>
      obtain ⟨hpc', hidle⟩ := newConnection_fields { s with backlog := backlog } conn fd
      exact ⟨hidle, .inl (hpc'.trans hpc)⟩

theorem Reserved.handleRead {s : Acceptor} (h : Reserved s) (hpc : s.pc = .idle)
    (interrupted : Bool) : Reserved (s.handleRead interrupted) := by
  obtain ⟨hidle, hnext⟩ := handleRead_fields hpc interrupted
  have hne := h.idle (.inl hpc)
  rw [← hidle] at hne
  rcases hnext with hpc' | hpc' <;> exact ⟨fun _ => hne, by simp [hpc'], by simp [hpc']⟩

theorem Reserved.proceed {s : Acceptor} (h : Reserved s) (howned : Owned s) (interrupted : Bool) :
    Reserved (s.proceed interrupted) := by
  unfold Acceptor.proceed
  split
  · exact h
  · next hpc =>
    -- what `idleFd_` gives up is what the connection can have
    obtain ⟨fd, hidle⟩ := Option.ne_none_iff_exists'.mp (h.idle (.inr hpc))
    have hfree := howned.not_full_close (by rw [hpc]; rfl) hidle
    exact ⟨by simp, fun _ => hfree, nofun⟩
  · next hpc =>
    have hfree := h.free (.inl hpc)
    have hnone : Reserved { s with idleFd_ := none, pc := .refusing } :=
      ⟨by simp, by simp, fun _ => .inr hfree⟩
    dsimp only
    split
    · exact hnone
    · split
      · exact ⟨by simp [Acceptor.emit, Acceptor.setFd], by simp [Acceptor.emit, Acceptor.setFd],
          fun _ => .inl (Option.some_ne_none _)⟩
      · exact hnone
  · next hpc =>
    have hfree : ¬ (s.close s.idleFd_).Full := by
      rcases Option.eq_none_or_eq_some s.idleFd_ with hnone | ⟨fd, hidle⟩
      · have hnot := (h.refusing hpc).resolve_left (not_not_intro hnone)
        rwa [hnone]
      · exact howned.not_full_close (by rw [hpc]; rfl) hidle
    exact ⟨by simp, fun _ => hfree, nofun⟩
  · next hpc =>
    obtain ⟨fd, hfree⟩ := exists_freeFd (h.free (.inr hpc))
    rw [hfree]
    exact ⟨fun _ => Option.some_ne_none fd, by simp [Acceptor.setFd], by simp [Acceptor.setFd]⟩

theorem Reserved.step {s : Acceptor} (h : Reserved s) (howned : Owned s) {e : Event}
    (hok : s.Undisturbed e) : Reserved (s.step e) := by
  cases e with
  | arrive => exact ⟨h.idle, h.free, h.refusing⟩
  | handleRead interrupted =>
    rw [Acceptor.step]
    split
    · next hpc => exact h.handleRead hpc interrupted
    · exact h
  | proceed interrupted => exact h.proceed howned interrupted
  | open_ =>
    have hpc := hok rfl
    rw [Acceptor.step]
    split
    · refine ⟨h.idle, fun hpc' => ?_, fun hpc' => ?_⟩
      · rcases hpc with hpc | hpc <;> simp [Acceptor.setFd, hpc] at hpc'
      · rcases hpc with hpc | hpc <;> simp [Acceptor.setFd, hpc] at hpc'
    · exact h
  | close fd =>
    have hfree : ¬ s.Full → ¬ (s.setFd fd none).Full := fun hnot hfull => hnot fun fd' hlt => by
      rcases eq_or_ne fd' fd with rfl | hne
      · exact absurd (Function.update_self ..) (hfull fd' hlt)
      · simpa [Acceptor.setFd, hne] using hfull fd' hlt
    rw [Acceptor.step]
    split
    · split
      · exact ⟨h.idle, fun hpc => hfree (h.free hpc), fun hpc => (h.refusing hpc).imp_right hfree⟩
      · exact h
    · exact h

/-! ### A call of `handleRead` -/

/-- A call that no other thread comes between. -/
def wholeCall : List Event :=
  [.handleRead false, .proceed false, .proceed false, .proceed false, .proceed false]

/-- A call in which another thread opens a descriptor right after `idleFd_` was closed. -/
def disturbedCall : List Event :=
  [.handleRead false, .proceed false, .open_, .proceed false, .proceed false, .proceed false]

theorem proceed_idle {s : Acceptor} (hpc : s.pc = .idle) (interrupted : Bool) :
    s.proceed interrupted = s := by
  rw [Acceptor.proceed, hpc]

/-- The only descriptor that is not in use is the one that was given up. -/
theorem freeFd_setFd_none {s : Acceptor} (hfull : s.Full) {fd : Nat} (hlt : fd < s.limit) :
    (s.setFd fd none).freeFd = some fd := by
  have hnone : (s.setFd fd none).fds fd = none := Function.update_self ..
  obtain ⟨fd', hfree⟩ := exists_freeFd (not_full_of_free (s := s.setFd fd none) hlt hnone)
  obtain ⟨hnone', hlt'⟩ := freeFd_eq_some hfree
  rcases eq_or_ne fd' fd with rfl | hne
  · exact hfree
  · have hsame : (s.setFd fd none).fds fd' = s.fds fd' := Function.update_of_ne hne ..
    exact absurd (hsame.symm.trans hnone') (hfull fd' hlt')

theorem full_setFd_some {s : Acceptor} (hfull : s.Full) (fd : Nat) (owner : FdOwner) :
    (s.setFd fd (some owner)).Full := by
  intro fd' hlt
  rcases eq_or_ne fd' fd with rfl | hne
  · simp [setFd]
  · simpa [setFd, hne] using hfull fd' hlt

/-- Without a descriptor for it, the first connection is accepted with the one of `idleFd_` and
closed, and `idleFd_` is opened again. -/
theorem run_wholeCall_full {s : Acceptor} (hpc : s.pc = .idle) (hfull : s.Full) {fd : Nat}
    (hidle : s.idleFd_ = some fd) (hlt : fd < s.limit) (howner : s.fds fd = some .idle) :
    run step s wholeCall = { s with
      backlog := s.backlog.tail
      trace := s.trace ++ .closed fd .idle :: (s.backlog.head?.elim [] fun conn =>
        [.refused conn, .closed fd (.refused conn)]) } := by
  have hnone := freeFd_eq_none.mpr hfull
  have hfree := freeFd_setFd_none hfull hlt
  have hback : Function.update s.fds fd (some .idle) = s.fds := by
    rw [← howner]
    exact Function.update_eq_self fd s.fds
  obtain ⟨_, _, _, _, fds, backlog, _, trace⟩ := s
  simp only [freeFd, setFd] at *
  subst hpc hidle
  cases backlog with
  | nil =>
    simp [run, wholeCall, step, handleRead, proceed, freeFd, setFd, close, emit, hnone, hfree,
      howner, hback]
  | cons conn backlog =>
    simp [run, wholeCall, step, handleRead, proceed, freeFd, setFd, close, emit, hnone, hfree,
      howner, hback]

/-- What a call leaves behind in the trace that takes the connection `conn`. -/
inductive Takes (s : Acceptor) (conn : Nat) : List AcceptorEffect → Prop
  | accepted {fd : Nat} (hfree : s.freeFd = some fd) (hcallback : s.newConnectionCallback_ = true) :
    Takes s conn [.accepted conn fd]
  | declined {fd : Nat} (hfree : s.freeFd = some fd)
    (hcallback : s.newConnectionCallback_ = false) :
    Takes s conn [.refused conn, .closed fd (.refused conn)]
  | refused {fd : Nat} (hfull : s.Full) (hidle : s.idleFd_ = some fd) :
    Takes s conn [.closed fd .idle, .refused conn, .closed fd (.refused conn)]

/-- `idleFd_` is there again, and the first connection was taken. -/
structure Shrinks (s s' : Acceptor) : Prop where
  pc : s'.pc = .idle
  idleFd_ : s'.idleFd_ ≠ none
  backlog : s'.backlog = s.backlog.tail
  takes : ∀ conn, s.backlog.head? = some conn →
    ∃ effects, s.Takes conn effects ∧ s'.trace = s.trace ++ effects

theorem shrinks_full {s : Acceptor} (howned : Owned s) (hpc : s.pc = .idle) (hfull : s.Full)
    (hidle : s.idleFd_ ≠ none) : Shrinks s (run step s wholeCall) := by
  obtain ⟨fd, hfd⟩ := Option.ne_none_iff_exists'.mp hidle
  have howner := howned.idle fd ((howned.spare fd).mpr ⟨hfd, by rw [hpc]; rfl⟩) (by simp [hpc])
  have hlt := howned.limit fd (by rw [howner]; exact Option.some_ne_none _)
  rw [run_wholeCall_full hpc hfull hfd hlt howner]
  refine ⟨hpc, hidle, rfl, fun conn hconn => ⟨_, .refused hfull hfd, ?_⟩⟩
  show s.trace ++ _ = _
  rw [hconn]
  rfl

/-- With a descriptor for the connection the call is over at once. -/
theorem shrinks_free {s : Acceptor} (hpc : s.pc = .idle) {fd : Nat} (hfree : s.freeFd = some fd)
    (hidle : s.idleFd_ ≠ none) : Shrinks s (run step s wholeCall) := by
  have hread : s.step (.handleRead false) = s.handleRead false := if_pos hpc
  -- no branch for `EMFILE`: the steps behind `handleRead` do nothing
  have hcall : ∀ s', s.handleRead false = s' → s'.pc = .idle → run step s wholeCall = s' := by
    rintro s' rfl hpc'
    show (((((s.step (.handleRead false)).proceed false).proceed false).proceed false).proceed
      false) = _
    rw [hread, proceed_idle hpc', proceed_idle hpc', proceed_idle hpc', proceed_idle hpc']
  cases hbacklog : s.backlog with
  | nil =>
    have hsame : s.handleRead false = s := by simp [Acceptor.handleRead, hfree, hbacklog]
    rw [hcall s hsame hpc]
    exact ⟨hpc, hidle, by rw [hbacklog]; rfl, by simp [hbacklog]⟩
  | cons conn backlog =>
    have hnew : s.handleRead false = { s with backlog := backlog }.newConnection conn fd := by
      simp [Acceptor.handleRead, hfree, hbacklog]
    obtain ⟨hpc', hidle'⟩ := newConnection_fields { s with backlog := backlog } conn fd
    rw [hcall _ hnew (hpc'.trans hpc)]
    have hnone : ({ s with backlog := backlog } : Acceptor).fds fd = none :=
      (freeFd_eq_some hfree).1
    rw [Acceptor.newConnection] at hpc' hidle' ⊢
    split
    · next hcallback =>
      refine ⟨hpc, hidle, by rw [hbacklog]; rfl, ?_⟩
      rw [hbacklog]
      rintro _ ⟨⟩
      exact ⟨_, .accepted hfree hcallback, rfl⟩
    · next hcallback =>
      rw [refused_at_once hnone]
      refine ⟨hpc, hidle, by rw [hbacklog]; rfl, ?_⟩
      rw [hbacklog]
      rintro _ ⟨⟩
      exact ⟨_, .declined hfree (by simpa using hcallback), List.append_assoc ..⟩

/-! ### Without a descriptor to spare -/

/-- Since `s₀` no connection was taken, nor can one be: every descriptor is in use, and `idleFd_` is
none of them. -/
structure Stuck (s₀ s : Acceptor) : Prop where
  full : s.Full
  idleFd_ : s.idleFd_ = none
  taken : s.taken = s₀.taken
  backlog : s₀.backlog <+: s.backlog

theorem Stuck.step {s₀ s : Acceptor} (h : Stuck s₀ s) {e : Event} (he : ∀ fd, e ≠ .close fd) :
    Stuck s₀ (s.step e) := by
  obtain ⟨hfull, hidle, htaken, hbacklog⟩ := h
  have hnone := freeFd_eq_none.mpr hfull
  cases e with
  | arrive => exact ⟨hfull, hidle, htaken, hbacklog.trans (List.prefix_append ..)⟩
  | handleRead interrupted =>
    rw [Acceptor.step, Acceptor.handleRead, hnone]
    split
    · split <;> exact ⟨hfull, hidle, htaken, hbacklog⟩
    · exact ⟨hfull, hidle, htaken, hbacklog⟩
  -- in every call of the branch `idleFd_` is -1 and no descriptor is free
  | proceed interrupted =>
    rw [Acceptor.step, Acceptor.proceed, hidle]
    split
    · exact ⟨hfull, hidle, htaken, hbacklog⟩
    · exact ⟨hfull, hidle, htaken, hbacklog⟩
    · have hnone' : ({ s with idleFd_ := none, pc := .refusing } : Acceptor).freeFd = none := hnone
      dsimp only
      rw [hnone']
      split <;> exact ⟨hfull, rfl, htaken, hbacklog⟩
    · exact ⟨hfull, hidle, htaken, hbacklog⟩
    · dsimp only
      rw [hnone]
      exact ⟨hfull, rfl, htaken, hbacklog⟩
  | open_ =>
    rw [Acceptor.step, hnone]
    exact ⟨hfull, hidle, htaken, hbacklog⟩
  | close fd => exact absurd rfl (he fd)

theorem stuck_run {s₀ s : Acceptor} (h : Stuck s₀ s) {es : List Event}
    (hes : ∀ fd, .close fd ∉ es) : Stuck s₀ (run step s es) := by
  have hok : Meets (fun _ e => ∀ fd, e ≠ .close fd) Acceptor.step s es :=
    meets_of_forall fun e he fd heq => hes fd (heq ▸ he)
  exact run_invariant (I := Stuck s₀) (fun _ _ h hok => h.step hok) h hok

/-- The descriptor that was given up for a connection is the other thread's then. -/
theorem stuck_disturbedCall {s : Acceptor} (howned : Owned s) (hpc : s.pc = .idle)
    (hfull : s.Full) : Stuck s (run step s disturbedCall) := by
  rcases Option.eq_none_or_eq_some s.idleFd_ with hidle | ⟨fd, hidle⟩
  · exact stuck_run ⟨hfull, hidle, rfl, List.prefix_rfl⟩ (by simp [disturbedCall])
  · have howner := howned.idle fd ((howned.spare fd).mpr ⟨hidle, by rw [hpc]; rfl⟩) (by simp [hpc])
    have hlt := howned.limit fd (by rw [howner]; exact Option.some_ne_none _)
    have hnone := freeFd_eq_none.mpr hfull
    have hfree := freeFd_setFd_none hfull hlt
    have hfull' := full_setFd_some hfull fd .other
    have hnone' := freeFd_eq_none.mpr hfull'
    have hrun : run step s disturbedCall = { s with
        idleFd_ := none
        fds := Function.update s.fds fd (some .other)
        trace := s.trace ++ [.closed fd .idle] } := by
      obtain ⟨_, _, _, _, fds, backlog, _, trace⟩ := s
      simp only [freeFd, setFd] at *
      subst hpc hidle
      simp [run, disturbedCall, step, handleRead, proceed, freeFd, setFd, close, emit, hnone, hfree,
        howner, hnone']
    rw [hrun]
    refine ⟨hfull', rfl, ?_, List.prefix_rfl⟩
    simp [taken]

/-! ### Every run -/

/-- As long as no other thread opens a descriptor in the branch for `EMFILE`, `idleFd_` is there
between two calls of `handleRead`, and a call that is not interrupted takes the first connection
that waits: it is handed over, or it is closed at once, and `idleFd_` is there again. If one does,
after `idleFd_` was closed for a connection, then no call takes a connection any more, whatever
happens, but that a descriptor is closed. -/
theorem backlog_shrinks (newConnectionCallback : Bool) (spare : Nat) (es : List Event)
    (hpc : (run step (new newConnectionCallback spare) es).pc = .idle) :
    let s := run step (new newConnectionCallback spare) es
    (Meets Undisturbed step (new newConnectionCallback spare) es →
      s.idleFd_ ≠ none ∧ Shrinks s (run step s wholeCall)) ∧
    (s.Full → ∀ later : List Event, (∀ fd, .close fd ∉ later) →
      Stuck s (run step s (disturbedCall ++ later))) := by
  intro s
  constructor
  · intro hok
    have hstart : Reserved (new newConnectionCallback spare) :=
      ⟨fun _ => Option.some_ne_none 1, by simp [new], nofun⟩
    obtain ⟨h, howned⟩ : Reserved s ∧ Owned s := run_invariant
      (I := fun s => Reserved s ∧ Owned s)
      (fun _ e h hok => ⟨h.1.step h.2 hok, h.2.step e⟩)
      ⟨hstart, owned_new newConnectionCallback spare⟩ hok
    have hidle := h.idle (.inl hpc)
    refine ⟨hidle, ?_⟩
    by_cases hfull : s.Full
    · exact shrinks_full howned hpc hfull hidle
    · obtain ⟨fd, hfree⟩ := exists_freeFd hfull
      exact shrinks_free hpc hfree hidle
  · intro hfull later hlater
    have howned : Owned s :=
      run_preserves (fun _ e h => h.step e) es (owned_new newConnectionCallback spare)
    rw [run_append]
    exact stuck_run (stuck_disturbedCall howned hpc hfull) hlater

/-- Three connections, and one descriptor besides, which the first one gets. -/
theorem backlog_shrinks_full :
    let s := run step (new true 1) [.arrive, .arrive, .arrive, .handleRead false,
      .handleRead false, .proceed false, .proceed false, .proceed false, .proceed false]
    (run step s wholeCall).backlog = [] ∧
      (run step s (disturbedCall ++ [.arrive] ++ wholeCall ++ wholeCall)).taken = [0, 1] := by
  intro s
  have h := backlog_shrinks true 1 [.arrive, .arrive, .arrive, .handleRead false,
    .handleRead false, .proceed false, .proceed false, .proceed false, .proceed false]
    (by decide +kernel)
  refine ⟨(h.1 (by decide +kernel)).2.backlog.trans (by decide +kernel), ?_⟩
  have hstuck := h.2 (by unfold Full; decide +kernel) ([.arrive] ++ wholeCall ++ wholeCall)
    (by simp [wholeCall])
  exact hstuck.taken.trans (by decide +kernel)

/-- Another thread opens a descriptor when `idleFd_` has been closed for the first connection. It
waits on, however often `handleRead` is called. -/
theorem backlog_shrinks_fails :
    ¬ ∀ es : List Event, (run step (new true 0) es).pc = .idle →
      (run step (new true 0) es).backlog = [0] → ∃ n,
        (run step (run step (new true 0) es) (List.replicate n wholeCall).flatten).backlog = [] := by
  intro hall
  have hfull : ((new true 0).step .arrive).Full := by unfold Full; decide +kernel
  have hstuck := stuck_disturbedCall ((owned_new true 0).step .arrive) rfl hfull
  obtain ⟨n, hn⟩ := hall (.arrive :: disturbedCall) (by decide +kernel) (by decide +kernel)
  rw [run_cons] at hn
  have hlater : Stuck ((new true 0).step .arrive) (run step (run step ((new true 0).step .arrive)
      disturbedCall) (List.replicate n wholeCall).flatten) :=
    stuck_run hstuck (by simp [wholeCall])
  have hwaits := hlater.backlog
  rw [hn] at hwaits
  exact absurd (List.prefix_nil.mp hwaits) (by decide)

end Acceptor

end Mymuduo
