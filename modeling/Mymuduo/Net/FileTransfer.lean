import Mymuduo.Net.BesideFile

/-!
# A file transfer

A connection is given one file and no other output after it. The file is tracked by `sendFd_` and
`sendLen_`: `Going` says how far a transfer has come, `Transmitted` that it is complete. The first
attempt (`sendFileInLoop`) waits for writability when `sendfile(2)` fails for a reason that passes.
The later ones (`handleWrite`) take every failure for the end of the file and give it up; `FileOk`
is the condition under which they do not.

* `Going.advance`: one `sendfile(2)` takes the next bytes of the file.
* `transfer_step`: a step that is `FileOk` continues the transfer or ends it properly.
* `kept_step`: a step that is not abandons the file, or loses it to a failure that passes.
* `file_transfer_kept`: the runs in which the file is abandoned with the connection only.
* `file_transfer_kept_fails`: a socket that is full for a moment truncates the file.
-/

namespace Mymuduo

open CString Transition

/-- The system call may succeed when it is tried again. -/
def SysRet.isTransient : SysRet → Bool
  | .fail .EWOULDBLOCK => true
  | .fail .EINTR => true
  | _ => false

namespace TcpConnection

/-- The call of `sendFile`, in the loop thread or in another one. -/
def Event.isSendFile (fd : Int) (count : Nat) : Event → Bool
  | .sendFile fd' count' _ => fd' == fd && count' == count
  | .sendFileFromThread fd' count' => fd' == fd && count' == count
  | _ => false

/-- The connection does not track the file any more. -/
abbrev Untracked (fd : Int) (c : TcpConnection) : Prop :=
  c.sendLen_ = 0 ∨ Effect.close fd ∈ c.trace

/-- The first `k` bytes of the file given to `c` are out in `c'`, after everything that was on its
way before. -/
structure Going (c : TcpConnection) (fd : Int) (count k : Nat) (c' : TcpConnection) : Prop where
  sendFd_ : c'.sendFd_ = fd
  sendLen_ : c'.sendLen_ + k = count
  files : c'.files fd = (c.files fd).drop k
  within : k ≤ (c.files fd).length
  out : wire c'.trace ++ c'.outputBuffer_.readable =
    wire c.trace ++ c.outputBuffer_.readable ++ (c.files fd).take k
  drained : 0 < k → c'.outputBuffer_.readable = []

/-- All bytes of the file given to `c` are out in `c'`. -/
structure Transmitted (c : TcpConnection) (fd : Int) (count : Nat) (c' : TcpConnection) : Prop where
  within : count ≤ (c.files fd).length
  out : wire c'.trace ++ c'.outputBuffer_.readable =
    wire c.trace ++ c.outputBuffer_.readable ++ (c.files fd).take count
  drained : 0 < count → c'.outputBuffer_.readable = []

/-- The file is tracked until it is out or the connection is at its end. -/
def Kept (c : TcpConnection) (fd : Int) (count : Nat) (c' : TcpConnection) : Prop :=
  c'.Untracked fd → Transmitted c fd count c' ∨ c'.Ended

/-- A writability event whose system call fails for a reason that passes leaves the file and the
write interest alone. -/
def Patient (c : TcpConnection) : Event → Prop
  | .handleWrite r =>
    r.isTransient = true → (c.handleWrite r).sendFd_ = c.sendFd_ ∧
      (c.handleWrite r).sendLen_ = c.sendLen_ ∧ (c.handleWrite r).isWriting = c.isWriting
  | _ => True

/-- A writability event that finds only the file left takes something from it, unless it fails for
good after the write side was shut down. -/
def FileOk (c : TcpConnection) : Event → Prop
  | .handleWrite r =>
    c.isWriting = true → c.outputBuffer_.readable = [] →
      c.Progress r ∨ c.Shut ∧ r.isTransient = false
  | _ => True

instance (c : TcpConnection) : (e : Event) → Decidable (FileOk c e)
  | .handleWrite _ => inferInstanceAs (Decidable (_ → _ → _ ∨ _ ∧ _))
  | .connectEstablished | .send _ _ | .sendFile _ _ _ | .shutdown | .forceClose | .forceCloseInLoop
  | .sendFromThread _ | .sendFileFromThread _ _ | .shutdownFromThread | .handleRead _
  | .handleClose | .doPendingFunctor _ | .connectDestroyed => instDecidableTrue

/-! ## How far the file has come -/

theorem fileBytes_prefix_file (c : TcpConnection) (n : Nat) :
    c.fileBytes n <+: c.files c.sendFd_ :=
  (List.take_prefix ..).trans (List.take_prefix ..)

section Going

variable {c c' : TcpConnection} {fd : Int} {count k : Nat}

theorem Going.transmitted (h : Going c fd count k c') (hlen : c'.sendLen_ = 0) :
    Transmitted c fd count c' := by
  obtain rfl : k = count := by rw [← h.sendLen_, hlen, Nat.zero_add]
  exact ⟨h.within, h.out, h.drained⟩

/-- What `sendfile(2)` takes continues what it took before. -/
theorem Going.advance (h : Going c fd count k c') (hout : c'.outputBuffer_.readable = []) (n : Nat) :
    Going c fd count (k + (c'.fileBytes n).length)
      ((c'.moveFile (c'.fileBytes n)).advance (c'.fileBytes n).length) := by
  have hpre : c'.fileBytes n <+: (c.files fd).drop k := by
    rw [← h.files, ← h.sendFd_]
    exact fileBytes_prefix_file c' n
  have hle := length_fileBytes_le c' n
  have hout' := h.out
  rw [hout, List.append_nil] at hout'
  generalize c'.fileBytes n = data at hpre hle ⊢
  have hdata : data = ((c.files fd).drop k).take data.length := List.prefix_iff_eq_take.mp hpre
  have hwithin := hpre.length_le
  rw [List.length_drop] at hwithin
  refine ⟨h.sendFd_, ?_, ?_, by have := h.within; omega, ?_, fun _ => hout⟩
  · have := h.sendLen_
    simp only [advance_sendLen_, moveFile_sendLen_]
    omega
  · simp only [advance_files, moveFile_files, h.sendFd_, if_true, h.files, List.drop_drop]
  · simp only [advance_trace, moveFile_trace, advance_outputBuffer_, moveFile_outputBuffer_,
      wire_append, hout', hout, wire, List.append_nil, List.append_assoc]
    rw [List.take_add, ← hdata]

end Going

/-! ## The transfer -/

/-- What can have become of the file given to `c`. -/
inductive Transfer (c : TcpConnection) (fd : Int) (count : Nat) (c' : TcpConnection) : Prop
  | going (k : Nat) (h : Going c fd count k c') (hpos : 0 < c'.sendLen_)
    (hopen : Effect.close fd ∉ c'.trace)
  | done (hlen : c'.sendLen_ = 0) (h : Transmitted c fd count c')
  | ended (h : c'.Ended)

section Transfer

variable {c c' c'' : TcpConnection} {fd : Int} {count k : Nat}

theorem Transfer.kept (h : Transfer c fd count c') : Kept c fd count c' := by
  intro hnot
  cases h with
  | going k h hpos hopen =>
    rcases hnot with hlen | hclose
    · exact absurd hlen (Nat.pos_iff_ne_zero.mp hpos)
    · exact absurd hclose hopen
  | done hlen h => exact .inl h
  | ended h => exact .inr h

theorem Transmitted.of_out (h : Transmitted c fd count c')
    (hout : wire c''.trace ++ c''.outputBuffer_.readable =
      wire c'.trace ++ c'.outputBuffer_.readable)
    (hdrained : c'.outputBuffer_.readable = [] → c''.outputBuffer_.readable = []) :
    Transmitted c fd count c'' :=
  ⟨h.within, hout.trans h.out, fun hpos => hdrained (h.drained hpos)⟩

theorem Going.spares (h : Going c fd count k c') (hs : Spares c' c'') :
    Going c fd count k c'' :=
  ⟨hs.sendFd_.trans h.sendFd_, by rw [hs.sendLen_, h.sendLen_], by rw [hs.files, h.files],
    h.within, hs.out.trans h.out, fun hpos => hs.drained (h.drained hpos)⟩

theorem Transfer.spares (h : Transfer c fd count c') (hs : Spares c' c'')
    (hend : c'.Ended → c''.Ended) : Transfer c fd count c'' := by
  cases h with
  | going k h hpos hopen =>
    exact .going k (h.spares hs) (by rwa [hs.sendLen_]) fun hclose => hopen (hs.closes fd hclose)
  | done hlen h => exact .done (hs.sendLen_.trans hlen) (h.of_out hs.out hs.drained)
  | ended h => exact .ended (hend h)

/-- The bytes that `sendfile(2)` took are the next ones, and a file that is out is closed. -/
theorem Going.sentFromFile (h : Going c fd count k c') (hout : c'.outputBuffer_.readable = [])
    (hopen : Effect.close fd ∉ c'.trace) (n : Nat) :
    Transfer c fd count (c'.sentFromFile (c'.fileBytes n)) := by
  have hgoing := h.advance hout n
  unfold TcpConnection.sentFromFile
  dsimp only
  split
  · next hlen =>
    exact .done hlen ((hgoing.transmitted hlen).of_out (by simp [wire]) id)
  · next hlen => exact .going _ hgoing (Nat.pos_iff_ne_zero.mpr hlen) (by simpa using hopen)

/-- The first attempt sends what it can of the file and waits for the rest. -/
theorem Transfer.sendFileInLoop (h : Transfer c fd count c') (r : SysRet) :
    Transfer c fd count (c'.sendFileInLoop r) := by
  have hend := (outputs_sendFileInLoop c' r).ended
  have hcases := sendFileInLoop_cases c' r
  generalize c'.sendFileInLoop r = c'' at hend hcases ⊢
  cases hcases with
  | disconnected => exact h
  | busy | failed => exact h.spares (spares_watchFile c' _) hend
  | sent hs hidle n hr hfd =>
    have hwatch := (watchFile_spec (c'.sentFromFile (c'.fileBytes n)) false).outputs.ended
    cases h with
    | going k h hpos hopen =>
      exact (h.sentFromFile hidle.2 hopen n).spares (spares_watchFile _ false) hwatch
    | done hlen h =>
      -- nothing is left of the file, and nothing is taken from it
      have hnil : c'.fileBytes n = [] := by simp [fileBytes, hlen]
      have hdone : Transfer c fd count (c'.sentFromFile (c'.fileBytes n)) := by
        rw [hnil]
        unfold TcpConnection.sentFromFile
        dsimp only
        split
        · exact .done (by simp [hlen]) (h.of_out (by simp [wire]) id)
        · exact .done (by simp [hlen]) (h.of_out (by simp [wire]) id)
      exact hdone.spares (spares_watchFile _ false) hwatch
    | ended h => exact .ended (hend h)

/-- A later attempt that takes something. -/
theorem Going.writeFile (h : Going c fd count k c') (hout : c'.outputBuffer_.readable = [])
    (hopen : Effect.close fd ∉ c'.trace) {r : SysRet} (hp : c'.Progress r) :
    Transfer c fd count (c'.writeFile r) := by
  have hcases := writeFile_cases c' r
  generalize c'.writeFile r = c'' at hcases ⊢
  cases hcases with
  | failed hr => exact absurd hp (not_progress_of_failed hr)
  | ended n hr hfd hnone =>
    subst hr
    exact absurd hnone hp.2
  | part n hr hfd hmore hsome =>
    exact .going _ (h.advance hout n) (Nat.sub_pos_of_lt hmore) (by simpa using hopen)
  | finished n hr hfd hall hsome =>
    have hlen : ((c'.moveFile (c'.fileBytes n)).advance (c'.fileBytes n).length).sendLen_ = 0 := by
      simp [hall]
    have hdone := (h.advance hout n).transmitted hlen
    rw [finishShutdown_eq (by simp)]
    refine .done rfl (hdone.of_out ?_ id)
    simp [wire_dueShutdown, wire]

/-- A file that is given up is neither out nor tracked. -/
theorem Going.giveUp (h : Going c fd count k c') (hpos : 0 < c'.sendLen_)
    (hend : ¬ c'.Ended) {r : SysRet} (hno : ¬ c'.Progress r) : ¬ Kept c fd count (c'.writeFile r) := by
  have hlost : ∀ c'' : TcpConnection, c''.sendLen_ = 0 → c''.state_ = c'.state_ →
      c''.outputBuffer_ = c'.outputBuffer_ → wire c''.trace = wire c'.trace →
      (c''.Shut ↔ c'.Shut) → ¬ Kept c fd count c'' := by
    intro c'' hlen hs hbuf hwire hshut hkept
    rcases hkept (.inl hlen) with hall | hdown | hshut'
    · have hsame := hall.out
      rw [hwire, hbuf, h.out] at hsame
      have htake := congrArg List.length (List.append_cancel_left hsame)
      rw [List.length_take, List.length_take] at htake
      have := h.sendLen_
      have := hall.within
      omega
    · exact hend (.inl (hs.symm.trans hdown))
    · exact hend (.inr (hshut.mp hshut'))
  have hcases := writeFile_cases c' r
  generalize c'.writeFile r = c'' at hcases ⊢
  cases hcases with
  | failed hr =>
    exact hlost _ rfl rfl rfl (by simp [abandonFile, wire])
      (shut_quiet [.close c'.sendFd_] rfl (by simp))
  | ended n hr hfd hnone =>
    exact hlost _ rfl rfl rfl (by simp [abandonFile, wire])
      (shut_quiet [.put [], .close c'.sendFd_] (by simp [abandonFile]) (by simp))
  | part n hr hfd hmore hsome | finished n hr hfd hall hsome =>
    subst hr
    exact absurd ⟨hfd, hsome⟩ hno

end Transfer

/-! ## Steps after the call -/

/-- The event makes the connection send from the file. -/
def AtFile (c : TcpConnection) (e : Event) : Prop :=
  ∃ r, e = .handleWrite r ∧ c.isWriting = true ∧ c.outputBuffer_.readable = []

theorem handleWrite_file {c : TcpConnection} (hw : c.isWriting = true)
    (hout : c.outputBuffer_.readable = []) (r : SysRet) : c.handleWrite r = c.writeFile r := by
  rw [handleWrite, if_pos hw, if_neg fun hne => hne (Buffer.readableBytes_eq_zero.mpr hout)]

section Steps

variable {c c' : TcpConnection} {fd : Int} {count : Nat} {e : Event}

/-- Away from the file the transfer goes on as it is. -/
theorem Transfer.step_of_not_atFile (h : Transfer c fd count c') (hm : c'.NoMessage)
    (he : e.isSilent = true) (hno : ¬ c'.AtFile e) : Transfer c fd count (c'.step e) := by
  have hest : e ≠ .connectEstablished := by
    rintro rfl
    cases he
  have hwrite : ∀ r, e = .handleWrite r → c'.isWriting = true →
      c'.outputBuffer_.readable ≠ [] := fun r heq hw hout => hno ⟨r, heq, hw, hout⟩
  by_cases hfile : ∃ r, e = .doPendingFunctor r ∧ c'.pendingFunctors_.head? = some .sendFileInLoop
  · obtain ⟨r, rfl, hhead⟩ := hfile
    obtain ⟨fs, hq⟩ := List.head?_eq_some_iff.mp hhead
    have hpop : Transfer c fd count { c' with pendingFunctors_ := fs } :=
      h.spares (.of_quiet rfl rfl rfl rfl [] (by simp) rfl (by simp)) id
    simp only [step, hq]
    exact hpop.sendFileInLoop r
  · refine h.spares (spares_step he hwrite fun r f heq hhead => ?_) fun hend => ended_step hend hest
    cases f with
    | sendFileInLoop => exact absurd ⟨r, heq, hhead⟩ hfile
    | sendInLoop message => exact absurd (List.mem_of_mem_head? hhead) (hm message)
    | _ => rfl

theorem patient_of_not_atFile (hno : ¬ c'.AtFile e) : Patient c' e := by
  cases e with
  | handleWrite r =>
    intro htransient
    cases r with
    | ok n => cases htransient
    | fail err =>
      unfold handleWrite
      split
      · next hw =>
        rw [if_pos fun h => hno ⟨_, rfl, hw, Buffer.readableBytes_eq_zero.mp h⟩]
        exact ⟨rfl, rfl, rfl⟩
      · exact ⟨rfl, rfl, rfl⟩
  | _ => trivial

theorem fileOk_of_not_atFile (hno : ¬ c'.AtFile e) : FileOk c' e := by
  cases e with
  | handleWrite r => exact fun hw hout => absurd ⟨r, rfl, hw, hout⟩ hno
  | _ => trivial

theorem not_transient_of_progress {r : SysRet} (hp : c'.Progress r) : r.isTransient = false := by
  cases r with
  | ok n => rfl
  | fail err => cases hp

/-- At the file, a failure that passes is taken for one that does not. -/
theorem patient_iff_atFile (hw : c'.isWriting = true) (hout : c'.outputBuffer_.readable = [])
    (r : SysRet) : Patient c' (.handleWrite r) ↔ r.isTransient = false := by
  constructor
  · intro hpatient
    by_contra htransient
    have htransient' : r.isTransient = true := by simpa using htransient
    have hkept := (hpatient htransient').2.2
    have hoff := isWriting_giveUp hout (r := r) fun hp => htransient (not_transient_of_progress hp)
    rw [hw, hoff] at hkept
    cases hkept
  · intro hno htransient
    rw [hno] at htransient
    cases htransient

/-- A step that is `FileOk` continues the transfer or ends it properly. -/
theorem transfer_step (h : Transfer c fd count c') (hwatch : c'.WatchesOutput)
    (hm : c'.NoMessage) (he : e.isSilent = true) (hok : FileOk c' e) :
    Transfer c fd count (c'.step e) := by
  by_cases hat : c'.AtFile e
  · obtain ⟨r, rfl, hw, hout⟩ := hat
    have hend := (outputs_handleWrite c' r).ended
    rw [step]
    cases h with
    | going k h hpos hopen =>
      rcases hok hw hout with hp | ⟨hshut, -⟩
      · rw [handleWrite_file hw hout]
        exact h.writeFile hout hopen hp
      · exact .ended (hend (.inr hshut))
    | done hlen h => exact absurd hlen (Nat.pos_iff_ne_zero.mp ((hwatch hw).2.resolve_left
        (not_not.mpr hout)))
    | ended h => exact .ended (hend h)
  · exact h.step_of_not_atFile hm he hat

/-- Any other step abandons the file, or loses it to a failure that passes. -/
theorem kept_step (h : Transfer c fd count c') (hwatch : c'.WatchesOutput) (hm : c'.NoMessage)
    (he : e.isSilent = true) : Kept c fd count (c'.step e) ∧ Patient c' e ↔ FileOk c' e := by
  by_cases hat : c'.AtFile e
  · obtain ⟨r, rfl, hw, hout⟩ := hat
    obtain ⟨hup, houtput⟩ := hwatch hw
    rw [patient_iff_atFile hw hout]
    constructor
    · rintro ⟨hkept, hpermanent⟩ _ _
      by_cases hp : c'.Progress r
      · exact .inl hp
      · refine .inr ⟨?_, hpermanent⟩
        by_contra hshut
        have hend : ¬ c'.Ended := not_or.mpr ⟨hup, hshut⟩
        rw [step, handleWrite_file hw hout] at hkept
        cases h with
        | going k h hpos hopen => exact h.giveUp hpos hend hp hkept
        | done hlen h =>
          exact absurd hlen (Nat.pos_iff_ne_zero.mp (houtput.resolve_left (not_not.mpr hout)))
        | ended h => exact hend h
    · intro hok
      refine ⟨(transfer_step h hwatch hm he hok).kept, ?_⟩
      rcases hok hw hout with hp | ⟨-, hpermanent⟩
      · exact not_transient_of_progress hp
      · exact hpermanent
  · exact iff_of_true ⟨(h.step_of_not_atFile hm he hat).kept, patient_of_not_atFile hat⟩
      (fileOk_of_not_atFile hat)

/-- The call itself. -/
theorem transfer_call (h : c.Fileless) (hs : c.state_ = .kConnected)
    (hcall : e.isSendFile fd count = true) :
    Transfer c fd count (c.step e) ∧ (c.step e).WatchesOutput := by
  have hstart : Going c fd count 0 (c.setFile fd count) :=
    ⟨rfl, by simp, by simp, Nat.zero_le _, by simp, fun h0 => absurd h0 (Nat.lt_irrefl 0)⟩
  have hload : Transfer c fd count (c.setFile fd count) := by
    rcases Nat.eq_zero_or_pos count with rfl | hpos
    · exact .done rfl (hstart.transmitted rfl)
    · exact .going 0 hstart hpos (h.never fd)
  have hwatch : (c.setFile fd count).WatchesOutput := fun hon =>
    ⟨by simp [hs], .inl ((h.watches hon).2.resolve_right (by simp [h.noFile]))⟩
  cases e with
  | sendFile fd' count' r =>
    obtain ⟨rfl, rfl⟩ : fd' = fd ∧ count' = count := by simpa [Event.isSendFile] using hcall
    rw [step, sendFile, if_pos hs]
    exact ⟨hload.sendFileInLoop r, hwatch.sendFileInLoop r⟩
  | sendFileFromThread fd' count' =>
    obtain ⟨rfl, rfl⟩ : fd' = fd ∧ count' = count := by simpa [Event.isSendFile] using hcall
    rw [step, sendFileFromThread, if_pos hs]
    exact ⟨hload.spares (.of_quiet rfl rfl rfl rfl [] (by simp) rfl (by simp)) id,
      hwatch.frame id rfl rfl rfl⟩
  | _ => cases hcall

end Steps

/-! ## Whole runs -/

/-- The only file given to a connection, after its last message: in every state from then on it is
tracked, out, or the connection is at its end, and no failure that passes changes what is tracked,
if and only if every writability event that finds only the file left takes something from it (or
fails for good after the write side was shut down). -/
theorem file_transfer_kept (highWaterMark : Nat) (hcb wcb : Bool) (files : Int → Bytes)
    (before after : List Event) (call : Event) (fd : Int) (count : Nat)
    (hbefore : ∀ e ∈ before, e.isFileless = true) (hcall : call.isSendFile fd count = true)
    (hafter : ∀ e ∈ after, e.isSilent = true) :
    let c := run step (established highWaterMark hcb wcb files) before
    c.state_ = .kConnected → c.NoMessage →
      ((∀ pre, pre <+: after → Kept c fd count (run step (c.step call) pre)) ∧
          Meets Patient step (c.step call) after ↔
        Meets FileOk step (c.step call) after) := by
  intro c hs hm
  have hmeets : Meets (fun _ e => Event.isFileless e = true) step
      (established highWaterMark hcb wcb files) before := meets_of_forall hbefore
  have hfileless : c.Fileless :=
    run_invariant (I := Fileless) (fun _ _ h he => h.step he)
      (fileless_established highWaterMark hcb wcb files) hmeets
  have hnomessage : (c.step call).NoMessage := noMessage_step hm fun message heq => by
    subst heq
    cases hcall
  obtain ⟨htransfer, hwatch⟩ := transfer_call hfileless hs hcall
  rw [forall_prefix_iff, and_iff_right htransfer.kept, ← meets_and]
  have hkeep : ∀ (c' : TcpConnection) (e : Event),
      Transfer c fd count c' ∧ c'.WatchesOutput ∧ c'.NoMessage → e.isSilent = true →
      FileOk c' e →
      Transfer c fd count (c'.step e) ∧ (c'.step e).WatchesOutput ∧ (c'.step e).NoMessage := by
    rintro c' e ⟨h, hw, hm'⟩ he hok
    have hquiet : e.isFileless = true := by
      cases e with
      | _ => first | rfl | cases he
    refine ⟨transfer_step h hw hm' he hok, hw.step hquiet, noMessage_step hm' ?_⟩
    rintro message rfl
    cases he
  have hstep : ∀ (c' : TcpConnection) (e : Event),
      Transfer c fd count c' ∧ c'.WatchesOutput ∧ c'.NoMessage → e.isSilent = true →
      (Kept c fd count (c'.step e) ∧ Patient c' e ↔ FileOk c' e) :=
    fun c' e h he => kept_step h.1 h.2.1 h.2.2 he
  exact meets_iff hstep hkeep ⟨htransfer, hwatch, hnomessage⟩ hafter

/-- A page after a message that is still buffered, taken piece by piece. -/
theorem file_transfer_kept_page :
    let c := run step (established 64 true true fun _ => ascii "page")
      [.send (ascii "head") (.ok 1)]
    let after : List Event := [.handleWrite (.fail .EINTR), .handleWrite (.ok 3), .shutdown,
      .handleWrite (.ok 3), .handleWrite (.ok 1)]
    (∀ pre, pre <+: after → Kept c 5 4 (run step (c.step (.sendFile 5 4 (.ok 0))) pre)) ∧
      Meets Patient step (c.step (.sendFile 5 4 (.ok 0))) after := by
  intro c after
  have hq : c.pendingFunctors_ = [] := by decide +kernel
  have hm : c.NoMessage := by
    intro message hf
    rw [hq] at hf
    cases hf
  exact (file_transfer_kept 64 true true (fun _ => ascii "page") [.send (ascii "head") (.ok 1)]
    after (.sendFile 5 4 (.ok 0)) 5 4 (by decide) (by decide) (by decide) (by decide +kernel)
    hm).mpr (by decide +kernel)

/-- The socket is full when the loop comes back to a page of four bytes of which one is out: the
rest is dropped, and the connection is neither closed nor shut down. -/
theorem file_transfer_kept_fails :
    let start := established 64 true true fun _ => ascii "page"
    let call : Event := .sendFile 5 4 (.ok 1)
    let c := run step (start.step call) [.handleWrite (.fail .EWOULDBLOCK)]
    ¬ Kept start 5 4 c ∧ ¬ Patient (start.step call) (.handleWrite (.fail .EWOULDBLOCK)) ∧
      ¬ (∀ after : List Event, (∀ e ∈ after, e.isSilent = true) →
          Kept start 5 4 (run step (start.step call) after)) := by
  intro start call c
  have hlost : ¬ Kept start 5 4 c := by
    intro hkept
    rcases hkept (.inl (by decide +kernel)) with hall | hend
    · exact absurd hall.out (by decide +kernel)
    · exact absurd hend (by decide +kernel)
  refine ⟨hlost, fun hpatient => ?_, fun hall => hlost (hall _ (by decide))⟩
  exact absurd (hpatient rfl).2.1 (by decide +kernel)

end TcpConnection

end Mymuduo
