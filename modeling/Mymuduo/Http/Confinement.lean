import Mymuduo.Http.FileServer
import Mymuduo.Lib.LexicalPath

/-!
# Which paths a request reaches

`setResponseBody` puts the path of the request behind the work path and asks the system for what it
finds there, with no look at the path (`setResponseBody_asks_path`), and for a directory also for
its entries (`below_scanDir`). `confined_iff` says for which requests all of that lies below the
work path; `not_confined_parent` is a request for which it does not.
-/

namespace Mymuduo

open CString Lines LexicalPath

/-! ## C strings -/

theorem c_str_append {s : Bytes} (h : (0 : UInt8) ∉ s) (t : Bytes) :
    c_str (s ++ t) = s ++ c_str t := by
  refine List.takeWhile_append_of_pos ?_
  intro b hb
  rw [bne_iff_ne]
  rintro rfl
  exact h hb

@[simp] theorem c_str_zero (t : Bytes) : c_str (0 :: t) = [] := rfl

theorem notMem_c_str (s : Bytes) : (0 : UInt8) ∉ c_str s := by
  intro h
  have hne := List.mem_takeWhile_imp h
  simp at hne

/-- The text up to the first NUL, and what follows. -/
theorem c_str_prefix (s : Bytes) : c_str s = s ∨ ∃ t, s = c_str s ++ 0 :: t := by
  induction s with
  | nil => exact .inl rfl
  | cons b s ih =>
    by_cases hb : b = 0
    · subst hb
      exact .inr ⟨s, rfl⟩
    · have hcons : c_str (b :: s) = b :: c_str s := List.takeWhile_cons_of_pos (by simpa using hb)
      rw [hcons]
      rcases ih with h | ⟨t, ht⟩
      · exact .inl (by rw [h])
      · exact .inr ⟨t, congrArg (b :: ·) ht⟩

/-! ## The names of the entries -/

/-- What a system answers: `readdir(3)` returns names, without slashes and NULs. -/
def FileSystem.NamesPlain (fs : FileSystem) : Prop :=
  ∀ path names, fs.opendir path = some names →
    ∀ name ∈ names, name ≠ [] ∧ (0 : UInt8) ∉ name ∧ slash ∉ name

theorem take_strcpy {mem mem' : ScanMemory} {i : Nat} {s : Bytes} (h : mem.strcpy i s = some mem') :
    ∃ rest, mem'.fullname = mem.fullname.take i ++ s ++ 0 :: rest := by
  unfold ScanMemory.strcpy at h
  split at h
  · cases h
    exact ⟨mem.fullname.drop (i + (s ++ [0]).length), by simp [overwrite]⟩
  · cases h

theorem length_take_strcpy {mem mem' : ScanMemory} {i : Nat} {s : Bytes}
    (h : mem.strcpy i s = some mem') : (mem.fullname.take i).length = i := by
  unfold ScanMemory.strcpy at h
  split at h
  · next hle =>
    rw [List.length_take, mem.length_fullname]
    omega
  · cases h

/-- The first `n` bytes of `fullname`: the directory `path` with its slash; or `path`, cut off by a
NUL, so that nothing written behind it is ever read. -/
inductive Shows (mem : ScanMemory) (n : Nat) (path : Bytes) : Prop
  | directory (d : Bytes) (hd : d = path ∨ d = path ++ [slash]) (hdir : IsDir d) (hne : d ≠ [])
    (hnul : (0 : UInt8) ∉ d) (htake : mem.fullname.take n = d)
  | cut (rest : Bytes) (hnul : (0 : UInt8) ∉ path) (htake : mem.fullname.take n = path ++ 0 :: rest)

/-- Writing behind the first `n` bytes leaves them. -/
theorem Shows.strcpy {mem mem' : ScanMemory} {n : Nat} {path name : Bytes} (h : Shows mem n path)
    (hcopy : mem.strcpy n name = some mem') : Shows mem' n path := by
  obtain ⟨rest, hrest⟩ := take_strcpy hcopy
  have hsame : mem'.fullname.take n = mem.fullname.take n := by
    have hlen := length_take_strcpy hcopy
    rw [hrest, List.append_assoc, List.take_append_of_le_length (by omega),
      List.take_of_length_le (by omega)]
  cases h with
  | directory d hd hdir hne hnul htake => exact .directory d hd hdir hne hnul (hsame.trans htake)
  | cut rest hnul htake => exact .cut rest hnul (hsame.trans htake)

/-- The name of an entry behind the directory, or the directory's own. -/
theorem Shows.fullname {mem mem' : ScanMemory} {n : Nat} {path name : Bytes} (h : Shows mem n path)
    (hcopy : mem.strcpy n name = some mem') (hname : (0 : UInt8) ∉ name) :
    c_str mem'.fullname = path ∨ ∃ d, (d = path ∨ d = path ++ [slash]) ∧ IsDir d ∧ d ≠ [] ∧
      c_str mem'.fullname = d ++ name := by
  obtain ⟨rest, hrest⟩ := take_strcpy hcopy
  cases h with
  | directory d hd hdir hne hnul htake =>
    refine .inr ⟨d, hd, hdir, hne, ?_⟩
    rw [hrest, htake, List.append_assoc, c_str_append hnul, c_str_append hname, c_str_zero,
      List.append_nil]
  | cut junk hnul htake =>
    left
    rw [hrest, htake, List.append_assoc, List.append_assoc, c_str_append hnul]
    simp

/-- Either the slash is there, or it is written behind. -/
theorem endWithSlash_cases {mem mem' : ScanMemory} {n n' : Nat}
    (h : mem.endWithSlash n = some (mem', n')) :
    0 < n ∧ (mem.fullname[n - 1]? = some SLASH ∧ mem' = mem ∧ n' = n ∨
      mem.fullname[n - 1]? ≠ some SLASH ∧ mem.strcpy n [SLASH] = some mem' ∧ n' = n + 1) := by
  unfold ScanMemory.endWithSlash at h
  split at h
  · cases h
  · split at h
    · cases h
    · next b hb =>
      refine ⟨Nat.succ_pos _, ?_⟩
      split at h
      · next hslash =>
        cases h
        exact .inl ⟨by simpa [hslash] using hb, rfl, rfl⟩
      · next hslash =>
        obtain ⟨mem₁, hcopy, heq⟩ := Option.map_eq_some_iff.mp h
        cases heq
        exact .inr ⟨by simpa [hb] using hslash, hcopy, rfl⟩

/-- A directory without a NUL in its name. -/
theorem shows_directory {mem mem' : ScanMemory} {d rest : Bytes} {n : Nat}
    (hfull : mem.fullname = d ++ 0 :: rest) (hnul : (0 : UInt8) ∉ d)
    (hslash : mem.endWithSlash d.length = some (mem', n)) : Shows mem' n d := by
  have htake : mem.fullname.take d.length = d := by rw [hfull, List.take_left]
  obtain ⟨hpos, ⟨hlast, rfl, rfl⟩ | ⟨-, hcopy, rfl⟩⟩ := endWithSlash_cases hslash
  · have hne : d ≠ [] := List.length_pos_iff.mp hpos
    have hend : d = d.dropLast ++ [slash] := by
      rw [hfull, List.getElem?_append_left (by omega), ← List.getLast?_eq_getElem?,
        List.getLast?_eq_some_getLast hne, Option.some.injEq] at hlast
      have hsplit := List.dropLast_append_getLast hne
      rw [hlast] at hsplit
      exact hsplit.symm
    exact .directory d (.inl rfl) (.inr ⟨_, hend⟩) hne hnul htake
  · obtain ⟨rest', hrest'⟩ := take_strcpy hcopy
    refine .directory (d ++ [slash]) (.inr rfl) (.inr ⟨_, rfl⟩) (by simp) ?_ ?_
    · simp only [List.mem_append, List.mem_singleton, not_or]
      exact ⟨hnul, by decide⟩
    · rw [hrest', htake]
      exact List.take_left' (by simp)

/-- A directory with a NUL in its name: what is written lies behind the NUL. -/
theorem shows_cut {mem mem' : ScanMemory} {d rest : Bytes} {m n : Nat}
    (hfull : mem.fullname = d ++ 0 :: rest) (hnul : (0 : UInt8) ∉ d) (hm : d.length < m)
    (hslash : mem.endWithSlash m = some (mem', n)) : Shows mem' n d := by
  have htake : mem.fullname.take m = d ++ 0 :: rest.take (m - d.length - 1) := by
    obtain ⟨k, rfl⟩ := Nat.exists_eq_add_of_lt hm
    rw [hfull, List.take_append, List.take_of_length_le (by omega),
      show d.length + k + 1 - d.length = k + 1 by omega, List.take_succ_cons, Nat.add_sub_cancel]
  obtain ⟨-, ⟨-, rfl, rfl⟩ | ⟨-, hcopy, rfl⟩⟩ := endWithSlash_cases hslash
  · exact .cut _ hnul htake
  · obtain ⟨rest', hrest'⟩ := take_strcpy hcopy
    have hlen := length_take_strcpy hcopy
    refine .cut (rest.take (m - d.length - 1) ++ [SLASH]) hnul ?_
    rw [hrest', List.take_left' (by simp [hlen]), htake]
    simp

/-- `scanDir` starts with the directory it was given. -/
theorem shows_start {mem mem₁ mem₂ : ScanMemory} {path : Bytes} {n : Nat}
    (hcopy : mem.strcpy 0 (c_str path) = some mem₁)
    (hslash : mem₁.endWithSlash path.length = some (mem₂, n)) : Shows mem₂ n (c_str path) := by
  obtain ⟨rest, hrest⟩ := take_strcpy hcopy
  rw [List.take_zero, List.nil_append] at hrest
  rcases c_str_prefix path with hwhole | ⟨t, ht⟩
  · rw [← congrArg List.length hwhole] at hslash
    exact shows_directory hrest (notMem_c_str path) hslash
  · have hlen : (c_str path).length < path.length := by
      have hboth := congrArg List.length ht
      rw [List.length_append, List.length_cons] at hboth
      omega
    exact shows_cut hrest (notMem_c_str path) hlen hslash

/-! ## Everything asked for -/

theorem below_scanEntries {fs : FileSystem} {w : Resolved} {path : Bytes} {n : Nat}
    (hpath : path ≠ []) (hbelow : Below w (resolve path)) {names : List Bytes}
    (hnames : ∀ name ∈ names, name ≠ [] ∧ (0 : UInt8) ∉ name ∧ slash ∉ name) {mem : ScanMemory}
    (hshows : Shows mem n path) (list : Bytes) :
    ∀ call ∈ (scanEntries fs n mem list names).1, Below w (resolve call.path) := by
  induction names generalizing mem list with
  | nil => simp [scanEntries]
  | cons name names ih =>
    obtain ⟨hne, hnul, hslash⟩ := hnames name List.mem_cons_self
    have hrest : ∀ name ∈ names, name ≠ [] ∧ (0 : UInt8) ∉ name ∧ slash ∉ name :=
      fun name' hm => hnames name' (List.mem_cons_of_mem _ hm)
    unfold scanEntries
    split
    · exact ih hrest hshows list
    · next hdots =>
      split
      · simp
      · next mem₁ hcopy =>
        intro call hcall
        -- what `stat(2)` says of an entry does not touch the name
        have hshows₁ : ∀ isDir, Shows { mem₁ with isDir := isDir } n path := fun isDir => by
          cases hshows.strcpy hcopy with
          | directory d hd hdir hne hnul htake => exact .directory d hd hdir hne hnul htake
          | cut rest hnul htake => exact .cut rest hnul htake
        rcases List.mem_cons.mp hcall with rfl | hcall
        · rw [not_or] at hdots
          rcases hshows.fullname hcopy hnul with hself | ⟨d, hd, hdir, hdne, hchild⟩
          · rwa [FsCall.path, hself]
          · have hd' : Below w (resolve d) := by
              rcases hd with rfl | rfl
              · exact hbelow
              · rwa [resolve_append_slash hpath]
            rw [FsCall.path, hchild]
            exact hd'.child hdne hdir hslash hne hdots.1 hdots.2
        · exact ih hrest (hshows₁ _) _ call hcall

theorem below_scanDir {fs : FileSystem} (hfs : fs.NamesPlain) {w : Resolved} {path : Bytes}
    (hpath : c_str path ≠ []) (hbelow : Below w (resolve (c_str path))) (list : Bytes) :
    ∀ call ∈ (scanDir fs path list).1, Below w (resolve call.path) := by
  unfold scanDir
  split
  · simp
  · next mem n hmem =>
    obtain ⟨mem₁, hcopy, hslash⟩ := Option.bind_eq_some_iff.mp hmem
    split
    · simpa [FsCall.path] using hbelow
    · next names hopen =>
      intro call hcall
      rcases List.mem_cons.mp hcall with rfl | hcall
      · exact hbelow
      · exact below_scanEntries hpath hbelow (hfs _ _ hopen) (shows_start hcopy hslash) list call
          hcall

namespace FileServer

/-- Every path that goes to the system for a request is the work path or lies below it. -/
def Confined (server : FileServer) (fs : FileSystem) (req : HttpRequest) (res : HttpResponse) :
    Prop :=
  ∀ call ∈ (server.setResponseBody fs req res).1,
    Below (resolve server.workPath_) (resolve call.path)

/-- The first question is about the path of the request, whatever it is. -/
theorem setResponseBody_asks_path (server : FileServer) (fs : FileSystem) (req : HttpRequest)
    (res : HttpResponse) :
    .stat (c_str (server.path req)) ∈ (server.setResponseBody fs req res).1 := by
  unfold setResponseBody
  dsimp only
  split <;> exact List.mem_cons_self

theorem confined_of_below {server : FileServer} {fs : FileSystem} (hfs : fs.NamesPlain)
    {req : HttpRequest} (hpath : c_str (server.path req) ≠ [])
    (hbelow : Below (resolve server.workPath_) (resolve (c_str (server.path req))))
    (res : HttpResponse) : server.Confined fs req res := by
  intro call hcall
  unfold setResponseBody at hcall
  dsimp only at hcall
  split at hcall
  · rcases List.mem_cons.mp hcall with rfl | hcall
    · exact hbelow
    · exact below_scanDir hfs hpath hbelow [] call hcall
  · rcases List.mem_cons.mp hcall with rfl | hcall
    · exact hbelow
    · rw [List.mem_singleton.mp hcall]
      exact hbelow
  · rw [List.mem_singleton.mp hcall]
    exact hbelow
  · rw [List.mem_singleton.mp hcall]
    exact hbelow

/-- A request stays below the work path exactly when its path, together with the last component of
the work path, goes up no further than that, and comes back through the names it left. -/
theorem confined_iff {server : FileServer} (hwork : server.workPath_ ≠ [])
    (hnul : (0 : UInt8) ∉ server.workPath_) {fs : FileSystem} (hfs : fs.NamesPlain)
    (req : HttpRequest) (res : HttpResponse) :
    server.Confined fs req res ↔ StaysBelow server.workPath_ (c_str req.path_) := by
  have hpath : c_str (server.path req) = server.workPath_ ++ c_str req.path_ := c_str_append hnul _
  rw [← below_append_iff hwork]
  constructor
  · intro h
    have hfirst := h _ (setResponseBody_asks_path server fs req res)
    rwa [FsCall.path, hpath] at hfirst
  · intro h
    exact confined_of_below hfs (by simp [hpath, hwork]) (by rwa [hpath]) res

/-- Up and down again inside the work path. -/
theorem confined_index :
    (FileServer.mk (ascii "./www")).Confined (.oneFile 7 (ascii "./www/index.html") [] (by decide))
      (HttpRequest.new.setPath (ascii "/a/../index.html")) (HttpResponse.new false) :=
  (confined_iff (by decide) (by decide) (fun _ _ h => by cases h) _ _).mpr ⟨by decide, by decide⟩

/-- A request that the parser accepts, and a file next to the work path. -/
theorem not_confined_parent :
    let parsed := HttpRequest.new.processRequestLine (ascii "GET /../secret HTTP/1.1")
    parsed.1 = true ∧ ¬ (FileServer.mk (ascii "./www")).Confined
      (.oneFile 7 (ascii "./www/../secret") (ascii "secret") (by decide)) parsed.2
      (HttpResponse.new false) := by
  refine ⟨by decide, ?_⟩
  intro h
  have hopen := h (.open_ (ascii "./www/../secret")) (by decide)
  exact absurd hopen (by decide)

end FileServer

end Mymuduo
