import Mymuduo.Http.Confinement

/-!
# The arrays of `scanDir`

`fullname` has 100 bytes, into which `strcpy` puts the directory's path and then, behind its slash,
one name after the other; nothing compares a length with 100. `name` has 600, and `snprintf` cuts
off what does not fit, but a name of 255 bytes fits twice.

* `entryLine_eq`: the line of an entry is never cut off.
* `ScanMemory.lastByte_of_notMem`: where the names go depends on the last byte of the path, unless
  there is a NUL in it.
* `listed_iff`: the directories that are listed with every copy inside the array.
* `listed_fails`: a directory of 100 bytes, which may be a short one with repeated `./`, and an
  entry with a long name.
-/

namespace Mymuduo

open CString Lines

/-! ## Lines -/

/-- The line for an entry, with room for it or not. -/
def fullLine (isDir : Bool) (name : Bytes) : Bytes :=
  if isDir then
    ascii "<li><a href=\"" ++ name ++ ascii "/\">" ++ name ++ ascii "/</a></li>"
  else ascii "<li><a href=\"" ++ name ++ ascii "\">" ++ name ++ ascii "</a></li>"

theorem length_fullLine_le (isDir : Bool) (name : Bytes) :
    (fullLine isDir name).length ≤ 26 + 2 * name.length := by
  have hopen : (ascii "<li><a href=\"").length = 13 := by decide
  have hdir : (ascii "/\">").length = 3 ∧ (ascii "/</a></li>").length = 10 := by decide
  have hfile : (ascii "\">").length = 2 ∧ (ascii "</a></li>").length = 9 := by decide
  unfold fullLine
  split <;> simp only [List.length_append] <;> omega

/-- The array holds the line of any entry and its zero, so that nothing is cut off. -/
theorem entryLine_eq (isDir : Bool) {name : Bytes} (h : name.length ≤ 255) :
    entryLine isDir name = fullLine isDir name := by
  have hlen := length_fullLine_le isDir name
  show (fullLine isDir name).take (600 - 1) = fullLine isDir name
  exact List.take_of_length_le (by omega)

/-- The entries that are listed. -/
def listedNames (names : List Bytes) : List Bytes :=
  names.filter fun name => !(name == ascii "." || name == ascii "..")

/-- `text` has the complete line of each entry, and each fits the array for it with its zero. -/
inductive Lists : List Bytes → Bytes → Prop
  | nil : Lists [] []
  | cons {names : List Bytes} {name text : Bytes} (isDir : Bool)
    (hfits : (fullLine isDir name).length + 1 ≤ 600) (h : Lists names text) :
    Lists (name :: names) (fullLine isDir name ++ ascii "\n" ++ text)

/-! ## Copies -/

namespace ScanMemory

theorem strcpy_isSome_iff {mem : ScanMemory} {i : Nat} {s : Bytes} :
    (mem.strcpy i s).isSome ↔ i + s.length + 1 ≤ 100 := by
  unfold strcpy
  split
  · next h => exact iff_of_true rfl h
  · next h => exact iff_of_false Bool.false_ne_true h

/-- The byte that `scanDir` takes for the last one of the path: one that was not written if there
is a NUL in the path. -/
def lastByte (mem : ScanMemory) (path : Bytes) : Option UInt8 :=
  (overwrite mem.fullname 0 (c_str path ++ [0]))[path.length - 1]?

/-- Where the names go. -/
def nameStart (mem : ScanMemory) (path : Bytes) : Nat :=
  if mem.lastByte path = some SLASH then path.length else path.length + 1

/-- The path fits `fullname`, with its slash and its zero. -/
structure PathFits (mem : ScanMemory) (path : Bytes) : Prop where
  nonempty : path ≠ []
  copied : (c_str path).length < 100
  inside : path.length ≤ 100
  slash : mem.lastByte path ≠ some SLASH → path.length + 1 < 100

theorem endWithSlash_isSome_iff {mem : ScanMemory} {n : Nat} :
    (mem.endWithSlash n).isSome ↔
      0 < n ∧ n ≤ 100 ∧ (mem.fullname[n - 1]? ≠ some SLASH → n + 1 < 100) := by
  cases n with
  | zero => exact iff_of_false nofun (fun h => absurd h.1 (Nat.lt_irrefl 0))
  | succ n =>
    simp only [endWithSlash, Nat.add_sub_cancel]
    cases hb : mem.fullname[n]? with
    | none =>
      have hend := List.getElem?_eq_none_iff.mp hb
      rw [mem.length_fullname] at hend
      exact iff_of_false nofun (fun h => by omega)
    | some b =>
      obtain ⟨hin, -⟩ := List.getElem?_eq_some_iff.mp hb
      rw [mem.length_fullname] at hin
      dsimp only
      split
      · next hslash =>
        exact iff_of_true rfl ⟨by omega, by omega, fun hno => absurd (congrArg some hslash) hno⟩
      · next hslash =>
        rw [Option.isSome_map, strcpy_isSome_iff, List.length_singleton]
        have hno : some b ≠ some SLASH := fun heq => hslash (Option.some.inj heq)
        simp only [hno, ne_eq, not_false_eq_true, forall_const]
        omega

theorem fullname_strcpy {mem mem' : ScanMemory} {i : Nat} {s : Bytes}
    (h : mem.strcpy i s = some mem') : mem'.fullname = overwrite mem.fullname i (s ++ [0]) := by
  unfold strcpy at h
  split at h
  · cases h
    rfl
  · cases h

/-- The names go behind the slash. -/
theorem nameStart_eq {mem mem₁ mem₂ : ScanMemory} {path : Bytes} {n : Nat}
    (hcopy : mem.strcpy 0 (c_str path) = some mem₁)
    (hslash : mem₁.endWithSlash path.length = some (mem₂, n)) : n = mem.nameStart path := by
  have hlast : mem₁.fullname[path.length - 1]? = mem.lastByte path := by
    rw [fullname_strcpy hcopy, lastByte]
  rw [nameStart, ← hlast]
  obtain ⟨-, ⟨hthere, -, rfl⟩ | ⟨hnone, -, rfl⟩⟩ := endWithSlash_cases hslash
  · rw [if_pos hthere]
  · rw [if_neg hnone]

/-- What `scanDir` does before it opens the directory stays inside the array if the path fits. -/
theorem pathFits_iff {mem : ScanMemory} {path : Bytes} :
    ((mem.strcpy 0 (c_str path)).bind fun mem => mem.endWithSlash path.length).isSome ↔
      mem.PathFits path := by
  have hcopied : (mem.strcpy 0 (c_str path)).isSome ↔ 0 + (c_str path).length + 1 ≤ 100 :=
    strcpy_isSome_iff
  cases hcopy : mem.strcpy 0 (c_str path) with
  | none =>
    rw [hcopy] at hcopied
    refine iff_of_false nofun fun h => ?_
    have hroom := h.copied
    exact absurd (hcopied.mpr (by omega)) nofun
  | some mem₁ =>
    rw [hcopy] at hcopied
    rw [Option.bind_some, endWithSlash_isSome_iff, fullname_strcpy hcopy, List.length_pos_iff]
    have hroom := hcopied.mp rfl
    exact ⟨fun h => ⟨h.1, by omega, h.2.1, h.2.2⟩, fun h => ⟨h.nonempty, h.inside, h.slash⟩⟩

/-- Without a NUL in the path, the byte in front of the names is the last one of the path. -/
theorem lastByte_of_notMem (mem : ScanMemory) {path : Bytes} (h : (0 : UInt8) ∉ path)
    (hne : path ≠ []) : mem.lastByte path = path.getLast? := by
  have hpos := List.length_pos_iff.mpr hne
  have hwhole : c_str path = path := by
    have hcut := c_str_prefix path
    refine hcut.resolve_right ?_
    rintro ⟨t, ht⟩
    rw [ht] at h
    simp at h
  rw [lastByte, hwhole, overwrite, List.take_zero, List.nil_append, List.append_assoc,
    List.getElem?_append_left (by omega), ← List.getLast?_eq_getElem?]

end ScanMemory

/-! ## Entries -/

section

variable {fs : FileSystem} {n : Nat}

theorem listedNames_cons_of_dots {name : Bytes} (h : name = ascii "." ∨ name = ascii "..")
    (names : List Bytes) : listedNames (name :: names) = listedNames names :=
  List.filter_cons_of_neg (by simpa [or_iff_not_imp_left] using h)

theorem listedNames_cons {name : Bytes} (h : ¬ (name = ascii "." ∨ name = ascii ".."))
    (names : List Bytes) : listedNames (name :: names) = name :: listedNames names :=
  List.filter_cons_of_pos (by simpa using h)

/-- The round for an entry whose name fits: it gets its line, as a directory or as a file. -/
theorem scanEntries_cons (fs : FileSystem) {mem mem' : ScanMemory} {name : Bytes}
    (hdots : ¬ (name = ascii "." ∨ name = ascii "..")) (hcopy : mem.strcpy n name = some mem')
    (list : Bytes) (names : List Bytes) :
    ∃ isDir, (scanEntries fs n mem list (name :: names)).2 =
      (scanEntries fs n { mem' with isDir := isDir } (list ++ entryLine isDir name ++ ascii "\n")
        names).2 := by
  rw [scanEntries, if_neg hdots, hcopy]
  exact ⟨_, rfl⟩

/-- Where every name fits behind the directory's, each entry gets its line. -/
theorem lists_scanEntries {mem : ScanMemory} {list : Bytes} {names : List Bytes}
    (h : ∀ name ∈ listedNames names, n + name.length < 100) :
    ∃ text, Lists (listedNames names) text ∧
      (scanEntries fs n mem list names).2 = some (list ++ text) := by
  induction names generalizing mem list with
  | nil => exact ⟨[], .nil, by simp [scanEntries]⟩
  | cons name names ih =>
    by_cases hdots : name = ascii "." ∨ name = ascii ".."
    · rw [listedNames_cons_of_dots hdots] at h ⊢
      rw [scanEntries, if_pos hdots]
      exact ih h
    · rw [listedNames_cons hdots] at h ⊢
      have hroom := h name List.mem_cons_self
      obtain ⟨mem', hcopy⟩ := Option.isSome_iff_exists.mp
        (ScanMemory.strcpy_isSome_iff.mpr (by omega) : (mem.strcpy n name).isSome)
      obtain ⟨isDir, hround⟩ := scanEntries_cons fs hdots hcopy list names
      obtain ⟨text, htext, hrest⟩ :=
        @ih { mem' with isDir := isDir } (list ++ entryLine isDir name ++ ascii "\n")
          fun name' hname' => h name' (List.mem_cons_of_mem _ hname')
      have hfits := length_fullLine_le isDir name
      refine ⟨_, .cons isDir (by omega) htext, ?_⟩
      rw [hround, hrest, entryLine_eq isDir (by omega)]
      simp only [List.append_assoc]

/-- An array that is not left has held every name. -/
theorem fits_of_scanEntries {mem : ScanMemory} {list list' : Bytes} {names : List Bytes}
    (h : (scanEntries fs n mem list names).2 = some list') :
    ∀ name ∈ listedNames names, n + name.length < 100 := by
  induction names generalizing mem list with
  | nil => exact nofun
  | cons name names ih =>
    by_cases hdots : name = ascii "." ∨ name = ascii ".."
    · rw [listedNames_cons_of_dots hdots]
      rw [scanEntries, if_pos hdots] at h
      exact ih h
    · rw [listedNames_cons hdots]
      cases hcopy : mem.strcpy n name with
      | none => simp [scanEntries, hdots, hcopy] at h
      | some mem' =>
        have hroom := ScanMemory.strcpy_isSome_iff.mp (Option.isSome_iff_exists.mpr ⟨_, hcopy⟩)
        obtain ⟨isDir, hround⟩ := scanEntries_cons fs hdots hcopy list names
        rw [hround] at h
        exact List.forall_mem_cons.mpr ⟨by omega, ih h⟩

end

/-! ## Directories -/

/-- What `readdir(3)` hands out for the directory. -/
def entries (fs : FileSystem) (path : Bytes) : List Bytes := (fs.opendir (c_str path)).getD []

/-- No write leaves its array, and each entry has got its line. -/
def Listed (fs : FileSystem) (path list : Bytes) : Prop :=
  ∃ text, Lists (listedNames (entries fs path)) text ∧
    (scanDir fs path list).2 = some (list ++ text)

/-- The path and each name behind it fit the 100 bytes of `fullname`. -/
structure ListingFits (fs : FileSystem) (path : Bytes) : Prop where
  pathFits : fs.memory.PathFits path
  namesFit : ∀ name ∈ listedNames (entries fs path), fs.memory.nameStart path + name.length < 100

theorem listingFits_of_listed {fs : FileSystem} {path list : Bytes} (h : Listed fs path list) :
    ListingFits fs path := by
  obtain ⟨text, -, hscan⟩ := h
  unfold scanDir at hscan
  split at hscan
  · cases hscan
  · next mem n hmem =>
    have hfits := ScanMemory.pathFits_iff.mp (Option.isSome_iff_exists.mpr ⟨_, hmem⟩)
    obtain ⟨mem₁, hcopy, hslash⟩ := Option.bind_eq_some_iff.mp hmem
    refine ⟨hfits, ?_⟩
    rw [← ScanMemory.nameStart_eq hcopy hslash, entries]
    split at hscan
    · next hopen =>
      rw [hopen]
      exact nofun
    · next names hopen =>
      rw [hopen]
      exact fits_of_scanEntries hscan

theorem listed_of_listingFits {fs : FileSystem} {path : Bytes} (h : ListingFits fs path)
    (list : Bytes) : Listed fs path list := by
  obtain ⟨⟨mem, n⟩, hmem⟩ := Option.isSome_iff_exists.mp (ScanMemory.pathFits_iff.mpr h.pathFits)
  obtain ⟨mem₁, hcopy, hslash⟩ := Option.bind_eq_some_iff.mp hmem
  have hnames := h.namesFit
  rw [← ScanMemory.nameStart_eq hcopy hslash] at hnames
  unfold Listed
  simp only [scanDir, hmem]
  unfold entries at hnames ⊢
  cases hopen : fs.opendir (c_str path) with
  | none => exact ⟨[], .nil, by simp⟩
  | some names =>
    rw [hopen] at hnames
    exact lists_scanEntries hnames

/-- A directory is listed inside the arrays, with one complete line for each entry, exactly if its
path, its slash and each name fit the 100 bytes of `fullname` with their zero. -/
theorem listed_iff (fs : FileSystem) (path list : Bytes) :
    Listed fs path list ↔ ListingFits fs path :=
  ⟨listingFits_of_listed, fun h => listed_of_listingFits h list⟩

/-- A system with one directory, under every name. -/
def oneDirectory (names : List Bytes) : FileSystem where
  stat _ := some .directory
  opendir _ := some names
  open_ _ := -1
  contents _ := []
  memory := ⟨List.replicate 100 0, false, length_zeros⟩

/-- `./www` with fifty times `/.` behind it is still `./www`. -/
def dotted : Bytes := ascii "./www" ++ (List.replicate 50 (ascii "/.")).flatten

/-- The longest name there can be does not fit behind a short path, and a client makes the path of
an empty directory as long as it likes. -/
theorem listed_fails :
    (scanDir (oneDirectory [List.replicate 255 97]) (ascii "./www/") []).2 = none ∧
      (scanDir (oneDirectory []) dotted []).2 = none ∧
      ¬ ∀ (fs : FileSystem) (path list : Bytes), fs.stat (c_str path) = some .directory →
        (∀ name ∈ entries fs path, name.length ≤ 255) → Listed fs path list := by
  refine ⟨by decide +kernel, by decide +kernel, fun hall => ?_⟩
  have hlisted := hall (oneDirectory []) dotted [] rfl nofun
  exact absurd (listingFits_of_listed hlisted).pathFits.copied (by decide +kernel)

end Mymuduo
