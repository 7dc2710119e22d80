import Mathlib

/-!
# Ordered sets

A set kept in the order of a key of its elements, no two of which share a key: `std::set` with a
comparison that looks at the key only. Elements with different keys are different, and the key
alone decides what is found, erased or already there.

* `mem_insert`, `mem_eraseKey`: what is in the set after one of them.
* `mem_takeBelow`, `mem_dropBelow`: a key cuts the set in two.
* `le_of_begin`: the first element has the least key.
-/

/-- Elements in increasing order of their keys. -/
structure OrderedSet {α κ : Type*} [LinearOrder κ] (key : α → κ) where
  toList : List α
  sorted : toList.Pairwise fun a b => key a < key b

namespace OrderedSet

variable {α κ : Type*} [LinearOrder κ] {key : α → κ}

instance : Membership α (OrderedSet key) := ⟨fun s a => a ∈ s.toList⟩

theorem mem_toList {s : OrderedSet key} {a : α} : a ∈ s.toList ↔ a ∈ s := Iff.rfl

/-- The empty set. -/
def empty : OrderedSet key := ⟨[], .nil⟩

/-- The element with the key `k`. -/
def find? (s : OrderedSet key) (k : κ) : Option α := s.toList.find? fun a => key a == k

/-- The first element. -/
def begin? (s : OrderedSet key) : Option α := s.toList.head?

/-- `a` goes before the first element with a greater key; an element with its key stays. -/
def insertList (key : α → κ) (a : α) : List α → List α
  | [] => [a]
  | b :: l =>
    if key a < key b then a :: b :: l
    else if key b < key a then b :: insertList key a l
    else b :: l

theorem mem_insertList_imp {a x : α} {l : List α} (h : x ∈ insertList key a l) :
    x = a ∨ x ∈ l := by
  induction l with
  | nil => exact .inl (List.mem_singleton.mp h)
  | cons b l ih =>
    rw [insertList] at h
    split at h
    · simpa using h
    · split at h
      · rcases List.mem_cons.mp h with rfl | h
        · exact .inr List.mem_cons_self
        · exact (ih h).imp_right (List.mem_cons_of_mem b)
      · exact .inr h

theorem sorted_insertList (a : α) {l : List α} (h : l.Pairwise fun a b => key a < key b) :
    (insertList key a l).Pairwise fun a b => key a < key b := by
  induction l with
  | nil => simp [insertList]
  | cons b l ih =>
    obtain ⟨hb, hl⟩ := List.pairwise_cons.mp h
    unfold insertList
    split
    · next hab =>
      refine List.pairwise_cons.mpr ⟨?_, h⟩
      intro x hx
      rcases List.mem_cons.mp hx with rfl | hx
      · exact hab
      · exact hab.trans (hb x hx)
    · split
      · next hba =>
        refine List.pairwise_cons.mpr ⟨?_, ih hl⟩
        intro x hx
        rcases mem_insertList_imp hx with rfl | hx
        · exact hba
        · exact hb x hx
      · exact h

/-- The set with `a`, unless an element has its key already. -/
def insert (a : α) (s : OrderedSet key) : OrderedSet key :=
  ⟨insertList key a s.toList, sorted_insertList a s.sorted⟩

/-- The set without the element that has the key `k`. -/
def eraseKey (s : OrderedSet key) (k : κ) : OrderedSet key :=
  ⟨s.toList.filter fun a => key a != k, s.sorted.filter _⟩

/-- The elements with a key below `k`, in order. -/
def takeBelow (s : OrderedSet key) (k : κ) : List α := s.toList.takeWhile fun a => key a < k

/-- The set without the elements that have a key below `k`. -/
def dropBelow (s : OrderedSet key) (k : κ) : OrderedSet key :=
  ⟨s.toList.dropWhile fun a => key a < k, s.sorted.sublist (List.dropWhile_sublist _)⟩

@[simp] theorem notMem_empty (a : α) : a ∉ (empty : OrderedSet key) := List.not_mem_nil

theorem eq_of_key_eq_list {l : List α} (hl : l.Pairwise fun a b => key a < key b) {a b : α}
    (ha : a ∈ l) (hb : b ∈ l) (h : key a = key b) : a = b := by
  induction l with
  | nil => cases ha
  | cons c l ih =>
    obtain ⟨hc, hl⟩ := List.pairwise_cons.mp hl
    rcases List.mem_cons.mp ha with rfl | ha' <;> rcases List.mem_cons.mp hb with rfl | hb'
    · rfl
    · exact absurd h (hc b hb').ne
    · exact absurd h (hc a ha').ne'
    · exact ih hl ha' hb'

/-- The key tells the elements of a set apart. -/
theorem eq_of_key_eq {s : OrderedSet key} {a b : α} (ha : a ∈ s) (hb : b ∈ s)
    (h : key a = key b) : a = b :=
  eq_of_key_eq_list s.sorted ha hb h

theorem nodup_toList (s : OrderedSet key) : s.toList.Nodup := by
  refine s.sorted.imp ?_
  rintro a b hab rfl
  exact lt_irrefl _ hab

theorem find?_eq_some {s : OrderedSet key} {k : κ} {a : α} :
    s.find? k = some a ↔ a ∈ s ∧ key a = k := by
  constructor
  · intro h
    exact ⟨List.mem_of_find?_eq_some h, by simpa using List.find?_some h⟩
  · rintro ⟨ha, rfl⟩
    cases h : s.find? (key a) with
    | none => simpa using List.find?_eq_none.mp h a ha
    | some b =>
      have hb : key b = key a := by simpa using List.find?_some h
      rw [eq_of_key_eq (List.mem_of_find?_eq_some h) ha hb]

theorem find?_eq_none {s : OrderedSet key} {k : κ} : s.find? k = none ↔ ∀ a ∈ s, key a ≠ k := by
  rw [find?, List.find?_eq_none]
  simp only [beq_iff_eq]
  exact Iff.rfl

theorem mem_insertList {a x : α} {l : List α} (h : ∀ b ∈ l, key b ≠ key a) :
    x ∈ insertList key a l ↔ x = a ∨ x ∈ l := by
  refine ⟨mem_insertList_imp, ?_⟩
  intro hx
  induction l with
  | nil => simpa [insertList] using hx
  | cons b l ih =>
    unfold insertList
    split
    · simpa using hx
    · next hab =>
      have hba : key b < key a := lt_of_le_of_ne (not_lt.mp hab) (h b List.mem_cons_self)
      rw [if_pos hba]
      have hl : ∀ c ∈ l, key c ≠ key a := fun c hc => h c (List.mem_cons_of_mem b hc)
      rcases hx with rfl | hx
      · exact List.mem_cons_of_mem b (ih hl (.inl rfl))
      · rcases List.mem_cons.mp hx with rfl | hx
        · exact List.mem_cons_self
        · exact List.mem_cons_of_mem b (ih hl (.inr hx))

/-- A new key is inserted. -/
theorem mem_insert {s : OrderedSet key} {a x : α} (h : ∀ b ∈ s, key b ≠ key a) :
    x ∈ s.insert a ↔ x = a ∨ x ∈ s :=
  mem_insertList h

theorem mem_insert_imp {s : OrderedSet key} {a x : α} (h : x ∈ s.insert a) : x = a ∨ x ∈ s :=
  mem_insertList_imp h

theorem insertList_of_mem {a b : α} {l : List α} (hl : l.Pairwise fun a b => key a < key b)
    (hb : b ∈ l) (h : key b = key a) : insertList key a l = l := by
  induction l with
  | nil => cases hb
  | cons c l ih =>
    obtain ⟨hc, hl⟩ := List.pairwise_cons.mp hl
    rw [insertList]
    rcases List.mem_cons.mp hb with rfl | hb
    · simp [h]
    · have hca : key c < key a := h ▸ hc b hb
      rw [if_neg (lt_asymm hca), if_pos hca, ih hl hb]

/-- Inserting adds one key at most. -/
theorem exists_key_insert {s : OrderedSet key} {a : α} {k : κ} :
    (∃ x ∈ s.insert a, key x = k) ↔ k = key a ∨ ∃ x ∈ s, key x = k := by
  by_cases hold : ∃ b ∈ s, key b = key a
  · obtain ⟨b, hb, hkey⟩ := hold
    have hsame : s.insert a = s := by
      cases s
      simp only [insert, mk.injEq]
      exact insertList_of_mem (by assumption) hb hkey
    rw [hsame, iff_or_self]
    rintro rfl
    exact ⟨b, hb, hkey⟩
  · have hfresh : ∀ b ∈ s, key b ≠ key a := fun b hb hkey => hold ⟨b, hb, hkey⟩
    simp only [mem_insert hfresh]
    constructor
    · rintro ⟨x, rfl | hx, rfl⟩
      · exact .inl rfl
      · exact .inr ⟨x, hx, rfl⟩
    · rintro (rfl | ⟨x, hx, rfl⟩)
      · exact ⟨a, .inl rfl, rfl⟩
      · exact ⟨x, .inr hx, rfl⟩

@[simp] theorem mem_eraseKey {s : OrderedSet key} {k : κ} {x : α} :
    x ∈ s.eraseKey k ↔ x ∈ s ∧ key x ≠ k := by
  show x ∈ s.toList.filter _ ↔ _
  rw [List.mem_filter, bne_iff_ne]
  exact Iff.rfl

/-- A sorted list is cut where the keys reach `k`. -/
theorem mem_takeWhile_sorted {k : κ} {l : List α} (hl : l.Pairwise fun a b => key a < key b)
    {x : α} : x ∈ l.takeWhile (fun a => key a < k) ↔ x ∈ l ∧ key x < k := by
  induction l with
  | nil => simp
  | cons b l ih =>
    obtain ⟨hb, hl⟩ := List.pairwise_cons.mp hl
    rw [List.takeWhile_cons]
    split
    · next hbk =>
      have hlt : key b < k := by simpa using hbk
      rw [List.mem_cons, List.mem_cons, ih hl]
      constructor
      · rintro (rfl | ⟨hx, hk⟩)
        · exact ⟨.inl rfl, hlt⟩
        · exact ⟨.inr hx, hk⟩
      · rintro ⟨rfl | hx, hk⟩
        · exact .inl rfl
        · exact .inr ⟨hx, hk⟩
    · next hbk =>
      have hle : k ≤ key b := by simpa using hbk
      refine iff_of_false List.not_mem_nil ?_
      rintro ⟨hx, hk⟩
      rcases List.mem_cons.mp hx with rfl | hx
      · exact absurd hk (not_lt.mpr hle)
      · exact absurd hk (not_lt.mpr (hle.trans (hb x hx).le))

@[simp] theorem mem_takeBelow {s : OrderedSet key} {k : κ} {x : α} :
    x ∈ s.takeBelow k ↔ x ∈ s ∧ key x < k :=
  mem_takeWhile_sorted s.sorted

theorem takeBelow_append_dropBelow (s : OrderedSet key) (k : κ) :
    s.takeBelow k ++ (s.dropBelow k).toList = s.toList :=
  List.takeWhile_append_dropWhile

@[simp] theorem mem_dropBelow {s : OrderedSet key} {k : κ} {x : α} :
    x ∈ s.dropBelow k ↔ x ∈ s ∧ k ≤ key x := by
  have hsplit : x ∈ s ↔ x ∈ s.takeBelow k ∨ x ∈ s.dropBelow k := by
    rw [← mem_toList (s := s.dropBelow k), ← List.mem_append, takeBelow_append_dropBelow]
    exact Iff.rfl
  have hnodup : (s.takeBelow k ++ (s.dropBelow k).toList).Nodup := by
    rw [takeBelow_append_dropBelow]
    exact s.nodup_toList
  rw [hsplit, mem_takeBelow]
  constructor
  · intro hx
    refine ⟨.inr hx, not_lt.mp fun hk => ?_⟩
    have htake : x ∈ s.takeBelow k := mem_takeBelow.mpr ⟨hsplit.mpr (.inr hx), hk⟩
    exact (List.nodup_append.mp hnodup).2.2 x htake x hx rfl
  · rintro ⟨⟨-, hk⟩ | hx, hle⟩
    · exact absurd hk (not_lt.mpr hle)
    · exact hx

/-- The elements with a key below `k`, wherever they are. -/
theorem takeBelow_eq_filter (s : OrderedSet key) (k : κ) :
    s.takeBelow k = s.toList.filter fun a => key a < k := by
  obtain ⟨l, hl⟩ := s
  show l.takeWhile _ = l.filter _
  induction l with
  | nil => rfl
  | cons b l ih =>
    obtain ⟨hb, hl⟩ := List.pairwise_cons.mp hl
    rw [List.takeWhile_cons, List.filter_cons, ih hl]
    split
    · rfl
    · next hbk =>
      have hle : k ≤ key b := by simpa using hbk
      refine (List.filter_eq_nil_iff.mpr fun x hx => ?_).symm
      simpa using hle.trans (hb x hx).le

theorem nodup_takeBelow (s : OrderedSet key) (k : κ) : (s.takeBelow k).Nodup :=
  s.nodup_toList.sublist (List.takeWhile_sublist _)

theorem begin?_eq_none {s : OrderedSet key} : s.begin? = none ↔ ∀ a, a ∉ s := by
  rw [begin?, List.head?_eq_none_iff, List.eq_nil_iff_forall_not_mem]
  exact Iff.rfl

/-- The first element has the least key. -/
theorem le_of_begin {s : OrderedSet key} {a : α} (h : s.begin? = some a) :
    a ∈ s ∧ ∀ b ∈ s, key a ≤ key b := by
  have hs := s.sorted
  rw [begin?] at h
  change a ∈ s.toList ∧ ∀ b ∈ s.toList, key a ≤ key b
  cases hl : s.toList with
  | nil => simp [hl] at h
  | cons b l =>
    obtain rfl : b = a := by simpa [hl] using h
    rw [hl] at hs
    refine ⟨List.mem_cons_self, ?_⟩
    intro c hc
    rcases List.mem_cons.mp hc with rfl | hc
    · exact le_rfl
    · exact ((List.pairwise_cons.mp hs).1 c hc).le

end OrderedSet
