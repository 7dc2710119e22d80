import Mymuduo.Lib.CString
import Mathlib.Algebra.BigOperators.Group.List.Basic
import Mathlib.Data.List.DropRight

/-!
# Lexical resolution of paths

What a path does to the directory it starts from is some steps up and then the names it goes down
(`Net`): a monoid, in which `..` cancels the name before it. The effect of a path is the product
over its components, so that the effect of two paths one behind the other is the product of their
effects (`effect_append`), and a path is resolved lexically by its effect and by whether it starts
at the root, above which there is nothing.

`below_append_iff` says when a text put behind a path leads to that path or below it, in terms of
what the text does together with the last component of the path.
-/

namespace LexicalPath

open CString

/-! ## Steps up and names down -/

/-- So many steps up, then down along the names. -/
@[ext] structure Net (α : Type*) where
  ups : Nat
  names : List α
  deriving DecidableEq

namespace Net

variable {α : Type*}

def up : Net α := ⟨1, []⟩

def down (a : α) : Net α := ⟨0, [a]⟩

instance : One (Net α) := ⟨⟨0, []⟩⟩

/-- The steps up of the second cancel the last names of the first. -/
instance : Mul (Net α) :=
  ⟨fun m n => ⟨m.ups + (n.ups - m.names.length),
    m.names.take (m.names.length - n.ups) ++ n.names⟩⟩

@[simp] theorem one_ups : (1 : Net α).ups = 0 := rfl
@[simp] theorem one_names : (1 : Net α).names = [] := rfl

@[simp] theorem mul_ups (m n : Net α) : (m * n).ups = m.ups + (n.ups - m.names.length) := rfl

@[simp] theorem mul_names (m n : Net α) :
    (m * n).names = m.names.take (m.names.length - n.ups) ++ n.names := rfl

instance : Monoid (Net α) where
  one_mul m := by ext1 <;> simp
  mul_one m := by ext1 <;> simp
  mul_assoc m n k := by
    ext1
    · simp only [mul_ups, mul_names, List.length_append, List.length_take]
      omega
    · have hkept : min (m.names.length - n.ups) m.names.length = m.names.length - n.ups := by omega
      -- what `k` leaves of the names of `m`, and of those of `n`
      have hm : min (m.names.length - n.ups + n.names.length - k.ups) (m.names.length - n.ups) =
          m.names.length - (n.ups + (k.ups - n.names.length)) := by omega
      have hn : m.names.length - n.ups + n.names.length - k.ups - (m.names.length - n.ups) =
          n.names.length - k.ups := by omega
      simp only [mul_ups, mul_names, List.length_append, List.length_take, List.take_append,
        List.append_assoc, List.take_take, hkept, hm, hn]

end Net

/-! ## Paths -/

def slash : UInt8 := 47
def dot : Bytes := ascii "."
def dotdot : Bytes := ascii ".."

/-- What stands between the slashes, without empty components and dots. -/
def components (p : Bytes) : List Bytes :=
  (p.splitOn slash).filter fun c => c != [] && c != dot

def component (c : Bytes) : Net Bytes := if c = dotdot then .up else .down c

/-- What a path does to the directory it starts from. -/
def effect (p : Bytes) : Net Bytes := ((components p).map component).prod

/-- A path resolved: its start, and how it goes on from there. -/
@[ext] structure Resolved where
  absolute : Bool
  net : Net Bytes
  deriving DecidableEq

def isAbsolute (p : Bytes) : Bool := p.head? == some slash

/-- There is no way up from the root. -/
def resolve (p : Bytes) : Resolved where
  absolute := isAbsolute p
  net := if isAbsolute p then ⟨0, (effect p).names⟩ else effect p

/-- `p` is `w`, or lies below it. -/
def Below (w p : Resolved) : Prop :=
  p.absolute = w.absolute ∧ p.net.ups = w.net.ups ∧ w.net.names <+: p.net.names

instance (w p : Resolved) : Decidable (Below w p) :=
  inferInstanceAs (Decidable (_ ∧ _ ∧ _))

/-- Empty, or a path that ends with a slash. -/
def IsDir (d : Bytes) : Prop := d = [] ∨ ∃ d', d = d' ++ [slash]

theorem components_append {d : Bytes} (hd : IsDir d) (q : Bytes) :
    components (d ++ q) = components d ++ components q := by
  have hnil : components [] = [] := by decide
  rcases hd with rfl | ⟨d', rfl⟩
  · simp [hnil]
  · have hcons : ∀ q, components (d' ++ slash :: q) = components d' ++ components q := fun q => by
      rw [components, List.splitOn_append_cons_self, List.filter_append]
      rfl
    rw [List.append_assoc, List.singleton_append, hcons, hcons, hnil, List.append_nil]

theorem effect_append {d : Bytes} (hd : IsDir d) (q : Bytes) :
    effect (d ++ q) = effect d * effect q := by
  rw [effect, components_append hd, List.map_append, List.prod_append]
  rfl

/-! ## Staying below a directory -/

theorem absolute_append {w p : Bytes} (hw : w ≠ []) : isAbsolute (w ++ p) = isAbsolute w := by
  obtain ⟨b, w, rfl⟩ := List.exists_cons_of_ne_nil hw
  rfl

/-- The directory part of a path, up to its last slash. -/
def dirPart (w : Bytes) : Bytes := w.rdropWhile (· != slash)

/-- What stands behind the last slash. -/
def lastPart (w : Bytes) : Bytes := w.rtakeWhile (· != slash)

theorem dirPart_append_lastPart (w : Bytes) : dirPart w ++ lastPart w = w :=
  List.rdropWhile_append_rtakeWhile ..

theorem isDir_dirPart (w : Bytes) : IsDir (dirPart w) := by
  rcases eq_or_ne (dirPart w) [] with hnil | hne
  · exact .inl hnil
  · have hlast := List.rdropWhile_last_not (· != slash) w hne
    simp only [bne_iff_ne, ne_eq, Decidable.not_not] at hlast
    refine .inr ⟨(dirPart w).dropLast, ?_⟩
    rw [← hlast]
    exact (List.dropLast_append_getLast hne).symm

theorem slash_notMem_lastPart (w : Bytes) : slash ∉ lastPart w := by
  intro h
  have hne := List.mem_rtakeWhile_imp h
  simp at hne

/-- One component at most, so one step at most. -/
theorem effect_lastPart (w : Bytes) :
    effect (lastPart w) = 1 ∨ effect (lastPart w) = .up ∨ ∃ c, effect (lastPart w) = .down c := by
  have hcomponents : components (lastPart w) = [] ∨ components (lastPart w) = [lastPart w] := by
    rw [components, List.splitOn_eq_singleton (slash_notMem_lastPart w), List.filter_cons]
    split
    · exact .inr rfl
    · exact .inl rfl
  rcases hcomponents with h | h
  · exact .inl (by rw [effect, h]; rfl)
  · right
    have hone : effect (lastPart w) = component (lastPart w) := by
      rw [effect, h]
      simp
    rw [hone, component]
    split
    · exact .inl rfl
    · exact .inr ⟨_, rfl⟩

/-- A list begins with `w` if it begins as `w` does and goes on so. -/
theorem prefix_append_iff {α : Type*} {w a b : List α} (h : w.take a.length <+: a) :
    w <+: a ++ b ↔ w.drop a.length <+: b := by
  rcases Nat.le_total w.length a.length with hle | hle
  · rw [List.take_of_length_le hle] at h
    rw [List.drop_eq_nil_of_le hle]
    exact ⟨fun _ => List.nil_prefix, fun _ => h.trans (List.prefix_append a b)⟩
  · have htake : w.take a.length = a := by
      refine h.eq_of_length ?_
      rw [List.length_take, Nat.min_eq_left hle]
    calc w <+: a ++ b ↔ a ++ w.drop a.length <+: a ++ b := by
          rw [← htake, List.length_take, Nat.min_eq_left (by omega), List.take_append_drop]
      _ ↔ w.drop a.length <+: b := List.prefix_append_right_inj a

/-- After one step at most, the names are those from before as far as they go. -/
theorem take_names_prefix {b l : Net Bytes}
    (hl : l = 1 ∨ l = .up ∨ ∃ c, l = .down c) (m : Nat) (hm : m ≤ b.names.length) :
    (b * l).names.take m <+: b.names.take m := by
  rcases hl with rfl | rfl | ⟨c, rfl⟩
  · simp
  · have hnames : (b * Net.up).names = b.names.take (b.names.length - 1) := by simp [Net.up]
    rw [hnames, List.take_take]
    exact List.take_prefix_take_left (Nat.min_le_left _ _)
  · simp [Net.down, List.take_append_of_le_length, hm]

/-- `p` put behind `w` leads to `w` or below it, told by what the last component of `w` and `p` do
together: they may not go further up than `w` does, and down again they go through the names of `w`
that were left behind. -/
structure StaysBelow (w p : Bytes) : Prop where
  ups : isAbsolute w = true ∨ (effect w).ups = (effect (dirPart w)).ups +
    ((effect (lastPart w ++ p)).ups - (effect (dirPart w)).names.length)
  names : (effect w).names.drop
    ((effect (dirPart w)).names.length - (effect (lastPart w ++ p)).ups) <+:
      (effect (lastPart w ++ p)).names

/-- Going up and coming back, in terms of the effect of the components put behind. -/
theorem below_append_iff {w : Bytes} (hw : w ≠ []) (p : Bytes) :
    Below (resolve w) (resolve (w ++ p)) ↔ StaysBelow w p := by
  have hwhole : effect (w ++ p) = effect (dirPart w) * effect (lastPart w ++ p) := by
    rw [← effect_append (isDir_dirPart w), ← List.append_assoc, dirPart_append_lastPart]
  have hself : effect w = effect (dirPart w) * effect (lastPart w) := by
    rw [← effect_append (isDir_dirPart w), dirPart_append_lastPart]
  have hlen : ((effect (dirPart w)).names.take ((effect (dirPart w)).names.length -
      (effect (lastPart w ++ p)).ups)).length =
      (effect (dirPart w)).names.length - (effect (lastPart w ++ p)).ups := by
    rw [List.length_take]
    omega
  have hprefix := take_names_prefix (b := effect (dirPart w)) (effect_lastPart w)
    ((effect (dirPart w)).names.length - (effect (lastPart w ++ p)).ups) (by omega)
  rw [← hself] at hprefix
  have hnames : (effect w).names <+: (effect (w ++ p)).names ↔
      (effect w).names.drop
        ((effect (dirPart w)).names.length - (effect (lastPart w ++ p)).ups) <+:
          (effect (lastPart w ++ p)).names := by
    rw [hwhole, Net.mul_names, prefix_append_iff (by rwa [hlen]), hlen]
  have hups : (effect (w ++ p)).ups = (effect (dirPart w)).ups +
      ((effect (lastPart w ++ p)).ups - (effect (dirPart w)).names.length) := by
    rw [hwhole, Net.mul_ups]
  simp only [Below, resolve, absolute_append hw, true_and]
  cases habs : isAbsolute w with
  | true =>
    simp only [if_true, true_and, hnames]
    exact ⟨fun h => ⟨.inl habs, h⟩, fun h => h.names⟩
  | false =>
    simp only [Bool.false_eq_true, if_false, hnames, hups]
    exact ⟨fun h => ⟨.inr h.1.symm, h.2⟩,
      fun h => ⟨(h.ups.resolve_left (by simp [habs])).symm, h.names⟩⟩

theorem effect_append_slash (p : Bytes) : effect (p ++ [slash]) = effect p := by
  have hnil : components [] = [] := by decide
  have hcomponents : components (p ++ [slash]) = components p := by
    rw [components, List.splitOn_append_cons_self, List.filter_append]
    exact (congrArg (components p ++ ·) hnil).trans (List.append_nil _)
  rw [effect, hcomponents, effect]

theorem effect_name {name : Bytes} (hslash : slash ∉ name) (hnil : name ≠ []) (hdot : name ≠ dot)
    (hdotdot : name ≠ dotdot) : effect name = .down name := by
  have hcomponents : components name = [name] := by
    rw [components, List.splitOn_eq_singleton hslash]
    simp [hnil, hdot]
  rw [effect, hcomponents]
  simp [component, hdotdot]

/-- What lies in a directory below `w` lies below `w`. -/
theorem Below.child {w : Resolved} {d name : Bytes} (h : Below w (resolve d)) (hd : d ≠ [])
    (hdir : IsDir d) (hslash : slash ∉ name) (hnil : name ≠ []) (hdot : name ≠ dot)
    (hdotdot : name ≠ dotdot) : Below w (resolve (d ++ name)) := by
  obtain ⟨habs, hups, hnames⟩ := h
  have heffect : effect (d ++ name) = effect d * .down name := by
    rw [effect_append hdir, effect_name hslash hnil hdot hdotdot]
  have hfurther : (resolve (d ++ name)).net.names = (resolve d).net.names ++ [name] := by
    simp only [resolve, absolute_append hd, heffect]
    split <;> simp [Net.down]
  refine ⟨by simpa [resolve, absolute_append hd] using habs, ?_, ?_⟩
  · rw [← hups]
    simp only [resolve, absolute_append hd, heffect]
    split <;> simp [Net.down]
  · rw [hfurther]
    exact hnames.trans (List.prefix_append _ _)

theorem resolve_append_slash {p : Bytes} (hp : p ≠ []) : resolve (p ++ [slash]) = resolve p := by
  rw [resolve, resolve, absolute_append hp, effect_append_slash]

end LexicalPath
