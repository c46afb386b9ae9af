import Mathlib.Data.List.DropRight
import Mathlib.Data.List.Infix

/-!
# Paths

A path is a list of letters with a separator between its components. Two notions of it are
related here to the text: a text with a separator in it stands in a path where two components
follow each other, and the last component ends as the path does. `lexical` reads a path from
the root on: an empty component and a dot stay where they are, two dots go back one step.
-/
namespace SyscallVector.Lib

set_option autoImplicit false

universe u
variable {α : Type u} [DecidableEq α] (sep dot : α)

/-- What stands between the separators; a leading separator has an empty component before it. -/
def components : List α → List (List α)
  | [] => [[]]
  | c :: path =>
    if c = sep then [] :: components path else (components path).modifyHead fun d => c :: d

/-- What stands behind the last separator. -/
def lastComponent (path : List α) : List α := path.rtakeWhile fun c => c ≠ sep

/-- One component, seen from the directory at the head of the list. -/
def enter (dirs : List (List α)) (component : List α) : List (List α) :=
  if component = [] ∨ component = [dot] then dirs
  else if component = [dot, dot] then dirs.tail
  else component :: dirs

/-- The names from the root to what the path denotes, if no name on the way is a link. -/
def lexical (path : List α) : List (List α) :=
  ((components sep path).foldl (enter dot) []).reverse

variable {sep dot} {a b path : List α}

theorem components_cons_sep (path : List α) :
    components sep (sep :: path) = [] :: components sep path := if_pos rfl

theorem components_cons {c : α} (h : c ≠ sep) (path : List α) :
    components sep (c :: path) = (components sep path).modifyHead fun d => c :: d := if_neg h

theorem exists_components (sep : α) (path : List α) :
    ∃ c rest, components sep path = c :: rest := by
  induction path with
  | nil => exact ⟨[], [], rfl⟩
  | cons x path ih =>
    obtain ⟨c, rest, hpath⟩ := ih
    by_cases hx : x = sep
    · exact ⟨[], components sep path, if_pos hx⟩
    · refine ⟨x :: c, rest, ?_⟩
      rw [components_cons hx, hpath]
      rfl

/-! ## Text in a path -/

/-- A text without separators begins a path where it begins the first component. -/
theorem prefix_iff_components (hb : sep ∉ b) :
    b <+: path ↔ ∃ c rest, components sep path = c :: rest ∧ b <+: c := by
  induction path generalizing b with
  | nil =>
    rw [List.prefix_nil]
    constructor
    · rintro rfl
      exact ⟨[], [], rfl, List.nil_prefix⟩
    · rintro ⟨c, rest, hpath, hprefix⟩
      cases hpath
      exact List.prefix_nil.mp hprefix
  | cons x path ih =>
    obtain ⟨c, rest, hpath⟩ := exists_components sep path
    cases b with
    | nil =>
      obtain ⟨d, rest', hcons⟩ := exists_components sep (x :: path)
      exact iff_of_true List.nil_prefix ⟨d, rest', hcons, List.nil_prefix⟩
    | cons y b =>
      obtain ⟨hy, hb⟩ := List.ne_and_not_mem_of_not_mem_cons hb
      rw [List.cons_prefix_cons, ih hb, hpath]
      by_cases hx : x = sep
      · rw [hx, components_cons_sep]
        refine iff_of_false (fun h => hy h.1.symm) ?_
        rintro ⟨d, rest', hcons, hprefix⟩
        cases hcons
        exact absurd (List.prefix_nil.mp hprefix) (List.cons_ne_nil y b)
      · rw [components_cons hx, hpath]
        simp [List.cons_prefix_cons]

/-- A text with one separator begins a path where what is before the separator is the first
component and what is behind it begins the second. -/
theorem prefix_sep_iff_components (ha : sep ∉ a) (hb : sep ∉ b) :
    a ++ sep :: b <+: path ↔ ∃ c rest, components sep path = a :: c :: rest ∧ b <+: c := by
  induction a generalizing path with
  | nil =>
    cases path with
    | nil => simp [components]
    | cons x path =>
      rw [List.nil_append, List.cons_prefix_cons, prefix_iff_components hb]
      by_cases hx : x = sep
      · rw [hx, components_cons_sep]
        simp
      · obtain ⟨c, rest, hpath⟩ := exists_components sep path
        rw [components_cons hx, hpath]
        simp [Ne.symm hx]
  | cons y a ih =>
    obtain ⟨hy, ha⟩ := List.ne_and_not_mem_of_not_mem_cons ha
    cases path with
    | nil => simp [components]
    | cons x path =>
      rw [List.cons_append, List.cons_prefix_cons, ih ha]
      by_cases hx : x = sep
      · rw [hx, components_cons_sep]
        simp [Ne.symm hy]
      · obtain ⟨c, rest, hpath⟩ := exists_components sep path
        rw [components_cons hx, hpath]
        simp [eq_comm, and_assoc]

/-- Such a text with a separator before it stands anywhere in a path where two components
behind the first one do. -/
theorem infix_iff_components (ha : sep ∉ a) (hb : sep ∉ b) :
    sep :: (a ++ sep :: b) <:+: path ↔
      ∃ c, b <+: c ∧ [a, c] <:+: (components sep path).tail := by
  induction path with
  | nil => simp [components]
  | cons x path ih =>
    obtain ⟨d, rest, hpath⟩ := exists_components sep path
    rw [List.infix_cons_iff, ih, List.cons_prefix_cons]
    by_cases hx : x = sep
    · rw [hx, components_cons_sep, List.tail_cons, and_iff_right rfl,
        prefix_sep_iff_components ha hb, hpath, List.tail_cons]
      constructor
      · rintro (⟨c, rest', hcons, hprefix⟩ | ⟨c, hprefix, hlater⟩)
        · rw [hcons]
          exact ⟨c, hprefix, List.IsPrefix.isInfix ⟨rest', rfl⟩⟩
        · exact ⟨c, hprefix, hlater.trans (List.suffix_cons d rest).isInfix⟩
      · rintro ⟨c, hprefix, hinfix⟩
        rcases List.infix_cons_iff.mp hinfix with ⟨rest', hhere⟩ | hlater
        · exact .inl ⟨c, rest', hhere.symm, hprefix⟩
        · exact .inr ⟨c, hprefix, hlater⟩
    · have hprefix : ¬(sep = x ∧ a ++ sep :: b <+: path) := fun h => hx h.1.symm
      rw [or_iff_right hprefix, components_cons hx, hpath]
      rfl

/-! ## The end of a path -/

/-- A text without separators ends a path where it ends the last component. -/
theorem suffix_lastComponent_iff (hb : sep ∉ b) :
    b <:+ lastComponent sep path ↔ b <:+ path := by
  refine ⟨fun h => h.trans (List.rtakeWhile_suffix _ _), ?_⟩
  rintro ⟨front, rfl⟩
  have hall : ∀ c ∈ b.reverse, decide (c ≠ sep) = true := by
    intro c hc
    have hne : c ≠ sep := fun h => hb (h ▸ List.mem_reverse.mp hc)
    exact decide_eq_true hne
  rw [lastComponent, List.rtakeWhile, List.reverse_append, List.takeWhile_append_of_pos hall,
    List.reverse_append, List.reverse_reverse]
  exact List.suffix_append _ _

/-! ## Plain spelling -/

/-- Names that are all plain are read as they stand. -/
theorem foldl_enter {names : List (List α)}
    (h : ∀ name ∈ names, name ≠ [] ∧ name ≠ [dot] ∧ name ≠ [dot, dot]) (dirs : List (List α)) :
    names.foldl (enter dot) dirs = names.reverse ++ dirs := by
  induction names generalizing dirs with
  | nil => rfl
  | cons name names ih =>
    obtain ⟨⟨hempty, hdot, hdots⟩, hrest⟩ := List.forall_mem_cons.mp h
    rw [List.foldl_cons, ih hrest, enter, if_neg (not_or.mpr ⟨hempty, hdot⟩), if_neg hdots,
      List.reverse_cons, List.append_assoc, List.singleton_append]

end SyscallVector.Lib
