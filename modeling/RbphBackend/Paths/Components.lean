import Mathlib.Data.List.Basic
import Mathlib.Tactic.Basic

set_option relaxedAutoImplicit false
set_option autoImplicit false

/-!
# Unix paths

A path is a string; its segments are the parts between separators. Read as a list of components,
empty segments and all `.` segments but a leading one are dropped, and a leading separator is the
root. Joining puts a relative path below another and replaces it by an absolute one.

## Main definitions

* `Paths.Component`, `Paths.segments`, `Paths.components` — the parts of a path.
* `Paths.join` — a path below another.
* `Paths.SafeSegment` — a segment that names an entry of the directory it is looked up in.

## Main results

* `Paths.components_join` — the components of a joined path.
-/

namespace Paths

/-- One component of a path. -/
inductive Component where
  | rootDir
  | curDir
  | parentDir
  | normal (name : String)
  deriving DecidableEq

/-- The parts of a path between its separators. -/
def segments (path : String) : List String := (path.toList.splitOn '/').map String.ofList

/-- The component a segment stands for, when it is not the first of the path. -/
def Component.ofSegment? (s : String) : Option Component :=
  if s = "" ∨ s = "." then none
  else if s = ".." then some .parentDir
  else some (.normal s)

/-- A path that starts at the root. -/
def IsAbsolute (path : String) : Prop := path.toList.head? = some '/'

instance (path : String) : Decidable (IsAbsolute path) :=
  inferInstanceAs (Decidable (path.toList.head? = some '/'))

/-- The component a path may have before those of its segments. -/
def leading (path : String) : List Component :=
  if IsAbsolute path then [.rootDir]
  else if (segments path).head? = some "." then [.curDir]
  else []

/-- The components of a path. -/
def components (path : String) : List Component :=
  leading path ++ (segments path).filterMap Component.ofSegment?

/-- `path` below `base`; an absolute `path` replaces it. -/
def join (base path : String) : String :=
  if IsAbsolute path then path
  else if base = "" ∨ base.toList.getLast? = some '/' then base ++ path
  else base ++ "/" ++ path

/-- A segment that is not empty, not one of the two dot names and holds no separator of any
system. -/
structure SafeSegment (s : String) : Prop where
  ne_empty : s ≠ ""
  ne_dot : s ≠ "."
  ne_dotdot : s ≠ ".."
  slash : '/' ∉ s.toList
  backslash : '\\' ∉ s.toList

/-! ## Segments -/

lemma segments_ne_nil (path : String) : segments path ≠ [] := by
  simp [segments, List.splitOn_ne_nil]

/-- A string without separators is its only segment. -/
lemma segments_eq_singleton {s : String} (h : '/' ∉ s.toList) : segments s = [s] := by
  simp [segments, List.splitOn_eq_singleton h]

/-- A separator ends a segment. -/
lemma segments_append_slash (p q : String) :
    segments (p ++ "/" ++ q) = segments p ++ segments q := by
  have h : (p ++ "/" ++ q).toList = p.toList ++ '/' :: q.toList := by simp
  simp only [segments, h, List.splitOn_append_cons_self, List.map_append]

/-- The segments of a string put together from separator-free parts are those parts. -/
lemma segments_intercalate {parts : List String} (hne : parts ≠ [])
    (h : ∀ s ∈ parts, '/' ∉ s.toList) : segments ("/".intercalate parts) = parts := by
  have hl : ("/".intercalate parts).toList = ['/'].intercalate (parts.map String.toList) := by
    rw [String.toList_intercalate]
    rfl
  rw [segments, hl, List.splitOn_intercalate '/' (by simpa using h) (by simpa using hne)]
  simp

/-- No segment holds a separator. -/
lemma slash_notMem_of_mem_segments {path s : String} (h : s ∈ segments path) :
    '/' ∉ s.toList := by
  simp only [segments, List.mem_map] at h
  obtain ⟨l, hl, rfl⟩ := h
  rw [String.toList_ofList]
  generalize path.toList = cs at hl
  induction cs generalizing l with
  | nil => simp_all
  | cons c cs ih =>
    rw [List.splitOn_cons_eq_if_modifyHead] at hl
    split at hl
    · rcases List.mem_cons.mp hl with rfl | hl
      · simp
      · exact ih l hl
    · rename_i hc
      obtain ⟨x, xs, hx⟩ := List.exists_cons_of_ne_nil (List.splitOn_ne_nil '/' cs)
      rw [hx, List.modifyHead_cons, List.mem_cons] at hl
      rcases hl with rfl | hl
      · have hx' := ih x (by simp [hx])
        have hc : c ≠ '/' := by simpa using hc
        simp [hx', Ne.symm hc]
      · exact ih l (by simp [hx, hl])

lemma mem_of_mem_segments {path s : String} {c : Char} (h : s ∈ segments path)
    (hc : c ∈ s.toList) : c ∈ path.toList := by
  obtain ⟨l, hl, rfl⟩ := List.mem_map.mp h
  rw [String.toList_ofList] at hc
  clear h
  generalize path.toList = cs at hl ⊢
  induction cs generalizing l with
  | nil =>
    rw [List.splitOn_nil, List.mem_singleton] at hl
    rw [hl] at hc
    cases hc
  | cons d cs ih =>
    rw [List.splitOn_cons_eq_if_modifyHead] at hl
    split at hl
    · rcases List.mem_cons.mp hl with rfl | hl
      · cases hc
      · exact List.mem_cons_of_mem d (ih l hc hl)
    · obtain ⟨x, xs, hx⟩ := List.exists_cons_of_ne_nil (List.splitOn_ne_nil '/' cs)
      rw [hx, List.modifyHead_cons, List.mem_cons] at hl
      rcases hl with rfl | hl
      · rcases List.mem_cons.mp hc with rfl | hc
        · exact List.mem_cons_self
        · exact List.mem_cons_of_mem d (ih x hc (by simp [hx]))
      · exact List.mem_cons_of_mem d (ih l hc (by simp [hx, hl]))

/-- A path is put together from its segments again. -/
lemma intercalate_segments (path : String) : "/".intercalate (segments path) = path := by
  have hl : ("/".intercalate (segments path)).toList =
      ['/'].intercalate ((segments path).map String.toList) := by
    rw [String.toList_intercalate]
    rfl
  have hmap : (segments path).map String.toList = path.toList.splitOn '/' := by
    rw [segments, List.map_map]
    exact (List.map_congr_left fun l _ => String.toList_ofList).trans (List.map_id _)
  rw [← String.toList_inj, hl, hmap, List.intercalate_splitOn]

lemma segments_inj {p q : String} (h : segments p = segments q) : p = q := by
  rw [← intercalate_segments p, h, intercalate_segments]

/-- A path whose segments begin another path is that path, or a directory on it. -/
lemma eq_or_prefix_of_segments {p q : String} (h : segments p <+: segments q) :
    p = q ∨ (p ++ "/").toList <+: q.toList := by
  obtain ⟨rest, hrest⟩ := h
  by_cases hne : rest = []
  · rw [hne, List.append_nil] at hrest
    exact .inl (segments_inj hrest)
  · refine .inr ?_
    have hslash : ∀ s ∈ rest, '/' ∉ s.toList := fun s hs =>
      slash_notMem_of_mem_segments (hrest ▸ List.mem_append_right _ hs)
    have heq : q = p ++ "/" ++ "/".intercalate rest := by
      refine segments_inj ?_
      rw [segments_append_slash, segments_intercalate hne hslash, hrest]
    rw [heq, String.toList_append (s := p ++ "/")]
    exact List.prefix_append _ _

/-! ## Components -/

lemma Component.ofSegment?_eq_normal {s n : String} :
    Component.ofSegment? s = some (.normal n) ↔ s = n ∧ n ≠ "" ∧ n ≠ "." ∧ n ≠ ".." := by
  unfold ofSegment?
  split_ifs with h₁ h₂
  · simp only [false_iff]
    rintro ⟨rfl, he, hd, -⟩
    exact h₁.elim he hd
  · simp only [Option.some.injEq, reduceCtorEq, false_iff]
    rintro ⟨rfl, -, -, hd⟩
    exact hd h₂
  · simp only [Option.some.injEq, Component.normal.injEq]
    rw [not_or] at h₁
    exact ⟨fun h => ⟨h, h ▸ h₁.1, h ▸ h₁.2, h ▸ h₂⟩, fun h => h.1⟩

lemma SafeSegment.ofSegment? {s : String} (h : SafeSegment s) :
    Component.ofSegment? s = some (.normal s) :=
  Component.ofSegment?_eq_normal.mpr ⟨rfl, h.ne_empty, h.ne_dot, h.ne_dotdot⟩

/-- Safe segments are the names they look like. -/
lemma filterMap_ofSegment?_of_safe {parts : List String} (h : ∀ s ∈ parts, SafeSegment s) :
    parts.filterMap Component.ofSegment? = parts.map .normal := by
  induction parts with
  | nil => rfl
  | cons s parts ih =>
    rw [List.filterMap_cons_some (h s List.mem_cons_self).ofSegment?, List.map_cons,
      ih fun s' hs' => h s' (List.mem_cons_of_mem _ hs')]

/-- The named components of a path are its segments other than the empty and the dot ones. -/
lemma normal_mem_components {path n : String} :
    .normal n ∈ components path ↔ n ∈ segments path ∧ n ≠ "" ∧ n ≠ "." ∧ n ≠ ".." := by
  have hl : Component.normal n ∉ leading path := by
    unfold leading
    split_ifs <;> simp
  simp only [components, List.mem_append, hl, false_or, List.mem_filterMap,
    Component.ofSegment?_eq_normal]
  constructor
  · rintro ⟨s, hs, rfl, h⟩
    exact ⟨hs, h⟩
  · rintro ⟨hs, h⟩
    exact ⟨n, hs, rfl, h⟩

/-! ## Joining -/

section Join

variable {base path : String}

/-- Going below a base keeps what the base begins with. -/
private lemma leading_append (hb : base ≠ "") :
    leading (base ++ "/" ++ path) = leading base := by
  have hne : base.toList ≠ [] := by simpa using hb
  have habs : IsAbsolute (base ++ "/" ++ path) ↔ IsAbsolute base := by
    rw [IsAbsolute, IsAbsolute, String.toList_append, String.toList_append, List.append_assoc,
      List.head?_append_of_ne_nil _ hne]
  have hhead : (segments (base ++ "/" ++ path)).head? = (segments base).head? := by
    rw [segments_append_slash, List.head?_append_of_ne_nil _ (segments_ne_nil base)]
  simp only [leading, habs, hhead]

private lemma components_append (hb : base ≠ "") :
    components (base ++ "/" ++ path) =
      components base ++ (segments path).filterMap Component.ofSegment? := by
  rw [components, leading_append hb, segments_append_slash, List.filterMap_append, components,
    List.append_assoc]

/-- **The components of a joined path** are those of the base followed by those of the segments
of the relative path. -/
theorem components_join (hb : base ≠ "") (hrel : ¬ IsAbsolute path) :
    components (join base path) =
      components base ++ (segments path).filterMap Component.ofSegment? := by
  unfold join
  rw [if_neg hrel]
  by_cases hlast : base.toList.getLast? = some '/'
  · rw [if_pos (.inr hlast)]
    -- the base is `front ++ "/"`, whose last segment is empty
    obtain ⟨front, hfront⟩ := List.getLast?_eq_some_iff.mp hlast
    obtain rfl : base = String.ofList front ++ "/" := by
      rw [← String.toList_inj, hfront]
      simp
    have hempty : segments "" = [""] := segments_eq_singleton (by simp)
    have hnil : (segments "").filterMap Component.ofSegment? = [] := by
      simp [hempty, Component.ofSegment?]
    have hbase : String.ofList front ++ "/" = String.ofList front ++ "/" ++ "" := by simp
    by_cases hf : String.ofList front = ""
    · have hl : ∀ q, leading ("" ++ "/" ++ q) = [.rootDir] := fun q => by
        simp [leading, IsAbsolute]
      rw [hf, components, hl, segments_append_slash, List.filterMap_append, hnil, List.nil_append]
      have hroot : components ("" ++ "/") = [.rootDir] := by
        have := hl ""
        rw [components, show ("" ++ "/" : String) = "" ++ "/" ++ "" by simp, this,
          segments_append_slash, List.filterMap_append, hnil]
        rfl
      rw [hroot]
    · rw [components_append hf]
      conv_rhs => rw [hbase, components_append hf, hnil, List.append_nil]
  · rw [if_neg (not_or.mpr ⟨hb, hlast⟩), components_append hb]

/-- The components of a path joined to the empty one. -/
lemma components_join_empty : components (join "" path) = components path := by
  unfold join
  split_ifs with h₁ h₂
  · rfl
  · simp
  · exact absurd (.inl rfl) h₂

end Join

end Paths
