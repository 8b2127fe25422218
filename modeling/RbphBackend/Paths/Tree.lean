import Mathlib.Data.List.Infix
import Mathlib.Logic.Function.Basic
import Mathlib.Tactic.Basic

set_option relaxedAutoImplicit false
set_option autoImplicit false

/-!
# Trees of files

A tree says what stands at each list of names below a directory. A file is written after the
directories above it have been made, which fails where one of them is a file already, or where a
directory stands in its place.

## Main definitions

* `Paths.Tree` — the directories and files.
* `Paths.Tree.writeAll` — files are written one after another.
* `Paths.Clear` — no path is another one or leads through it.

## Main results

* `Paths.exists_writeAll` — files at clear paths can be written, and nothing else is made.
-/

namespace Paths

universe u v

variable {ν : Type u} {γ : Type v}

inductive Node (γ : Type v) where
  | dir
  | file (content : γ)
  deriving DecidableEq

/-- What stands at each list of names. -/
abbrev Tree (ν : Type u) (γ : Type v) := List ν → Option (Node γ)

namespace Tree

variable [DecidableEq ν]

/-- A directory with nothing in it. -/
def empty : Tree ν γ := fun path => if path = [] then some .dir else none

/-- Make a directory, and those above it that are missing. -/
def createDirAll (t : Tree ν γ) (path : List ν) : Option (Tree ν γ) :=
  if path.inits.all fun above => match t above with
    | some (.file _) => false
    | _ => true
  then some fun p => if p <+: path then some .dir else t p
  else none

/-- Write a file into a directory. -/
def create (t : Tree ν γ) (path : List ν) (content : γ) : Option (Tree ν γ) :=
  match t path.dropLast, t path with
  | some .dir, some .dir => none
  | some .dir, _ => some (Function.update t path (some (.file content)))
  | _, _ => none

/-- Write a file, and make the directories above it. -/
def write (t : Tree ν γ) (file : List ν × γ) : Option (Tree ν γ) := do
  (← t.createDirAll file.1.dropLast).create file.1 file.2

/-- Write files one after another. -/
def writeAll (t : Tree ν γ) (files : List (List ν × γ)) : Option (Tree ν γ) := files.foldlM write t

end Tree

/-- Two paths neither of which is the other or leads through it. -/
def Clear (p q : List ν) : Prop := ¬ p <+: q ∧ ¬ q <+: p

/-- The tree has these files, the directories above them, and nothing else. -/
structure Tree.Holds (t : Tree ν γ) (files : List (List ν × γ)) : Prop where
  file : ∀ p c, t p = some (.file c) ↔ (p, c) ∈ files
  dir : ∀ p, t p = some .dir ↔ p = [] ∨ ∃ f ∈ files, p <+: f.1 ∧ p ≠ f.1

section Write

variable [DecidableEq ν] {t : Tree ν γ} {files : List (List ν × γ)} {path : List ν} {content : γ}

omit [DecidableEq ν] in
lemma Tree.holds_empty : (Tree.empty : Tree ν γ).Holds [] where
  file p c := by
    rw [empty]
    split_ifs <;> simp
  dir p := by
    rw [empty]
    split_ifs with h <;> simp [h]

lemma Tree.createDirAll_eq (h : ∀ above, above <+: path → ∀ c, t above ≠ some (.file c)) :
    t.createDirAll path = some fun p => if p <+: path then some .dir else t p := by
  rw [createDirAll, if_pos]
  rw [List.all_eq_true]
  intro above habove
  have hnot := h above (List.mem_inits above path |>.mp habove)
  split
  · rename_i c hc
    exact absurd hc (hnot c)
  · rfl

lemma Tree.create_eq (hparent : t path.dropLast = some .dir) (hself : t path ≠ some .dir) :
    t.create path content = some (Function.update t path (some (.file content))) := by
  rw [create, hparent]
  cases hnode : t path with
  | none => rfl
  | some node =>
    cases node with
    | dir => exact absurd hnode hself
    | file c => rfl

omit [DecidableEq ν] in
lemma prefix_dropLast_iff (hne : path ≠ []) {p : List ν} :
    p <+: path.dropLast ↔ p <+: path ∧ p ≠ path := by
  conv_rhs => rw [← List.dropLast_append_getLast hne]
  rw [List.prefix_concat_iff]
  refine ⟨fun h => ⟨.inr h, fun heq => ?_⟩, fun h => h.1.resolve_left h.2⟩
  have hlen := h.length_le
  rw [heq, List.length_append, List.length_singleton] at hlen
  omega

/-- **A file at a clear path** can be written; the directories above it are made. -/
lemma Tree.Holds.write (h : t.Holds files) (content : γ) (hne : path ≠ [])
    (hclear : ∀ f ∈ files, Clear f.1 path) :
    ∃ t', t.write (path, content) = some t' ∧ t'.Holds (files ++ [(path, content)]) := by
  have habove : ∀ above, above <+: path.dropLast → ∀ c, t above ≠ some (.file c) := by
    intro above hpre c hfile
    exact (hclear _ ((h.file above c).mp hfile)).1 (hpre.trans (List.dropLast_prefix path))
  set made : Tree ν γ := fun p => if p <+: path.dropLast then some .dir else t p with hmade
  have hparent : made path.dropLast = some .dir := if_pos (List.prefix_refl _)
  have hnot : ¬ path <+: path.dropLast := fun hp => ((prefix_dropLast_iff hne).mp hp).2 rfl
  have hself : made path ≠ some .dir := by
    rw [hmade]
    dsimp only
    rw [if_neg hnot]
    intro hdir
    obtain hnil | ⟨f, hf, hpre, -⟩ := (h.dir path).mp hdir
    · exact hne hnil
    · exact (hclear f hf).2 hpre
  refine ⟨Function.update made path (some (.file content)), ?_, ?_, ?_⟩
  · rw [Tree.write, Tree.createDirAll_eq habove]
    exact Tree.create_eq hparent hself
  · intro p c
    rw [List.mem_append, List.mem_singleton, Prod.mk.injEq, ← h.file]
    by_cases hp : p = path
    · subst hp
      have hold : t p ≠ some (.file c) :=
        fun hfile => (hclear _ ((h.file p c).mp hfile)).1 (List.prefix_refl _)
      simp [hold, eq_comm]
    · rw [Function.update_of_ne hp, hmade]
      dsimp only
      split_ifs with hpre
      · simp [hp, habove p hpre c]
      · simp [hp]
  · intro p
    by_cases hp : p = path
    · subst hp
      rw [Function.update_self]
      simp only [Option.some.injEq, reduceCtorEq, List.mem_append, List.mem_singleton, false_iff,
        not_or, not_exists, not_and]
      refine ⟨hne, ?_⟩
      rintro f (hf | rfl) hpre
      · exact absurd hpre (hclear f hf).2
      · exact fun hself => hself rfl
    · have hcond : (∃ f ∈ files ++ [(path, content)], p <+: f.1 ∧ p ≠ f.1) ↔
          (∃ f ∈ files, p <+: f.1 ∧ p ≠ f.1) ∨ p <+: path.dropLast := by
        simp only [List.mem_append, List.mem_singleton, or_and_right, exists_or, exists_eq_left,
          prefix_dropLast_iff hne]
      rw [Function.update_of_ne hp, hcond, hmade]
      dsimp only
      split_ifs with hpre
      · simp [hpre]
      · rw [h.dir]
        simp [hpre]

/-- **Files at clear paths** can all be written, and nothing else is made. -/
theorem exists_writeAll (hne : ∀ f ∈ files, f.1 ≠ [])
    (hclear : files.Pairwise fun f g => Clear f.1 g.1) :
    ∃ t, (Tree.empty : Tree ν γ).writeAll files = some t ∧ t.Holds files := by
  induction files using List.reverseRecOn with
  | nil => exact ⟨_, rfl, Tree.holds_empty⟩
  | append_singleton files file ih =>
    rw [List.pairwise_append] at hclear
    obtain ⟨t, hwrite, hholds⟩ :=
      ih (fun f hf => hne f (List.mem_append_left _ hf)) hclear.1
    obtain ⟨t', hlast, hholds'⟩ := hholds.write file.2
      (hne file (List.mem_append_right _ List.mem_cons_self))
      fun f hf => hclear.2.2 f hf file List.mem_cons_self
    refine ⟨t', ?_, hholds'⟩
    rw [Tree.writeAll, List.foldlM_append]
    change (Tree.writeAll Tree.empty files).bind _ = _
    rw [hwrite]
    exact (by simpa using hlast)

end Write

end Paths
