import Mathlib.Data.List.Induction
import Mathlib.Data.List.Nodup
import Mathlib.Logic.Function.Basic
import Mathlib.Tactic.Basic

set_option relaxedAutoImplicit false
set_option autoImplicit false

/-!
# Moves between places

What stands at some places is moved to others, one after another, and back in the opposite order.
Where no two moves share a place, what stood at the sources is there again; what stood at the
targets is lost.

## Main definitions

* `Paths.Moves.moveAll`, `Paths.Moves.moveBack` — a list of moves, and its moves undone.
* `Paths.Moves.Apart` — no two moves share a place.
* `Paths.Moves.emptied` — nothing stands at some places.

## Main results

* `Paths.Moves.moveAll_moved` — where everything stands after moves that are apart.
* `Paths.Moves.moveBack_emptied` — what is left after the moves have been undone.
-/

namespace Paths.Moves

universe u v

variable {κ : Type u} {α : Type v} [DecidableEq κ]

/-- What stands at a place is moved to another one, over what stands there. -/
def move (content : κ → Option α) (source target : κ) : κ → Option α :=
  Function.update (Function.update content target (content source)) source none

/-- Moves from the first places of some pairs to the second ones, one after another. -/
def moveAll (content : κ → Option α) : List (κ × κ) → κ → Option α
  | [] => content
  | (source, target) :: pairs => moveAll (move content source target) pairs

/-- The moves are undone, the last one first. -/
def moveBack (content : κ → Option α) (pairs : List (κ × κ)) : κ → Option α :=
  moveAll content (pairs.map Prod.swap).reverse

/-- Nothing stands at some places. -/
def emptied (content : κ → Option α) (places : List κ) (x : κ) : Option α :=
  if x ∈ places then none else content x

/-- No two moves share a place. -/
structure Apart (pairs : List (κ × κ)) : Prop where
  sources : (pairs.map Prod.fst).Nodup
  targets : (pairs.map Prod.snd).Nodup
  disjoint : ∀ p ∈ pairs, ∀ q ∈ pairs, p.1 ≠ q.2

/-- Where everything stands after some moves. -/
structure Moved (before after : κ → Option α) (pairs : List (κ × κ)) : Prop where
  target : ∀ p ∈ pairs, after p.2 = before p.1
  source : ∀ p ∈ pairs, after p.1 = none
  other : ∀ x, x ∉ pairs.map Prod.fst → x ∉ pairs.map Prod.snd → after x = before x

section Moves

variable {content : κ → Option α} {pairs : List (κ × κ)} {p : κ × κ} {x source target : κ}

lemma move_of_ne (hsource : x ≠ source) (htarget : x ≠ target) :
    move content source target x = content x := by
  rw [move, Function.update_of_ne hsource, Function.update_of_ne htarget]

lemma move_source : move content source target source = none := Function.update_self _ _ _

lemma move_target (h : source ≠ target) :
    move content source target target = content source := by
  rw [move, Function.update_of_ne h.symm, Function.update_self]

lemma moveAll_concat (content : κ → Option α) (pairs : List (κ × κ)) (source target : κ) :
    moveAll content (pairs ++ [(source, target)]) = move (moveAll content pairs) source target := by
  induction pairs generalizing content with
  | nil => rfl
  | cons p pairs ih => exact ih (move content p.1 p.2)

omit [DecidableEq κ] in
lemma Apart.sublist {pairs' : List (κ × κ)} (h : Apart pairs) (hsub : pairs'.Sublist pairs) :
    Apart pairs' where
  sources := h.sources.sublist (hsub.map _)
  targets := h.targets.sublist (hsub.map _)
  disjoint q hq r hr := h.disjoint q (hsub.subset hq) r (hsub.subset hr)

omit [DecidableEq κ] in
/-- The places of the last move are not those of one before it. -/
lemma Apart.notMem_of_concat (h : Apart (pairs ++ [p])) :
    (p.1 ∉ pairs.map Prod.fst ∧ p.1 ∉ pairs.map Prod.snd) ∧
      p.2 ∉ pairs.map Prod.fst ∧ p.2 ∉ pairs.map Prod.snd := by
  have hlast : p ∈ pairs ++ [p] := List.mem_append_right _ List.mem_cons_self
  have hold : ∀ q ∈ pairs, q ∈ pairs ++ [p] := fun q hq => List.mem_append_left _ hq
  have hsources := h.sources
  have htargets := h.targets
  rw [List.map_append, List.nodup_append] at hsources htargets
  refine ⟨⟨fun hmem => ?_, fun hmem => ?_⟩, fun hmem => ?_, fun hmem => ?_⟩
  · exact hsources.2.2 p.1 hmem p.1 List.mem_cons_self rfl
  · obtain ⟨q, hq, heq⟩ := List.mem_map.mp hmem
    exact h.disjoint p hlast q (hold q hq) heq.symm
  · obtain ⟨q, hq, heq⟩ := List.mem_map.mp hmem
    exact h.disjoint q (hold q hq) p hlast heq
  · exact htargets.2.2 p.2 hmem p.2 List.mem_cons_self rfl

omit [DecidableEq κ] in
/-- The moves back are apart, too. -/
lemma Apart.swap (h : Apart pairs) : Apart (pairs.map Prod.swap).reverse where
  sources := by
    rw [List.map_reverse, List.nodup_reverse, List.map_map]
    exact h.targets
  targets := by
    rw [List.map_reverse, List.nodup_reverse, List.map_map]
    exact h.sources
  disjoint q hq r hr := by
    obtain ⟨q, hmem, rfl⟩ := List.mem_map.mp (List.mem_reverse.mp hq)
    obtain ⟨r, hmem', rfl⟩ := List.mem_map.mp (List.mem_reverse.mp hr)
    exact (h.disjoint r hmem' q hmem).symm

/-- **Where everything stands** after moves that are apart. -/
theorem moveAll_moved (h : Apart pairs) (content : κ → Option α) :
    Moved content (moveAll content pairs) pairs := by
  induction pairs using List.reverseRecOn with
  | nil => exact ⟨nofun, nofun, fun _ _ _ => rfl⟩
  | append_singleton pairs p ih =>
    obtain ⟨source, target⟩ := p
    obtain ⟨htarget, hsource, hother⟩ := ih (h.sublist (List.sublist_append_left _ _))
    obtain ⟨hnewSource, hnewTarget⟩ := h.notMem_of_concat
    have hne : source ≠ target := h.disjoint _ (List.mem_append_right _ List.mem_cons_self) _
      (List.mem_append_right _ List.mem_cons_self)
    rw [moveAll_concat]
    refine ⟨fun q hq => ?_, fun q hq => ?_, fun x hfst hsnd => ?_⟩
    · rcases List.mem_append.mp hq with hq | hq
      · have hmem : q.2 ∈ pairs.map Prod.snd := List.mem_map_of_mem hq
        rw [move_of_ne (ne_of_mem_of_not_mem hmem hnewSource.2)
          (ne_of_mem_of_not_mem hmem hnewTarget.2), htarget q hq]
      · rw [List.mem_singleton.mp hq, move_target hne, hother _ hnewSource.1 hnewSource.2]
    · rcases List.mem_append.mp hq with hq | hq
      · have hmem : q.1 ∈ pairs.map Prod.fst := List.mem_map_of_mem hq
        rw [move_of_ne (ne_of_mem_of_not_mem hmem hnewSource.1)
          (ne_of_mem_of_not_mem hmem hnewTarget.1), hsource q hq]
      · rw [List.mem_singleton.mp hq, move_source]
    · rw [List.map_append, List.mem_append, not_or, List.map_singleton, List.mem_singleton]
        at hfst hsnd
      rw [move_of_ne hfst.2 hsnd.2, hother x hfst.1 hsnd.1]

/-- **What is left** after moves that are apart have been undone: nothing stands at their targets,
nor where nothing stood before they were undone. -/
theorem moveBack_emptied (h : Apart pairs) (content : κ → Option α) {places : List κ}
    (hplaces : ∀ x ∈ places, x ∉ pairs.map Prod.fst ∧ x ∉ pairs.map Prod.snd) :
    moveBack (emptied (moveAll content pairs) places) pairs =
      emptied content (pairs.map Prod.snd ++ places) := by
  obtain ⟨htarget, hsource, hother⟩ := moveAll_moved h content
  obtain ⟨htarget', hsource', hother'⟩ :=
    moveAll_moved h.swap (emptied (moveAll content pairs) places)
  have hback : ∀ q ∈ pairs, q.swap ∈ (pairs.map Prod.swap).reverse := fun q hq =>
    List.mem_reverse.mpr (List.mem_map_of_mem hq)
  funext x
  rw [moveBack]
  by_cases hsnd : x ∈ pairs.map Prod.snd
  · obtain ⟨q, hq, rfl⟩ := List.mem_map.mp hsnd
    rw [emptied, if_pos (List.mem_append_left _ hsnd)]
    exact hsource' q.swap (hback q hq)
  by_cases hfst : x ∈ pairs.map Prod.fst
  · obtain ⟨q, hq, rfl⟩ := List.mem_map.mp hfst
    have hq₁ : q.1 ∉ places := fun hmem => (hplaces _ hmem).1 hfst
    have hq₂ : q.2 ∉ places := fun hmem => (hplaces _ hmem).2 (List.mem_map_of_mem hq)
    calc moveAll _ (pairs.map Prod.swap).reverse q.1
        = emptied (moveAll content pairs) places q.2 := htarget' q.swap (hback q hq)
      _ = content q.1 := by rw [emptied, if_neg hq₂, htarget q hq]
      _ = emptied content (pairs.map Prod.snd ++ places) q.1 := by
        rw [emptied, if_neg fun hmem => (List.mem_append.mp hmem).elim hsnd hq₁]
  · have hswap : x ∉ (pairs.map Prod.swap).reverse.map Prod.fst ∧
        x ∉ (pairs.map Prod.swap).reverse.map Prod.snd := by
      rw [List.map_reverse, List.map_reverse, List.mem_reverse, List.mem_reverse, List.map_map,
        List.map_map]
      exact ⟨hsnd, hfst⟩
    have hplace : x ∈ places ↔ x ∈ pairs.map Prod.snd ++ places := by
      rw [List.mem_append, or_iff_right hsnd]
    rw [hother' x hswap.1 hswap.2, emptied, emptied, hother x hfst hsnd]
    exact if_congr hplace rfl rfl

/-- Nothing but what stood at the targets is lost when the moves are undone at once. -/
lemma moveBack_moveAll (h : Apart pairs) (content : κ → Option α) :
    moveBack (moveAll content pairs) pairs = emptied content (pairs.map Prod.snd) := by
  have hnil : emptied (moveAll content pairs) [] = moveAll content pairs := by
    funext x
    exact if_neg List.not_mem_nil
  have hback := moveBack_emptied h content fun x hx => absurd hx List.not_mem_nil
  rwa [hnil, List.append_nil] at hback

end Moves

end Paths.Moves
