import Mathlib.Data.Int.Notation
import Mathlib.Logic.Function.Basic
import Mathlib.Tactic.Basic

set_option relaxedAutoImplicit false
set_option autoImplicit false

/-!
# Maps with expiry

A map whose entries may have a deadline: an entry is there for whoever looks before its deadline
and is absent from then on. Whether an implementation removes what has expired does not show.

## Main definitions

* `Expiring.Entry`, `Expiring.lookup` — entries, and what is there at an instant.
* `Expiring.AgreeFrom` — two maps show the same from an instant on.

## Main results

* `Expiring.AgreeFrom.update` — the same write keeps the agreement.
-/

namespace Expiring

variable {κ α : Type}

/-- An entry with its deadline, if it has one. -/
structure Entry (α : Type) where
  value : α
  expiresAt : Option ℤ
  deriving DecidableEq

/-- The entry is there at instant `now`. -/
def Entry.live (now : ℤ) (e : Entry α) : Bool :=
  match e.expiresAt with
  | none => true
  | some expiresAt => decide (now < expiresAt)

/-- What is there at instant `now`. -/
def lookup (m : κ → Option (Entry α)) (now : ℤ) (k : κ) : Option (Entry α) :=
  (m k).filter (·.live now)

lemma lookup_of_live {m : κ → Option (Entry α)} {now : ℤ} {k : κ} {e : Entry α} (h : m k = some e)
    (hlive : e.live now = true) : lookup m now k = some e := by
  rw [lookup, h]
  exact Option.filter_some_pos hlive

lemma lookup_of_not_live {m : κ → Option (Entry α)} {now : ℤ} {k : κ} {e : Entry α}
    (h : m k = some e) (hlive : e.live now ≠ true) : lookup m now k = none := by
  rw [lookup, h]
  exact Option.filter_some_neg (by simpa using hlive)

/-- What has been there later was there before. -/
lemma Entry.live_of_le {now later : ℤ} {e : Entry α} (hle : now ≤ later)
    (h : e.live later = true) : e.live now = true := by
  unfold Entry.live at h ⊢
  split
  · rfl
  · rename_i t ht
    simp only [ht, decide_eq_true_eq] at h ⊢
    omega

/-- The two maps show the same from instant `now` on. -/
def AgreeFrom (now : ℤ) (m m' : κ → Option (Entry α)) : Prop :=
  ∀ later, now ≤ later → ∀ k, lookup m later k = lookup m' later k

namespace AgreeFrom

variable {now later : ℤ} {m m' : κ → Option (Entry α)}

lemma refl (now : ℤ) (m : κ → Option (Entry α)) : AgreeFrom now m m := fun _ _ _ => rfl

lemma of_le (h : AgreeFrom now m m') (hle : now ≤ later) : AgreeFrom later m m' :=
  fun t ht k => h t (Int.le_trans hle ht) k

lemma lookup_eq (h : AgreeFrom now m m') (k : κ) : lookup m now k = lookup m' now k :=
  h now (Int.le_refl now) k

variable [DecidableEq κ]

/-- **The same write** keeps the agreement. -/
lemma update (h : AgreeFrom now m m') (k : κ) (e : Option (Entry α)) :
    AgreeFrom now (Function.update m k e) (Function.update m' k e) := by
  intro t ht k'
  by_cases hk : k' = k
  · subst hk
    simp [lookup]
  · have := h t ht k'
    simpa only [lookup, Function.update_of_ne hk] using this

end AgreeFrom

end Expiring
