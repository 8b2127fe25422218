import Mathlib.Data.Nat.Notation
import Mathlib.Tactic.Basic

set_option relaxedAutoImplicit false
set_option autoImplicit false

/-!
# Traces

What has happened so far, as a list that grows at its end. A property of "everything since" is
stated of the rest of the trace after each event of a kind, so that one more event extends every
rest by one and may start a new, empty one.

## Main definitions

* `Concurrency.After` — after every event of a kind, the rest of the trace has a property.
* `Concurrency.lastSome` — the last event that a partial function selects.

## Main results

* `Concurrency.after_snoc` — one more event.
* `Concurrency.after_iff` — what `After` says of each splitting of the trace.
-/

namespace Concurrency

variable {ε α : Type} {p : ε → Bool} {Q Q' : List ε → Prop} {l l' : List ε} {e : ε}

/-- After every event that meets `p`, the rest of the trace meets `Q`. -/
def After (p : ε → Bool) (Q : List ε → Prop) : List ε → Prop
  | [] => True
  | e :: l => (p e = true → Q l) ∧ After p Q l

instance decidableAfter [DecidablePred Q] : DecidablePred (After p Q)
  | [] => instDecidableTrue
  | e :: l =>
    have := decidableAfter l
    inferInstanceAs (Decidable ((p e = true → Q l) ∧ After p Q l))

@[simp] lemma after_nil : After p Q [] := trivial

/-- What `After` says of each splitting of the trace. -/
lemma after_iff : After p Q l ↔ ∀ l₁ e l₂, l = l₁ ++ e :: l₂ → p e = true → Q l₂ := by
  induction l with
  | nil => simp
  | cons a l ih =>
    rw [After, ih]
    constructor
    · rintro ⟨ha, hl⟩ l₁ e l₂ h he
      cases l₁ with
      | nil =>
        obtain ⟨rfl, rfl⟩ := List.cons.inj h
        exact ha he
      | cons b l₁ => exact hl l₁ e l₂ (List.cons.inj h).2 he
    · intro h
      exact ⟨fun ha => h [] a l rfl ha, fun l₁ e l₂ hl he => h (a :: l₁) e l₂ (by rw [hl]; rfl) he⟩

lemma After.of_split (h : After p Q (l ++ e :: l')) (he : p e = true) : Q l' :=
  after_iff.mp h l e l' rfl he

/-- **One more event** extends every rest, and starts one if it is of the kind. -/
@[simp] lemma after_snoc :
    After p Q (l ++ [e]) ↔ After p (fun l => Q (l ++ [e])) l ∧ (p e = true → Q []) := by
  induction l with
  | nil => simp [After]
  | cons a l ih =>
    simp only [List.cons_append, After, ih]
    exact and_assoc.symm

lemma After.imp (h : After p Q l) (hQ : ∀ l, Q l → Q' l) : After p Q' l := by
  induction l with
  | nil => trivial
  | cons a l ih => exact ⟨fun ha => hQ _ (h.1 ha), ih h.2⟩

lemma After.imp₂ {Q'' : List ε → Prop} (h : After p Q l) (h' : After p Q' l)
    (hQ : ∀ l, Q l → Q' l → Q'' l) : After p Q'' l := by
  induction l with
  | nil => trivial
  | cons a l ih => exact ⟨fun ha => hQ _ (h.1 ha) (h'.1 ha), ih h.2 h'.2⟩

/-- Where the property needs an event of the whole trace, and there is none. -/
lemma after_of_subset (hQ : ∀ l', l' ⊆ l → Q l') : After p Q l := by
  induction l with
  | nil => trivial
  | cons a l ih =>
    exact ⟨fun _ => hQ l (List.subset_cons_self a l),
      ih fun l' hl' => hQ l' (List.Subset.trans hl' (List.subset_cons_self a l))⟩

/-! ## The last event of a kind -/

/-- The last event `f` selects. -/
def lastSome (f : ε → Option α) (l : List ε) : Option α := l.reverse.findSome? f

variable {f : ε → Option α}

@[simp] lemma lastSome_nil : lastSome f [] = none := rfl

@[simp] lemma lastSome_snoc : lastSome f (l ++ [e]) = (f e).or (lastSome f l) := by
  cases h : f e <;> simp [lastSome, h]

/-- An event selected from the end of the trace is the last one of the whole trace. -/
lemma lastSome_append : lastSome f (l ++ l') = (lastSome f l').or (lastSome f l) := by
  simp [lastSome, List.findSome?_append]

lemma exists_of_lastSome {a : α} (h : lastSome f l = some a) : ∃ e ∈ l, f e = some a := by
  obtain ⟨e, he, hf⟩ := List.exists_of_findSome?_eq_some h
  exact ⟨e, by simpa using he, hf⟩

end Concurrency
