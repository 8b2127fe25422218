import Mathlib.Data.List.MinMax
import Mathlib.Order.Basic

set_option relaxedAutoImplicit false
set_option autoImplicit false

/-!
# Alarms

What depends on the time through a list of deadlines alone changes at one of them. Who looks at an
instant and is told the first deadline after it needs not look again before, and has seen everything
once there is none.

## Main definitions

* `Alarms.next` — the first deadline after an instant.
* `Alarms.Wakes` — the instants of one who looks again at the instant he has been told.

## Main results

* `Alarms.le_iff_of_lt_next` — before the next deadline none passes.
* `Alarms.exists_wakes` — who does as he is told looks at most once more than there are deadlines.
* `Alarms.Wakes.exists_last` — he has always looked since the last deadline.
-/

namespace Alarms

variable {τ : Type} [LinearOrder τ] {deadlines : List τ} {now later n : τ}

/-- The deadlines after an instant. -/
def coming (deadlines : List τ) (now : τ) : List τ := deadlines.filter (now < ·)

/-- The first deadline after an instant, if there is one. -/
def next (deadlines : List τ) (now : τ) : Option τ := (coming deadlines now).min?

lemma mem_coming {d : τ} : d ∈ coming deadlines now ↔ d ∈ deadlines ∧ now < d := by
  simp [coming]

lemma next_eq_some_iff : next deadlines now = some n ↔
    (n ∈ deadlines ∧ now < n) ∧ ∀ d ∈ deadlines, now < d → n ≤ d := by
  simp only [next, List.min?_eq_some_iff, mem_coming, and_imp]

lemma next_eq_none_iff : next deadlines now = none ↔ ∀ d ∈ deadlines, d ≤ now := by
  simp [next, coming]

/-- **Before the next deadline none passes.** -/
lemma le_iff_of_lt_next (hle : now ≤ later) (h : ∀ n, next deadlines now = some n → later < n)
    {d : τ} (hd : d ∈ deadlines) : d ≤ later ↔ d ≤ now := by
  refine ⟨fun hlater => not_lt.1 fun hnow => ?_, fun hnow => hnow.trans hle⟩
  cases hnext : next deadlines now with
  | none => exact absurd (next_eq_none_iff.1 hnext d hd) (not_le.2 hnow)
  | some n =>
    have hn := (next_eq_some_iff.1 hnext).2 d hd hnow
    exact absurd (h n hnext) (not_lt.2 (hn.trans hlater))

/-- Before the next deadline it stays the next one. -/
lemma next_eq_of_lt_next (hle : now ≤ later) (h : ∀ n, next deadlines now = some n → later < n) :
    next deadlines later = next deadlines now := by
  rw [next, next, coming, coming]
  congr 1
  refine List.filter_congr fun d hd => ?_
  rw [decide_eq_decide, ← not_le, ← not_le, le_iff_of_lt_next hle h hd]

/-- After the next deadline there are fewer to come. -/
lemma length_coming_lt (h : next deadlines now = some n) :
    (coming deadlines n).length < (coming deadlines now).length := by
  obtain ⟨⟨hmem, hlt⟩, -⟩ := next_eq_some_iff.1 h
  have heq : coming deadlines n = (coming deadlines now).filter (n < ·) := by
    rw [coming, coming, List.filter_filter]
    refine List.filter_congr fun d _ => ?_
    by_cases hd : n < d
    · simp [hd, hlt.trans hd]
    · simp [hd]
  rw [heq]
  exact List.length_filter_lt_length_iff_exists.2 ⟨n, mem_coming.2 ⟨hmem, hlt⟩, by simp⟩

/-- **The instants of one who looks** at `now`, and again at the deadline he has been told. -/
inductive Wakes (deadlines : List τ) : τ → List τ → Prop
  | last {now : τ} (h : next deadlines now = none) : Wakes deadlines now [now]
  | next {now n : τ} {rest : List τ} (h : next deadlines now = some n)
      (hrest : Wakes deadlines n rest) : Wakes deadlines now (now :: rest)

/-- **Who does as he is told** looks at most once more than there are deadlines to come. -/
theorem exists_wakes (deadlines : List τ) (now : τ) :
    ∃ l, Wakes deadlines now l ∧ l.length ≤ (coming deadlines now).length + 1 := by
  induction hk : (coming deadlines now).length using Nat.strong_induction_on generalizing now with
  | _ k ih =>
    cases hnext : next deadlines now with
    | none => exact ⟨[now], .last hnext, by simp⟩
    | some n =>
      have hlt := length_coming_lt hnext
      obtain ⟨l, hl, hlength⟩ := ih _ (hk ▸ hlt) n rfl
      exact ⟨now :: l, .next hnext hl, by rw [List.length_cons]; omega⟩

/-- He looks at no instant before the first one. -/
lemma Wakes.le {l : List τ} (h : Wakes deadlines now l) : ∀ s ∈ l, now ≤ s := by
  induction h with
  | last h => exact fun s hs => (List.mem_singleton.1 hs).ge
  | next h _ ih =>
    intro s hs
    rcases List.mem_cons.1 hs with rfl | hs
    · exact le_rfl
    · exact (next_eq_some_iff.1 h).1.2.le.trans (ih s hs)

/-- **He has always looked since the last deadline.** -/
lemma Wakes.exists_last {l : List τ} (h : Wakes deadlines now l) (hle : now ≤ later) :
    ∃ s ∈ l, s ≤ later ∧ ∀ n, Alarms.next deadlines s = some n → later < n := by
  induction h with
  | last h => exact ⟨_, List.mem_singleton_self _, hle, fun n hn => by rw [h] at hn; cases hn⟩
  | @next now n rest h _ ih =>
    rcases lt_or_ge later n with hlt | hge
    · exact ⟨now, List.mem_cons_self, hle, fun m hm => Option.some.inj (h.symm.trans hm) ▸ hlt⟩
    · obtain ⟨s, hs, hlast⟩ := ih hge
      exact ⟨s, List.mem_cons_of_mem _ hs, hlast⟩

end Alarms
