import Mathlib.Data.List.Count
import Mathlib.Data.List.Induction
import RbphBackend.Concurrency.ReadCommitted

set_option relaxedAutoImplicit false
set_option autoImplicit false
set_option linter.unusedSectionVars false

/-!
# Journals

The commits of a run form a chain: each starts from the state the one before it left. What holds
initially and is kept by every commit holds of what is committed at the end; what a commit may do
only where a flag is down, setting it up, happens at most once.

## Main definitions

* `ReadCommitted.Linked` — a chain of commits from one committed state to another.
* `ReadCommitted.Journaled` — the invariant of a store all of whose commits meet a property.
* `ReadCommitted.Rely` — what a session relies on: the others leave what is its own, and their
  commits meet the property.
* `ReadCommitted.IsRely` — any relation that is at least that much.
* `ReadCommitted.LastBy`, `ReadCommitted.Followed` — whose the last commit of a kind is; each commit of
  a kind has one of another kind after it.

## Main results

* `ReadCommitted.Linked.invariant`, `ReadCommitted.Linked.countP_le_one` — the induction and the
  at-most-once principle for chains.
* `ReadCommitted.relyGuarantee` — sessions whose commits meet a property form a sound pool.
* `ReadCommitted.journal_of_reaches` — the journal of a run.
-/

namespace ReadCommitted

open Concurrency

variable {K : Type} [DecidableEq K] {V : K → Type} {E : Type}

/-! ## Chains of commits -/

/-- The commits `l` lead from the committed state `v` to `v'`. -/
def Linked (v : (k : K) → V k) : List (Commit V E) → ((k : K) → V k) → Prop
  | [], v' => v = v'
  | e :: l, v' => e.before = v ∧ Linked e.after l v'

namespace Linked

variable {v v' w : (k : K) → V k} {l l' : List (Commit V E)}

/-- Chains compose. -/
lemma append_iff : Linked v (l ++ l') v' ↔ ∃ w, Linked v l w ∧ Linked w l' v' := by
  induction l generalizing v with
  | nil => simp [Linked]
  | cons e l ih =>
    simp only [List.cons_append, Linked, ih]
    exact ⟨fun ⟨he, w, hw, hl⟩ => ⟨w, ⟨he, hw⟩, hl⟩, fun ⟨w, ⟨he, hw⟩, hl⟩ => ⟨he, w, hw, hl⟩⟩

/-- One more commit. -/
lemma snoc (h : Linked v l w) {e : Commit V E} (he : e.before = w) :
    Linked v (l ++ [e]) e.after :=
  append_iff.mpr ⟨w, h, he, rfl⟩

/-- **Induction along a chain**: what every commit keeps. -/
theorem invariant (h : Linked v l v') {p : ((k : K) → V k) → Prop} (h0 : p v)
    (hstep : ∀ e ∈ l, p e.before → p e.after) : p v' := by
  induction l generalizing v with
  | nil => exact h ▸ h0
  | cons e l ih =>
    obtain ⟨rfl, h⟩ := h
    exact ih h (hstep e List.mem_cons_self h0) fun e' he' => hstep e' (List.mem_cons_of_mem _ he')

/-- A commit of a chain starts where the commits before it lead, and the rest starts where it
ends. -/
lemma split (h : Linked v l v') {e : Commit V E} (he : e ∈ l) :
    ∃ l₁ l₂, l = l₁ ++ e :: l₂ ∧ Linked v l₁ e.before ∧ Linked e.after l₂ v' := by
  obtain ⟨l₁, l₂, rfl⟩ := List.append_of_mem he
  obtain ⟨w, h₁, rfl, h₂⟩ := append_iff.mp h
  exact ⟨l₁, l₂, rfl, h₁, h₂⟩

variable {X : Commit V E → Bool} {p : ((k : K) → V k) → Prop}

/-- Once the flag is up, nothing that needs it down happens. -/
lemma countP_eq_zero (h : Linked v l v') (hX : ∀ e ∈ l, X e = true → ¬ p e.before)
    (hp : ∀ e ∈ l, p e.before → p e.after) (h0 : p v) : l.countP X = 0 := by
  induction l generalizing v with
  | nil => rfl
  | cons e l ih =>
    obtain ⟨rfl, h⟩ := h
    have hXe : X e ≠ true := fun hx => hX e List.mem_cons_self hx h0
    rw [List.countP_cons_of_neg hXe]
    exact ih h (fun e' he' => hX e' (List.mem_cons_of_mem _ he'))
      (fun e' he' => hp e' (List.mem_cons_of_mem _ he')) (hp e List.mem_cons_self h0)

/-- **At most once**: commits that need a flag down and leave it up, where no commit takes the
flag down. -/
theorem countP_le_one (h : Linked v l v')
    (hX : ∀ e ∈ l, X e = true → ¬ p e.before ∧ p e.after)
    (hp : ∀ e ∈ l, p e.before → p e.after) : l.countP X ≤ 1 := by
  induction l generalizing v with
  | nil => simp
  | cons e l ih =>
    obtain ⟨-, h⟩ := h
    have hX' : ∀ e' ∈ l, X e' = true → ¬ p e'.before ∧ p e'.after :=
      fun e' he' => hX e' (List.mem_cons_of_mem _ he')
    have hp' : ∀ e' ∈ l, p e'.before → p e'.after :=
      fun e' he' => hp e' (List.mem_cons_of_mem _ he')
    by_cases hx : X e = true
    · have hup : p e.after := (hX e List.mem_cons_self hx).2
      have hnone : l.countP X = 0 :=
        h.countP_eq_zero (fun e' he' hx' => (hX' e' he' hx').1) hp' hup
      rw [List.countP_cons_of_pos hx]
      omega
    · rw [List.countP_cons_of_neg hx]
      exact ih h hX' hp'

end Linked

/-! ## The last commit of a kind -/

section Kinds

variable {p q : Commit V E → Prop} {t : Tid} {l : List (Commit V E)} {e : Commit V E}

/-- The last commit that meets `p` is one of session `t`. -/
def LastBy (p : Commit V E → Prop) (t : Tid) (l : List (Commit V E)) : Prop :=
  ∃ l₁ e l₂, l = l₁ ++ e :: l₂ ∧ p e ∧ e.tid = t ∧ ∀ e' ∈ l₂, ¬ p e'

lemma not_lastBy_nil : ¬ LastBy p t ([] : List (Commit V E)) := by
  rintro ⟨l₁, e, l₂, h, -⟩
  simp at h

/-- One more commit. -/
lemma lastBy_snoc : LastBy p t (l ++ [e]) ↔ p e ∧ e.tid = t ∨ ¬ p e ∧ LastBy p t l := by
  constructor
  · rintro ⟨l₁, e₁, l₂, h, hp, ht, hrest⟩
    induction l₂ using List.reverseRecOn with
    | nil =>
      obtain ⟨-, hlast⟩ := List.append_inj' h rfl
      obtain rfl := List.singleton_inj.mp hlast
      exact .inl ⟨hp, ht⟩
    | append_singleton l₂ e₂ _ =>
      rw [← List.cons_append, ← List.append_assoc] at h
      obtain ⟨rfl, hlast⟩ := List.append_inj' h rfl
      obtain rfl := List.singleton_inj.mp hlast
      exact .inr ⟨hrest e (by simp), l₁, e₁, l₂, rfl, hp, ht, fun e' he' => hrest e' (by simp [he'])⟩
  · rintro (⟨hp, ht⟩ | ⟨hp, l₁, e₁, l₂, rfl, hp₁, ht, hrest⟩)
    · exact ⟨l, e, [], rfl, hp, ht, by simp⟩
    · refine ⟨l₁, e₁, l₂ ++ [e], by simp, hp₁, ht, fun e' he' => ?_⟩
      rcases List.mem_append.mp he' with he' | he'
      · exact hrest e' he'
      · rwa [List.mem_singleton.mp he']

/-- Where there is a commit of a kind, there is a last one. -/
lemma exists_lastBy (h : ∃ e ∈ l, p e) : ∃ t, LastBy p t l := by
  induction l using List.reverseRecOn with
  | nil =>
    obtain ⟨e, he, -⟩ := h
    simp at he
  | append_singleton l e ih =>
    by_cases hp : p e
    · exact ⟨e.tid, lastBy_snoc.mpr (.inl ⟨hp, rfl⟩)⟩
    · obtain ⟨e', he', hp'⟩ := h
      rcases List.mem_append.mp he' with he' | he'
      · obtain ⟨t, ht⟩ := ih ⟨e', he', hp'⟩
        exact ⟨t, lastBy_snoc.mpr (.inr ⟨hp, ht⟩)⟩
      · rw [List.mem_singleton.mp he'] at hp'
        exact absurd hp' hp

/-- Every commit that meets `p` has a later one that meets `q`. -/
def Followed (p q : Commit V E → Prop) (l : List (Commit V E)) : Prop :=
  ∀ l₁ e l₂, l = l₁ ++ e :: l₂ → p e → ∃ e' ∈ l₂, q e'

lemma followed_nil : Followed p q ([] : List (Commit V E)) := by
  intro l₁ e l₂ h
  simp at h

/-- One more commit that need not be followed: it follows the others, or they are followed. -/
lemma Followed.snoc (hp : ¬ p e) (h : q e ∨ Followed p q l) : Followed p q (l ++ [e]) := by
  intro l₁ e₁ l₂ heq hp₁
  induction l₂ using List.reverseRecOn with
  | nil =>
    obtain ⟨-, hlast⟩ := List.append_inj' heq rfl
    obtain rfl := List.singleton_inj.mp hlast
    exact absurd hp₁ hp
  | append_singleton l₂ e₂ _ =>
    rw [← List.cons_append, ← List.append_assoc] at heq
    obtain ⟨rfl, hlast⟩ := List.append_inj' heq rfl
    obtain rfl := List.singleton_inj.mp hlast
    rcases h with hq | h
    · exact ⟨e, by simp, hq⟩
    · obtain ⟨e', he', hq⟩ := h l₁ e₁ l₂ rfl hp₁
      exact ⟨e', by simp [he'], hq⟩

end Kinds

/-! ## Sessions whose commits meet a property -/

/-- The store's journal is a chain from `v` of commits that meet `P`, and only open transactions
hold rows. -/
structure Journaled (P : Commit V E → Prop) (v : (k : K) → V k) (d : Db V E) : Prop where
  wf : d.WF
  linked : Linked v d.journal d.committed
  commits : ∀ e ∈ d.journal, P e

namespace Journaled

variable {P : Commit V E → Prop} {v : (k : K) → V k} {d d' : Db V E}

lemma of_idle (h : d.Idle) : Journaled P d.committed d :=
  ⟨h.wf, by rw [h.journal]; rfl, by simp [h.journal]⟩

lemma moves {t : Tid} (h : Journaled P v d) (hm : Moves P t d d') : Journaled P v d' := by
  refine ⟨hm.wf h.wf, ?_, ?_⟩
  · rcases hm.commits with ⟨hj, hc⟩ | ⟨e, -, hb, ha, hj, -⟩
    · rw [hj, hc]; exact h.linked
    · rw [hj, ← ha]; exact h.linked.snoc hb
  · rcases hm.commits with ⟨hj, -⟩ | ⟨e, -, -, -, hj, hP⟩
    · rw [hj]; exact h.commits
    · intro e' he'
      rw [hj, List.mem_append, List.mem_singleton] at he'
      rcases he' with he' | rfl
      · exact h.commits e' he'
      · exact hP

lemma tick (h : Journaled P v d) (n : ℕ) : Journaled P v (d.tick n) := ⟨h.wf, h.linked, h.commits⟩

end Journaled

/-- What session `t` relies on: the other sessions leave what is its own, and what they commit
meets `P`. -/
structure Rely (P : Commit V E → Prop) (t : Tid) (d d' : Db V E) : Prop where
  keeps : Keeps t d d'
  commits : ∃ l, d'.journal = d.journal ++ l ∧ Linked d.committed l d'.committed ∧
    ∀ e ∈ l, e.tid ≠ t ∧ P e

namespace Rely

variable {P : Commit V E → Prop} {t u : Tid} {d d' d₁ d₂ d₃ : Db V E}

lemma refl (P : Commit V E → Prop) (t : Tid) (d : Db V E) : Rely P t d d :=
  ⟨Keeps.refl t d, [], by simp, rfl, by simp⟩

lemma trans (h : Rely P t d₁ d₂) (h' : Rely P t d₂ d₃) : Rely P t d₁ d₃ := by
  obtain ⟨l, hj, hl, hP⟩ := h.commits
  obtain ⟨l', hj', hl', hP'⟩ := h'.commits
  refine ⟨h.keeps.trans h'.keeps, l ++ l', by rw [hj', hj, List.append_assoc],
    Linked.append_iff.mpr ⟨_, hl, hl'⟩, fun e he => ?_⟩
  rcases List.mem_append.mp he with he | he
  · exact hP e he
  · exact hP' e he

lemma tick (P : Commit V E → Prop) (t : Tid) (n : ℕ) (d : Db V E) : Rely P t d (d.tick n) :=
  ⟨Keeps.tick t n d, [], by simp [Db.tick], rfl, by simp⟩

/-- Another session's move is within the rely. -/
lemma of_moves (hu : t ≠ u) (h : Moves P u d d') : Rely P t d d' := by
  refine ⟨h.keeps t hu, ?_⟩
  rcases h.commits with ⟨hj, hc⟩ | ⟨e, he, hb, ha, hj, hP⟩
  · exact ⟨[], by simp [hj], hc.symm, by simp⟩
  · refine ⟨[e], hj, ⟨hb, ha⟩, fun e' he' => ?_⟩
    obtain rfl := List.mem_singleton.mp he'
    exact ⟨fun h => hu (h.symm.trans he), hP⟩

/-- What commits that meet `P` keep. -/
lemma invariant (h : Rely P t d d') {p : ((k : K) → V k) → Prop}
    (hp : ∀ e, P e → p e.before → p e.after) (h0 : p d.committed) : p d'.committed := by
  obtain ⟨l, -, hl, hP⟩ := h.commits
  exact hl.invariant h0 fun e he => hp e (hP e he).2

end Rely

/-- A rely of session `t`: whatever the others commit, they leave its transaction, the rows it
holds and its commits alone. -/
class IsRely (t : Tid) (R : Db V E → Db V E → Prop) : Prop where
  refl : ∀ d, R d d
  rely : ∀ {d d'}, R d d' → Rely (fun _ => True) t d d'

instance (P : Commit V E → Prop) (t : Tid) : IsRely t (Rely P t : Db V E → Db V E → Prop) where
  refl := Rely.refl P t
  rely h := ⟨h.keeps, h.commits.imp fun _ hl => ⟨hl.1, hl.2.1, fun e he => ⟨(hl.2.2 e he).1, trivial⟩⟩⟩

lemma IsRely.keeps {t : Tid} {R : Db V E → Db V E → Prop} [IsRely t R] {d d' : Db V E}
    (h : R d d') : Keeps t d d' := (IsRely.rely (t := t) h).keeps

section Pool

variable {L α : Type} {P : Commit V E → Prop}

/-- **Sessions whose commits meet `P` form a sound pool** against a clock that advances. -/
theorem relyGuarantee {ok : Tid → L → Db V E → Prop}
    {Φ : Tid → L → Db V E → Db V E → Prog L (Db V E) α → Prop}
    (hΦ : ∀ t l d d' q, Φ t l d d' q → Moves P t d d') (v : (k : K) → V k) :
    RelyGuarantee Tick ok (Journaled P v) (Rely P) Φ where
  refl t d := Rely.refl P t d
  trans _ _ _ _ h h' := h.trans h'
  guarantee _ _ _ _ _ _ hu _ _ h := Rely.of_moves hu (hΦ _ _ _ _ _ h)
  interference := by
    rintro t d _ - ⟨n, rfl⟩
    exact Rely.tick P t n d
  inv_step _ _ _ _ _ hinv _ h := hinv.moves (hΦ _ _ _ _ _ h)
  inv_env := by
    rintro d _ hinv ⟨n, rfl⟩
    exact hinv.tick n

/-- **The journal of a run**: from an idle store, if every thread's commits meet `P`, the journal
is a chain of commits that meet `P`, and every result meets its postcondition. -/
theorem journal_of_reaches {ok : Tid → L → Db V E → Prop}
    {Q : Tid → α → Db V E → Prop} {c c' : Config L (Db V E) α} (hidle : c.shared.Idle)
    (hsat : ∀ t, (c.threads t).Sat (Rely P t)
      (fun l d => ok t l d ∧ Journaled P c.shared.committed d) (Plain fun _ => Moves P t) (Q t)
      c.shared)
    (hr : Reaches Tick ok c c') :
    Journaled P c.shared.committed c'.shared ∧
      ∀ t a, c'.threads t = .ret a → Q t a c'.shared := by
  have hRG : RelyGuarantee Tick ok (Journaled P c.shared.committed) (Rely P)
      (fun t => Plain (L := L) (α := α) fun _ => Moves P t) :=
    relyGuarantee (fun _ _ _ _ _ h => h) _
  have hgood : c.Good ok (Journaled P c.shared.committed) (Rely P)
      (fun t => Plain fun _ => Moves P t) Q := ⟨.of_idle hidle, hsat⟩
  exact ⟨(hRG.reaches hgood hr).1, fun t a ha => hRG.result hgood hr ha⟩

end Pool

end ReadCommitted
