import RbphBackend.Concurrency.Draft
import RbphBackend.Concurrency.Discipline

set_option relaxedAutoImplicit false
set_option autoImplicit false
set_option linter.unusedSectionVars false

/-!
# Chronicles

What a session may commit can depend on what has been committed before: on a row that it has read
outside its transactions, say, or on an earlier commit of its own. A chronicle is a journal each
commit of which meets a property of the commits before it.

## Main definitions

* `ReadCommitted.Was` — a property of one of the states committed so far.
* `ReadCommitted.Chronicled` — the invariant of a store whose journal is a chronicle.
* `ReadCommitted.chronicle` — the discipline of the sessions that keep one.
* `ReadCommitted.Known` — what a session knows of the past.

## Main results

* `ReadCommitted.Linked.exists_change`, `ReadCommitted.Linked.exists_last_change` — where the ends of a
  chain differ, a commit has made the difference, and none after the last one has.
* `ReadCommitted.chronicled_of_reaches` — the chronicle of a run.
-/

namespace ReadCommitted

open Concurrency

variable {K : Type} [DecidableEq K] {V : K → Type} {E L α : Type}

/-! ## The states of a chain -/

section Linked

variable {v v' : (k : K) → V k} {l l' : List (Commit V E)} {p q : ((k : K) → V k) → Prop}

/-- A state that was committed, at the start of the chain or by one of its commits, meets `p`. -/
def Was (v : (k : K) → V k) (l : List (Commit V E)) (p : ((k : K) → V k) → Prop) : Prop :=
  p v ∨ ∃ e ∈ l, p e.after

lemma Was.extend (h : Was v l p) (hl : l <+: l') : Was v l' p :=
  h.imp_right fun ⟨e, he, hp⟩ => ⟨e, hl.subset he, hp⟩

/-- What is committed at the end was committed. -/
lemma Linked.was (h : Linked v l v') (hp : p v') : Was v l p := by
  induction l using List.reverseRecOn with
  | nil => exact .inl (h ▸ hp)
  | append_singleton l e _ =>
    obtain ⟨w, -, -, he⟩ := Linked.append_iff.1 h
    exact .inr ⟨e, by simp, he ▸ hp⟩

/-- **A change has been made by a commit.** -/
lemma Linked.exists_change (h : Linked v l v') (hp : p v) (hp' : ¬ p v') :
    ∃ l₁ e l₂, l = l₁ ++ e :: l₂ ∧ p e.before ∧ ¬ p e.after := by
  induction l generalizing v with
  | nil => exact absurd (h ▸ hp) hp'
  | cons e l ih =>
    obtain ⟨rfl, h⟩ := h
    by_cases he : p e.after
    · obtain ⟨l₁, e', l₂, rfl, h₁, h₂⟩ := ih h he
      exact ⟨e :: l₁, e', l₂, rfl, h₁, h₂⟩
    · exact ⟨[], e, l, rfl, hp, he⟩

/-- **The last change**: no commit after it takes back what it has brought about. -/
lemma Linked.exists_last_change (h : Linked v l v') (hp : ¬ p v) (hp' : p v') :
    ∃ l₁ e l₂, l = l₁ ++ e :: l₂ ∧ ¬ p e.before ∧ p e.after ∧ ∀ e' ∈ l₂, p e'.before ∧ p e'.after := by
  induction l using List.reverseRecOn generalizing v' with
  | nil => exact absurd (h ▸ hp') hp
  | append_singleton l e ih =>
    obtain ⟨w, hl, hb, he⟩ := Linked.append_iff.1 h
    have hafter : p e.after := he ▸ hp'
    by_cases hw : p w
    · obtain ⟨l₁, e₁, l₂, rfl, h₁, h₂, hrest⟩ := ih hl hw
      refine ⟨l₁, e₁, l₂ ++ [e], by simp, h₁, h₂, fun e' he' => ?_⟩
      rcases List.mem_append.1 he' with he' | he'
      · exact hrest e' he'
      · obtain rfl := List.mem_singleton.1 he'
        exact ⟨hb ▸ hw, hafter⟩
    · exact ⟨l, e, [], rfl, hb ▸ hw, hafter, by simp⟩

end Linked

/-! ## The discipline -/

section Chronicle

variable {P : List (Commit V E) → Commit V E → Prop} {v : (k : K) → V k} {d d' : Db V E} {t : Tid}

/-- The journal is a chain from `v` each commit of which meets `P` of those before it, and only open
transactions hold rows. -/
structure Chronicled (P : List (Commit V E) → Commit V E → Prop) (v : (k : K) → V k) (d : Db V E) :
    Prop where
  wf : d.WF
  linked : Linked v d.journal d.committed
  commits : ∀ l e r, d.journal = l ++ e :: r → P l e

namespace Chronicled

lemma of_idle (h : d.Idle) : Chronicled P d.committed d :=
  ⟨h.wf, by rw [h.journal]; rfl, fun l e r hj => by simp [h.journal] at hj⟩

lemma moves (h : Chronicled P v d) (hm : Moves (P d.journal) t d d') : Chronicled P v d' := by
  refine ⟨hm.wf h.wf, ?_, ?_⟩
  · rcases hm.commits with ⟨hj, hc⟩ | ⟨e, -, hb, ha, hj, -⟩
    · rw [hj, hc]
      exact h.linked
    · rw [hj, ← ha]
      exact h.linked.snoc hb
  · intro l e r hl
    rcases hm.commits with ⟨hj, -⟩ | ⟨e₁, -, -, -, hj, hP⟩
    · exact h.commits l e r (hj ▸ hl)
    · rw [hj] at hl
      induction r using List.reverseRecOn with
      | nil =>
        obtain ⟨rfl, hlast⟩ := List.append_inj' hl rfl
        obtain rfl := List.singleton_inj.1 hlast
        exact hP
      | append_singleton r e₂ _ =>
        rw [← List.cons_append, ← List.append_assoc] at hl
        exact h.commits l e r (List.append_inj' hl rfl).1

lemma tick (h : Chronicled P v d) (n : ℕ) : Chronicled P v (d.tick n) :=
  ⟨h.wf, h.linked, h.commits⟩

end Chronicled

/-- **The discipline of a chronicle**: commits that meet `P` of those before them. -/
def chronicle (P : List (Commit V E) → Commit V E → Prop) (v : (k : K) → V k) : Discipline V E where
  contract := .none V
  Commits _ d e := P d.journal e
  Inv := Chronicled P v
  guarded _ _ _ := trivial
  inv_moves h hm := h.moves hm
  inv_tick n h := h.tick n

instance : Honours (Contract.none V) t ((chronicle P v).Others t) :=
  inferInstanceAs (Honours (chronicle P v).contract t _)

/-- What held of an earlier part of the journal. -/
def Known (q : List (Commit V E) → Prop) (d : Db V E) : Prop := ∃ l, l <+: d.journal ∧ q l

lemma Known.journal {q : List (Commit V E) → Prop} (h : Known q d) (hj : d.journal <+: d'.journal) :
    Known q d' :=
  h.imp fun _ h => ⟨h.1.trans hj, h.2⟩

/-- What was known stays known. -/
lemma stable_known {q : List (Commit V E) → Prop} : Stable ((chronicle P v).Others t) (Known q) := by
  intro d d' h hr
  obtain ⟨l, hl, -⟩ := (IsRely.keeps (t := t) hr).journal
  exact h.journal (hl ▸ List.prefix_append _ _)

/-- **The chronicle of a run** of sessions that keep one. -/
theorem chronicled_of_reaches {ok : Tid → L → Db V E → Prop} {Q : Tid → α → Db V E → Prop}
    {c c' : Config L (Db V E) α} (hidle : c.shared.Idle)
    (hsat : ∀ t, (c.threads t).Sat ((chronicle P c.shared.committed).Others t)
      (fun l d => ok t l d ∧ Chronicled P c.shared.committed d)
      ((chronicle P c.shared.committed).Guarantee t) (Q t) c.shared)
    (hr : Reaches Tick ok c c') :
    Chronicled P c.shared.committed c'.shared ∧
      ∀ t a, c'.threads t = .ret a → Q t a c'.shared :=
  Discipline.reaches (D := chronicle P c.shared.committed) (Chronicled.of_idle hidle) hsat hr

end Chronicle

end ReadCommitted
