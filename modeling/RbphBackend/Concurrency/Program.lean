import Mathlib.Data.Nat.Notation
import Mathlib.Logic.Relation
import Mathlib.Logic.Function.Basic

set_option relaxedAutoImplicit false
set_option autoImplicit false

/-!
# Concurrent programs as trees of atomic actions

A thread runs a program that is a tree: a leaf is a value returned, an inner node is one labelled
atomic action on the state all threads share, with one child for every result the action may
have. A pool of such programs runs by interleaving: a step is one enabled action of one thread,
or one move of the environment. An action that is not enabled blocks its thread.

## Main definitions

* `Concurrency.Prog` — programs; a monad, so that a program is written as `do` notation.
* `Concurrency.Config`, `Concurrency.Step`, `Concurrency.Reaches` — pools and their runs. The
  parameter `ok` restricts a run to the steps that meet a condition on the label and on the state
  before the step.
* `Concurrency.exec` — runs a pool under a given schedule, so that a concrete run is a
  computation.

## Main results

* `Concurrency.exec_reaches` — what `exec` computes is a run.
-/

namespace Concurrency

/-- Threads are named by numbers. -/
abbrev Tid := ℕ

/-- The program of one thread over the shared state `σ`, with labels in `L` and result in `α`:
it has returned, or it is about to run an atomic action. The action gives no result where it is
not enabled. -/
inductive Prog (L σ α : Type) : Type 1 where
  | ret (a : α)
  | act {β : Type} (l : L) (f : σ → Option (β × σ)) (k : β → Prog L σ α)

namespace Prog

variable {L σ α β γ : Type}

/-- Sequential composition: `k` goes on where the first program returned. -/
def bind : Prog L σ α → (α → Prog L σ β) → Prog L σ β
  | .ret a, k => k a
  | .act l f k', k => .act l f fun b => (k' b).bind k

instance : Monad (Prog L σ) where
  pure := .ret
  bind := Prog.bind

@[simp] lemma pure_eq (a : α) : (pure a : Prog L σ α) = .ret a := rfl

@[simp] lemma bind_eq (p : Prog L σ α) (k : α → Prog L σ β) : p >>= k = p.bind k := rfl

@[simp] lemma bind_ret (a : α) (k : α → Prog L σ β) : (Prog.ret a).bind k = k a := rfl

@[simp] lemma bind_act {δ : Type} (l : L) (f : σ → Option (δ × σ)) (k' : δ → Prog L σ α)
    (k : α → Prog L σ β) : (Prog.act l f k').bind k = .act l f fun b => (k' b).bind k := rfl

/-- Composition is associative. -/
lemma bind_assoc (p : Prog L σ α) (k : α → Prog L σ β) (k' : β → Prog L σ γ) :
    (p.bind k).bind k' = p.bind fun a => (k a).bind k' := by
  induction p with
  | ret a => rfl
  | act l f k₀ ih => simp only [bind_act, ih]

/-- Going on with a result and returning it does nothing. -/
lemma bind_ret_right (p : Prog L σ α) : p.bind .ret = p := by
  induction p with
  | ret a => rfl
  | act l f k ih => simp only [bind_act, ih]

/-- One atomic action as a program. -/
def atomic (l : L) (f : σ → Option (α × σ)) : Prog L σ α := .act l f .ret

/-- The returned value, if the program has returned. -/
def result? : Prog L σ α → Option α
  | .ret a => some a
  | .act .. => none

@[simp] lemma result?_ret (a : α) : (Prog.ret a : Prog L σ α).result? = some a := rfl

@[simp] lemma result?_act {δ : Type} (l : L) (f : σ → Option (δ × σ)) (k : δ → Prog L σ α) :
    (Prog.act l f k).result? = none := rfl

lemma eq_ret_of_result? {p : Prog L σ α} {a : α} (h : p.result? = some a) : p = .ret a := by
  cases p with
  | ret b => simpa using h
  | act l f k => simp at h

end Prog

/-- A pool: the shared state and what is left of every thread's program. -/
structure Config (L σ α : Type) : Type 1 where
  shared : σ
  threads : Tid → Prog L σ α

section Run

variable {L σ α : Type}

/-- One step of a pool: an enabled action of one thread, taken in a state where `ok` admits it,
or a move of the environment. -/
inductive Step (env : σ → σ → Prop) (ok : Tid → L → σ → Prop) :
    Config L σ α → Config L σ α → Prop where
  | run {c : Config L σ α} (t : Tid) {β : Type} {l : L} {f : σ → Option (β × σ)}
      {k : β → Prog L σ α} {b : β} {s' : σ} (hp : c.threads t = .act l f k)
      (hok : ok t l c.shared) (hf : f c.shared = some (b, s')) :
      Step env ok c ⟨s', Function.update c.threads t (k b)⟩
  | env {c : Config L σ α} {s' : σ} (h : env c.shared s') : Step env ok c ⟨s', c.threads⟩

/-- The pools a run leads to. -/
def Reaches (env : σ → σ → Prop) (ok : Tid → L → σ → Prop) :
    Config L σ α → Config L σ α → Prop :=
  Relation.ReflTransGen (Step env ok)

/-- The condition that admits every step. -/
def Always : Tid → L → σ → Prop := fun _ _ _ => True

/-- A run under a condition is a run under any weaker one. -/
lemma Reaches.mono {env : σ → σ → Prop} {ok ok' : Tid → L → σ → Prop}
    (hok : ∀ t l s, ok t l s → ok' t l s) {c c' : Config L σ α} (h : Reaches env ok c c') :
    Reaches env ok' c c' := by
  refine Relation.ReflTransGen.mono (fun a b hab => ?_) _ _ h
  cases hab with
  | run t hp ho hf => exact .run t hp (hok _ _ _ ho) hf
  | env he => exact .env he

/-- A thread that has returned stays so. -/
lemma Reaches.ret {env : σ → σ → Prop} {ok : Tid → L → σ → Prop} {c c' : Config L σ α} {t : Tid}
    {a : α} (h : Reaches env ok c c') (ht : c.threads t = .ret a) : c'.threads t = .ret a := by
  induction h with
  | refl => exact ht
  | tail _ hstep ih =>
    cases hstep with
    | run u hp ho hf =>
      have hu : t ≠ u := by
        rintro rfl
        rw [ih] at hp
        cases hp
      exact (Function.update_of_ne hu _ _).trans ih
    | env he => exact ih

/-- One move of a schedule: a thread's next action, or a function the environment applies. -/
inductive Move (σ : Type) where
  | thread (t : Tid)
  | env (g : σ → σ)

instance (t : Tid) (l : L) (s : σ) : Decidable (Always t l s) := instDecidableTrue

section Exec

variable (ok : Tid → L → σ → Prop) [∀ t l s, Decidable (ok t l s)]

/-- The next action of thread `t`, if there is one, `ok` admits it and it is enabled. -/
def Config.next (c : Config L σ α) (t : Tid) : Option (Config L σ α) :=
  match c.threads t with
  | .ret _ => none
  | .act l f k =>
    if ok t l c.shared then
      (f c.shared).map fun r => ⟨r.2, Function.update c.threads t (k r.1)⟩
    else none

/-- Run a pool under a schedule. -/
def exec (c : Config L σ α) : List (Move σ) → Option (Config L σ α)
  | [] => some c
  | .thread t :: ms => (c.next ok t).bind fun c' => exec c' ms
  | .env g :: ms => exec ⟨g c.shared, c.threads⟩ ms

end Exec

variable {env : σ → σ → Prop} {ok : Tid → L → σ → Prop} [∀ t l s, Decidable (ok t l s)]

/-- The next action of a thread is a step. -/
lemma Config.next_step {c c' : Config L σ α} {t : Tid} (h : c.next ok t = some c') :
    Step env ok c c' := by
  unfold Config.next at h
  cases hp : c.threads t with
  | ret a => simp [hp] at h
  | act l f k =>
    rw [hp] at h
    dsimp only at h
    split at h
    · rename_i hok
      obtain ⟨⟨b, s'⟩, hf, rfl⟩ := Option.map_eq_some_iff.mp h
      exact .run t hp hok hf
    · simp at h

/-- **A computed schedule is a run**, where the environment's functions are moves it may make. -/
theorem exec_reaches :
    ∀ {ms : List (Move σ)} {c c' : Config L σ α},
      (∀ g, Move.env g ∈ ms → ∀ s, env s (g s)) → exec ok c ms = some c' → Reaches env ok c c'
  | [], c, c', _, h => by
    simp only [exec, Option.some.injEq] at h
    rw [h]
    exact Relation.ReflTransGen.refl
  | .thread t :: ms, c, c', hg, h => by
    simp only [exec, Option.bind_eq_some_iff] at h
    obtain ⟨d, hd, h⟩ := h
    exact .head (Config.next_step hd)
      (exec_reaches (fun g hm => hg g (List.mem_cons_of_mem _ hm)) h)
  | .env g :: ms, c, c', hg, h => by
    simp only [exec] at h
    exact .head (.env (hg g List.mem_cons_self c.shared))
      (exec_reaches (fun g hm => hg g (List.mem_cons_of_mem _ hm)) h)

/-- A thread that a schedule does not name is as it was. -/
lemma exec_threads_of_notMem {ms : List (Move σ)} {c c' : Config L σ α} {t : Tid}
    (h : exec ok c ms = some c') (ht : Move.thread t ∉ ms) : c'.threads t = c.threads t := by
  induction ms generalizing c with
  | nil =>
    obtain rfl := Option.some.inj h
    rfl
  | cons m ms ih =>
    obtain ⟨hm, hms⟩ := not_or.mp (fun hmem => ht (List.mem_cons.mpr hmem))
    cases m with
    | env g =>
      have hc : c'.threads t = (⟨g c.shared, c.threads⟩ : Config L σ α).threads t := ih h hms
      exact hc
    | thread u =>
      obtain ⟨d, hd, h⟩ := Option.bind_eq_some_iff.mp h
      rw [ih h hms]
      unfold Config.next at hd
      split at hd
      · cases hd
      · split at hd
        · obtain ⟨r, -, rfl⟩ := Option.map_eq_some_iff.mp hd
          have htu : t ≠ u := fun htu => hm (by rw [htu])
          exact Function.update_of_ne htu _ _
        · cases hd

/-- A schedule after which `p` holds gives a run that ends where `p` holds. -/
theorem exists_reaches_of_exec (env : σ → σ → Prop) (ok : Tid → L → σ → Prop)
    [∀ t l s, Decidable (ok t l s)] (ms : List (Move σ)) {c : Config L σ α}
    {p : Config L σ α → Bool} (hg : ∀ g, Move.env g ∈ ms → ∀ s, env s (g s))
    (h : (exec ok c ms).any p = true) : ∃ c', Reaches env ok c c' ∧ p c' = true := by
  cases hc : exec ok c ms with
  | none => simp [hc] at h
  | some c' => exact ⟨c', exec_reaches hg hc, by simpa [hc] using h⟩

end Run

end Concurrency
