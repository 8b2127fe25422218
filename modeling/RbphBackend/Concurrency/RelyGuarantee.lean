import Mathlib.Tactic.Basic
import RbphBackend.Concurrency.Program

set_option relaxedAutoImplicit false
set_option autoImplicit false

/-!
# Rely and guarantee for pools of programs

A thread is verified alone, against what the other threads may do between its actions (its
*rely*), and its own actions are shown to stay within a *guarantee*. If every thread's guarantee
is within what the others rely on, all of them keep their specifications in every interleaving,
and an invariant that every guarantee keeps holds in every state a run reaches.

## Main definitions

* `Concurrency.Prog.Sat` — from this state on, under the rely, every action of the program is
  within the guarantee and what it returns meets the postcondition. The guarantee may speak of
  what is left of the program after the action.
* `Concurrency.Prog.Triple` — `Sat` from every state that meets an assertion.
* `Concurrency.RelyGuarantee` — the relies, the guarantees and an invariant fit together.

## Main results

* `Concurrency.Prog.Triple.act`, `Concurrency.Prog.Triple.bind` — the rules for one action and
  for composition.
* `Concurrency.RelyGuarantee.reaches` — soundness for every interleaving.
-/

namespace Concurrency

section Sat

variable {L σ α β : Type}

/-- From state `s` on, whatever the others do within the rely `R`: every action of the program
that runs where `ok` admits it is within the guarantee `Φ`, and a returned value meets `Q`. -/
def Prog.Sat (R : σ → σ → Prop) (ok : L → σ → Prop) (Φ : L → σ → σ → Prog L σ α → Prop)
    (Q : α → σ → Prop) : Prog L σ α → σ → Prop
  | .ret a, s => ∀ s₁, R s s₁ → Q a s₁
  | .act l f k, s => ∀ s₁, R s s₁ → ok l s₁ → ∀ b s₂, f s₁ = some (b, s₂) →
      Φ l s₁ s₂ (k b) ∧ (k b).Sat R ok Φ Q s₂

/-- A guarantee that says nothing about what is left of the program. -/
def Plain (G : L → σ → σ → Prop) : L → σ → σ → Prog L σ α → Prop := fun l s s' _ => G l s s'

variable {R : σ → σ → Prop} {ok : L → σ → Prop} {Φ : L → σ → σ → Prog L σ α → Prop}
  {Q : α → σ → Prop}

/-- The others' moves keep a specification. -/
lemma Prog.Sat.of_rely (htrans : ∀ s₁ s₂ s₃, R s₁ s₂ → R s₂ s₃ → R s₁ s₃) {p : Prog L σ α}
    {s s' : σ} (h : p.Sat R ok Φ Q s) (hr : R s s') : p.Sat R ok Φ Q s' := by
  cases p with
  | ret a => exact fun s₁ h₁ => h s₁ (htrans _ _ _ hr h₁)
  | act l f k => exact fun s₁ h₁ => h s₁ (htrans _ _ _ hr h₁)

/-- What a returned value meets. -/
lemma Prog.Sat.result (hrefl : ∀ s, R s s) {a : α} {s : σ}
    (h : (Prog.ret a : Prog L σ α).Sat R ok Φ Q s) : Q a s := h s (hrefl s)

/-- Weakening of a specification, by induction on the program. -/
lemma Prog.Sat.mono {R' : σ → σ → Prop} {ok' : L → σ → Prop}
    {Φ' : L → σ → σ → Prog L σ α → Prop} {Q' : α → σ → Prop}
    (hR : ∀ s s', R' s s' → R s s') (hok : ∀ l s, ok' l s → ok l s)
    (hΦ : ∀ l s s' q, Φ l s s' q → Φ' l s s' q) (hQ : ∀ a s, Q a s → Q' a s)
    {p : Prog L σ α} {s : σ} (h : p.Sat R ok Φ Q s) : p.Sat R' ok' Φ' Q' s := by
  induction p generalizing s with
  | ret a => exact fun s₁ h₁ => hQ _ _ (h s₁ (hR _ _ h₁))
  | act l f k ih =>
    intro s₁ h₁ ho b s₂ hf
    obtain ⟨hstep, hk⟩ := h s₁ (hR _ _ h₁) (hok _ _ ho) b s₂ hf
    exact ⟨hΦ _ _ _ _ hstep, ih b hk⟩

/-- What the others' moves and the program's own keep holds at the end, too. -/
lemma Prog.Sat.frame {P : σ → Prop} (hR : ∀ s s', P s → R s s' → P s')
    (hΦ : ∀ l s s' q, Φ l s s' q → P s → P s') {p : Prog L σ α} {s : σ}
    (h : p.Sat R ok Φ Q s) (hP : P s) : p.Sat R ok Φ (fun a s => Q a s ∧ P s) s := by
  induction p generalizing s with
  | ret a => exact fun s₁ h₁ => ⟨h s₁ h₁, hR s s₁ hP h₁⟩
  | act l f k ih =>
    intro s₁ h₁ ho b s₂ hf
    obtain ⟨hstep, hk⟩ := h s₁ h₁ ho b s₂ hf
    exact ⟨hstep, ih b hk (hΦ _ _ _ _ hstep (hR s s₁ hP h₁))⟩

/-- The program meets its specification from every state where `A` holds. -/
def Prog.Triple (R : σ → σ → Prop) (ok : L → σ → Prop) (Φ : L → σ → σ → Prog L σ α → Prop)
    (A : σ → Prop) (p : Prog L σ α) (Q : α → σ → Prop) : Prop :=
  ∀ s, A s → p.Sat R ok Φ Q s

/-- An assertion the others' moves keep. -/
def Stable (R : σ → σ → Prop) (A : σ → Prop) : Prop := ∀ s s', A s → R s s' → A s'

lemma Stable.and {A B : σ → Prop} (hA : Stable R A) (hB : Stable R B) :
    Stable R fun s => A s ∧ B s :=
  fun s s' h hr => ⟨hA s s' h.1 hr, hB s s' h.2 hr⟩

lemma Stable.const (P : Prop) : Stable R fun _ => P := fun _ _ h _ => h

lemma Stable.exists {ι : Type} {A : ι → σ → Prop} (h : ∀ i, Stable R (A i)) :
    Stable R fun s => ∃ i, A i s := by
  rintro s s' ⟨i, hi⟩ hr
  exact ⟨i, h i s s' hi hr⟩

namespace Prog.Triple

variable {A : σ → Prop}

/-- A return needs a stable assertion that gives the postcondition. -/
lemma ret {a : α} (hA : Stable R A) (hQ : ∀ s, A s → Q a s) : Triple R ok Φ A (.ret a) Q :=
  fun s hs s₁ hr => hQ s₁ (hA s s₁ hs hr)

/-- **The rule of one action**: a stable assertion before it, the guarantee and a new assertion
after it. -/
lemma act {δ : Type} {l : L} {f : σ → Option (δ × σ)} {k : δ → Prog L σ α}
    (B : δ → σ → Prop) (hA : Stable R A)
    (hstep : ∀ s b s', A s → ok l s → f s = some (b, s') → Φ l s s' (k b) ∧ B b s')
    (hk : ∀ b, Triple R ok Φ (B b) (k b) Q) : Triple R ok Φ A (.act l f k) Q := by
  intro s hs s₁ hr ho b s₂ hf
  obtain ⟨hΦ, hB⟩ := hstep s₁ b s₂ (hA s s₁ hs hr) ho hf
  exact ⟨hΦ, hk b s₂ hB⟩

/-- Strengthening the assertion, weakening the postcondition. -/
lemma conseq {A' : σ → Prop} {Q' : α → σ → Prop} {p : Prog L σ α}
    (h : Triple R ok Φ A p Q) (hA : ∀ s, A' s → A s) (hQ : ∀ a s, Q a s → Q' a s) :
    Triple R ok Φ A' p Q' :=
  fun s hs => (h s (hA s hs)).mono (fun _ _ => id) (fun _ _ => id) (fun _ _ _ _ => id) hQ

/-- **The frame rule**: an assertion that the others' moves and the program's own keep. -/
lemma frame {P : σ → Prop} {p : Prog L σ α} (h : Triple R ok Φ A p Q) (hR : Stable R P)
    (hΦ : ∀ l s s' q, Φ l s s' q → P s → P s') :
    Triple R ok Φ (fun s => A s ∧ P s) p fun a s => Q a s ∧ P s :=
  fun s hs => (h s hs.1).frame hR hΦ hs.2

/-- **The rule of composition**. The first program's guarantee is a plain one, so that it holds
with whatever is left of the whole program. -/
lemma bind {G : L → σ → σ → Prop} {B : β → σ → Prop} {p : Prog L σ β}
    {k : β → Prog L σ α} (hp : Triple R ok (Plain G) A p B)
    (hG : ∀ l s s' q, G l s s' → Φ l s s' q) (hrefl : ∀ s, R s s)
    (hk : ∀ a, Triple R ok Φ (B a) (k a) Q) : Triple R ok Φ A (p.bind k) Q := by
  intro s hs
  have h := hp s hs
  clear hp hs
  induction p generalizing s with
  | ret a => exact hk a s (h s (hrefl s))
  | act l f k' ih =>
    intro s₁ hr ho b s₂ hf
    obtain ⟨hΦ, hb⟩ := h s₁ hr ho b s₂ hf
    exact ⟨hG _ _ _ _ hΦ, ih b s₂ hb⟩

end Prog.Triple

end Sat

section Pool

variable {L σ α : Type}

/-- The relies `R`, the guarantees `Φ` and the invariant `Inv` of a pool fit together: what one
thread guarantees every other relies on, and both the threads and the environment keep `Inv`. -/
structure RelyGuarantee (env : σ → σ → Prop) (ok : Tid → L → σ → Prop) (Inv : σ → Prop)
    (R : Tid → σ → σ → Prop) (Φ : Tid → L → σ → σ → Prog L σ α → Prop) : Prop where
  refl : ∀ t s, R t s s
  trans : ∀ t s₁ s₂ s₃, R t s₁ s₂ → R t s₂ s₃ → R t s₁ s₃
  guarantee : ∀ t u l s s' q, t ≠ u → Inv s → ok u l s → Φ u l s s' q → R t s s'
  interference : ∀ t s s', Inv s → env s s' → R t s s'
  inv_step : ∀ t l s s' q, Inv s → ok t l s → Φ t l s s' q → Inv s'
  inv_env : ∀ s s', Inv s → env s s' → Inv s'

/-- Every thread of the pool meets its specification and the invariant holds. -/
def Config.Good (ok : Tid → L → σ → Prop) (Inv : σ → Prop) (R : Tid → σ → σ → Prop)
    (Φ : Tid → L → σ → σ → Prog L σ α → Prop) (Q : Tid → α → σ → Prop)
    (c : Config L σ α) : Prop :=
  Inv c.shared ∧
    ∀ t, (c.threads t).Sat (R t) (fun l s => ok t l s ∧ Inv s) (Φ t) (Q t) c.shared

namespace RelyGuarantee

variable {env : σ → σ → Prop} {ok : Tid → L → σ → Prop} {Inv : σ → Prop}
  {R : Tid → σ → σ → Prop} {Φ : Tid → L → σ → σ → Prog L σ α → Prop}
  {Q : Tid → α → σ → Prop}

/-- One action of thread `t` of a good pool is within `t`'s guarantee and leaves a good pool. -/
lemma good_run (h : RelyGuarantee env ok Inv R Φ) {c : Config L σ α}
    (hc : c.Good ok Inv R Φ Q) {t : Tid} {β : Type} {l : L} {f : σ → Option (β × σ)}
    {k : β → Prog L σ α} {b : β} {s' : σ} (hp : c.threads t = .act l f k)
    (hok : ok t l c.shared) (hf : f c.shared = some (b, s')) :
    Φ t l c.shared s' (k b) ∧
      Config.Good ok Inv R Φ Q ⟨s', Function.update c.threads t (k b)⟩ := by
  obtain ⟨hinv, hsat⟩ := hc
  have ht := hsat t
  rw [hp] at ht
  obtain ⟨hΦ, hk⟩ := ht c.shared (h.refl t _) ⟨hok, hinv⟩ b s' hf
  refine ⟨hΦ, h.inv_step t l _ _ _ hinv hok hΦ, fun u => ?_⟩
  by_cases hu : u = t
  · subst hu
    simpa using hk
  · have hkeep := (hsat u).of_rely (h.trans u) (h.guarantee u t l _ _ _ hu hinv hok hΦ)
    simpa only [Function.update_of_ne hu] using hkeep

/-- A move of the environment leaves a good pool. -/
lemma good_env (h : RelyGuarantee env ok Inv R Φ) {c : Config L σ α}
    (hc : c.Good ok Inv R Φ Q) {s' : σ} (he : env c.shared s') :
    Config.Good ok Inv R Φ Q ⟨s', c.threads⟩ :=
  ⟨h.inv_env _ _ hc.1 he,
    fun u => (hc.2 u).of_rely (h.trans u) (h.interference u _ _ hc.1 he)⟩

/-- **Soundness**: the pools of a run are good. -/
theorem reaches (h : RelyGuarantee env ok Inv R Φ) {c c' : Config L σ α}
    (hc : c.Good ok Inv R Φ Q) (hr : Reaches env ok c c') : c'.Good ok Inv R Φ Q := by
  induction hr with
  | refl => exact hc
  | tail _ hstep ih =>
    cases hstep with
    | run t hp hok hf => exact (h.good_run ih hp hok hf).2
    | env he => exact h.good_env ih he

/-- What a thread that has returned guarantees about its result. -/
theorem result (h : RelyGuarantee env ok Inv R Φ) {c c' : Config L σ α}
    (hc : c.Good ok Inv R Φ Q) (hr : Reaches env ok c c') {t : Tid} {a : α}
    (ha : c'.threads t = .ret a) : Q t a c'.shared := by
  have ht := (h.reaches hc hr).2 t
  rw [ha] at ht
  exact ht.result (h.refl t)

end RelyGuarantee

end Pool

end Concurrency
