import RbphBackend.Concurrency.Fallible

set_option relaxedAutoImplicit false
set_option autoImplicit false

/-!
# A program on its own

What a program does while no other thread acts: the sequential reading of a program, for what is
said of a call and not of its interleavings.

## Main definitions

* `Concurrency.Prog.alone` — the result and the state a program leaves.
* `Concurrency.Fallible.Never` — it does not return a value.
* `Concurrency.Fallible.LeavesRelated` — every state it leaves is related to the one it began in.

## Main results

* `Concurrency.Prog.alone_reaches` — it is one of the runs of a pool.
* `Concurrency.Prog.alone_bind`, `Concurrency.Fallible.alone_bind` — composition.
-/

namespace Concurrency

namespace Prog

variable {L σ α β : Type}

/-- What the program returns and leaves when no other thread acts, if every action is enabled when
it comes. -/
def alone : Prog L σ α → σ → Option (α × σ)
  | .ret a, s => some (a, s)
  | .act _ f k, s => (f s).bind fun r => (k r.1).alone r.2

@[simp] lemma alone_ret (a : α) (s : σ) : (Prog.ret a : Prog L σ α).alone s = some (a, s) := rfl

/-- Composition, by induction on the first program. -/
lemma alone_bind (p : Prog L σ α) (k : α → Prog L σ β) (s : σ) :
    (p.bind k).alone s = (p.alone s).bind fun r => (k r.1).alone r.2 := by
  induction p generalizing s with
  | ret a => rfl
  | act l f k' ih =>
    show (f s).bind _ = ((f s).bind _).bind _
    rw [Option.bind_assoc]
    congr 1
    funext r
    exact ih r.1 r.2

@[simp] lemma alone_atomic (l : L) (f : σ → Option (α × σ)) (s : σ) :
    (atomic l f).alone s = f s := by
  show (f s).bind (fun r => some (r.1, r.2)) = f s
  cases f s <;> rfl

/-- **A program on its own is a run** of any pool whose thread it is. -/
theorem alone_reaches {env : σ → σ → Prop} {t : Tid} {p : Prog L σ α} {a : α} {s s' : σ}
    {threads : Tid → Prog L σ α} (h : p.alone s = some (a, s')) :
    Reaches env Always ⟨s, Function.update threads t p⟩
      ⟨s', Function.update threads t (.ret a)⟩ := by
  induction p generalizing s with
  | ret b =>
    obtain ⟨rfl, rfl⟩ := Prod.mk.inj (Option.some.inj h)
    exact .refl
  | act l f k ih =>
    obtain ⟨⟨b, s₁⟩, hf, h⟩ := Option.bind_eq_some_iff.mp h
    have hstep : Step env Always ⟨s, Function.update threads t (.act l f k)⟩
        ⟨s₁, Function.update (Function.update threads t (.act l f k)) t (k b)⟩ :=
      .run t (Function.update_self t _ threads) trivial hf
    rw [Function.update_idem] at hstep
    exact .head hstep (ih b h)

end Prog

namespace Fallible

variable {L σ α β : Type}

/-- Composition: an error ends the program. -/
lemma alone_bind (p : Fallible L σ α) (k : α → Fallible L σ β) (s : σ) :
    (p >>= k).run.alone s = (p.run.alone s).bind fun r =>
      match r.1 with
      | .ok a => (k a).run.alone r.2
      | .error e => some (.error e, r.2) := by
  have h : (p >>= k).run = p.run.bind fun r =>
      match r with
      | .ok a => (k a).run
      | .error e => .ret (.error e) := by
    show Prog.bind _ _ = Prog.bind _ _
    congr 1
    funext r
    cases r <;> rfl
  rw [h, Prog.alone_bind]
  congr 1
  funext r
  obtain ⟨r, s'⟩ := r
  cases r <;> rfl

@[simp] lemma alone_pure (a : α) (s : σ) :
    (pure a : Fallible L σ α).run.alone s = some (.ok a, s) := rfl

@[simp] lemma alone_throw (e : String) (s : σ) :
    (throw e : Fallible L σ α).run.alone s = some (.error e, s) := rfl

@[simp] lemma alone_atomic (l : L) (f : σ → Option (Except String α × σ)) (s : σ) :
    (ExceptT.mk (Prog.atomic l f) : Fallible L σ α).run.alone s = f s := Prog.alone_atomic l f s

/-! ## What a program does not return -/

/-- On its own, the program does not return `a`. -/
def Never (p : Fallible L σ α) (a : α) : Prop := ∀ s s', p.run.alone s ≠ some (.ok a, s')

lemma Never.pure {a b : α} (h : b ≠ a) : Never (Pure.pure b : Fallible L σ α) a := by
  intro s s' heq
  exact h (Except.ok.inj (Prod.mk.inj (Option.some.inj heq)).1)

/-- The rule of composition. -/
lemma Never.bind {p : Fallible L σ β} {k : β → Fallible L σ α} {a : α} (hk : ∀ b, Never (k b) a) :
    Never (p >>= k) a := by
  intro s s' heq
  rw [alone_bind] at heq
  obtain ⟨⟨r, s₁⟩, -, heq⟩ := Option.bind_eq_some_iff.1 heq
  cases r with
  | ok b => exact hk b s₁ s' heq
  | error e => cases heq

/-! ## What a program keeps -/

/-- On its own, the program leaves a state related to the one it started from. -/
def LeavesRelated (K : σ → σ → Prop) (p : Fallible L σ α) : Prop :=
  ∀ s r s', p.run.alone s = some (r, s') → K s s'

namespace LeavesRelated

variable {K : σ → σ → Prop}

lemma pure (hrefl : ∀ s, K s s) (a : α) : LeavesRelated K (Pure.pure a : Fallible L σ α) := by
  intro s r s' h
  obtain ⟨-, rfl⟩ := Prod.mk.inj (Option.some.inj h)
  exact hrefl s

lemma throw (hrefl : ∀ s, K s s) (e : String) :
    LeavesRelated K (MonadExcept.throw e : Fallible L σ α) := by
  intro s r s' h
  obtain ⟨-, rfl⟩ := Prod.mk.inj (Option.some.inj h)
  exact hrefl s

lemma atomic {l : L} {f : σ → Option (Except String α × σ)}
    (h : ∀ s r s', f s = some (r, s') → K s s') :
    LeavesRelated K (ExceptT.mk (Prog.atomic l f) : Fallible L σ α) := by
  intro s r s' hs
  rw [alone_atomic] at hs
  exact h s r s' hs

/-- The rule of composition. -/
lemma bind (htrans : ∀ s₁ s₂ s₃, K s₁ s₂ → K s₂ s₃ → K s₁ s₃) {p : Fallible L σ α}
    {k : α → Fallible L σ β} (hp : LeavesRelated K p) (hk : ∀ a, LeavesRelated K (k a)) :
    LeavesRelated K (p >>= k) := by
  intro s r s' h
  rw [alone_bind] at h
  obtain ⟨⟨r₁, s₁⟩, h₁, h'⟩ := Option.bind_eq_some_iff.mp h
  cases r₁ with
  | ok a => exact htrans s s₁ s' (hp s _ s₁ h₁) (hk a s₁ r s' h')
  | error e =>
    obtain ⟨-, rfl⟩ := Prod.mk.inj (Option.some.inj h')
    exact hp s _ s₁ h₁

end LeavesRelated

end Fallible

end Concurrency
