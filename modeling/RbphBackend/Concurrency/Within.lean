import RbphBackend.Concurrency.Fallible

set_option relaxedAutoImplicit false
set_option autoImplicit false

/-!
# Programs on a part of the state

A program written for one part of a state runs on the whole state: its actions read and write the
part, and wait where the rest of the state does not let the part be written so.

## Main definitions

* `Concurrency.Part` — a part of a state, and which writes of it have to wait.
* `Concurrency.Prog.within`, `Concurrency.Fallible.within` — the program on the whole state.

## Main results

* `Concurrency.Fallible.within_bind` — composition is kept.
* `Concurrency.Fallible.within_atomic_triple` — the rule of one action.
-/

namespace Concurrency

/-- A part `τ` of the state `σ`; `free s b` says that the part of `s` may become `b`. -/
structure Part (σ τ : Type) where
  get : σ → τ
  set : τ → σ → σ
  free : σ → τ → Bool

section Prog

variable {L σ τ α β : Type}

/-- The program on the whole state. -/
def Prog.within (P : Part σ τ) : Prog L τ α → Prog L σ α
  | .ret a => .ret a
  | .act l f k => .act l
      (fun s => (f (P.get s)).bind fun r => if P.free s r.2 then some (r.1, P.set r.2 s) else none)
      fun b => (k b).within P

lemma Prog.within_bind (P : Part σ τ) (p : Prog L τ α) (k : α → Prog L τ β) :
    (p.bind k).within P = (p.within P).bind fun a => (k a).within P := by
  induction p with
  | ret a => rfl
  | act l f k' ih =>
    show Prog.act l _ _ = Prog.act l _ _
    congr 1
    funext b
    exact ih b

end Prog

namespace Fallible

variable {L σ τ α β : Type}

/-- The program on the whole state. -/
def within (P : Part σ τ) (p : Fallible L τ α) : Fallible L σ α := ExceptT.mk (p.run.within P)

lemma within_bind (P : Part σ τ) (p : Fallible L τ α) (k : α → Fallible L τ β) :
    within P (p >>= k) = within P p >>= fun a => within P (k a) := by
  show Prog.within P (Prog.bind p.run _) = Prog.bind (Prog.within P p.run) _
  rw [Prog.within_bind]
  congr 1
  funext r
  cases r <;> rfl

@[simp] lemma within_pure (P : Part σ τ) (a : α) :
    within P (pure a : Fallible L τ α) = pure a := rfl

/-- The rule of one action that is enabled wherever the part may be written. -/
lemma within_atomic_triple {P : Part σ τ} {R : σ → σ → Prop} {ok : L → σ → Prop} {A : σ → Prop}
    {l : L} {f : τ → Except String α × τ} {G : L → σ → σ → Prop}
    {Q : Except String α → σ → Prop} (hA : Stable R A) (hQ : ∀ r, Stable R (Q r))
    (h : ∀ s, A s → ok l s → P.free s (f (P.get s)).2 = true →
      G l s (P.set (f (P.get s)).2 s) ∧ Q (f (P.get s)).1 (P.set (f (P.get s)).2 s)) :
    Prog.Triple R ok (Plain G) A
      (within P (ExceptT.mk (.atomic l fun s => some (f s)) : Fallible L τ α)).run Q := by
  refine Prog.Triple.act Q hA (fun s r s' hs ho hf => ?_) fun r => Prog.Triple.ret (hQ r) fun _ h => h
  rw [Option.bind_some] at hf
  split at hf
  · rename_i hfree
    obtain ⟨rfl, rfl⟩ := Prod.mk.inj (Option.some.inj hf)
    exact h s hs ho hfree
  · simp at hf

end Fallible

end Concurrency
