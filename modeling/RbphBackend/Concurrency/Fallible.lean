import RbphBackend.Concurrency.RelyGuarantee

set_option relaxedAutoImplicit false
set_option autoImplicit false

/-!
# Programs that may fail

Programs of atomic actions with early exit on error, written as `do` notation: a failed action
leaves the rest of the program unrun, as `?` does.

## Main definitions

* `Concurrency.Fallible` — programs that end with a result or with an error.
* `Concurrency.Post` — a postcondition by what holds of a result and what holds of an error.

## Main results

* `Concurrency.Fallible.bind_triple`, `Concurrency.Fallible.atomic_triple` — the rules.
-/

namespace Concurrency

/-- A program that ends with a result or with an error. -/
abbrev Fallible (L σ α : Type) : Type 1 := ExceptT String (Prog L σ) α

/-- A postcondition given by what holds of a result and what holds of an error. -/
def Post {σ α : Type} (B : α → σ → Prop) (F : String → σ → Prop) : Except String α → σ → Prop
  | .ok a => B a
  | .error e => F e

lemma stable_post {σ α : Type} {R : σ → σ → Prop} {B : α → σ → Prop} {F : String → σ → Prop}
    (hB : ∀ a, Stable R (B a)) (hF : ∀ e, Stable R (F e)) (r : Except String α) :
    Stable R (Post B F r) := by
  cases r with
  | ok a => exact hB a
  | error e => exact hF e

namespace Fallible

variable {L σ α β : Type} {R : σ → σ → Prop} {ok : L → σ → Prop} {A : σ → Prop}
  {F : String → σ → Prop}

/-- Composition is associative. -/
lemma bind_assoc {γ : Type} (p : Fallible L σ α) (k : α → Fallible L σ β)
    (k' : β → Fallible L σ γ) : (p >>= k) >>= k' = p >>= fun a => k a >>= k' := by
  show Prog.bind (Prog.bind p.run _) _ = Prog.bind p.run _
  rw [Prog.bind_assoc]
  congr 1
  funext r
  cases r <;> rfl

/-- Going on with a result and returning it does nothing. -/
lemma bind_pure (p : Fallible L σ α) : (p >>= fun a => pure a) = p := by
  have hret : (fun r => (ExceptT.bindCont pure r : Prog L σ (Except String α))) = .ret := by
    funext r
    cases r <;> rfl
  show Prog.bind p.run (ExceptT.bindCont pure) = p.run
  rw [show (ExceptT.bindCont pure : Except String α → Prog L σ (Except String α)) = .ret from hret,
    Prog.bind_ret_right]

/-- The rule of composition. -/
lemma bind_triple {Φ : L → σ → σ → Prog L σ (Except String β) → Prop} {G : L → σ → σ → Prop}
    {B : α → σ → Prop} {Q : Except String β → σ → Prop} {p : Fallible L σ α}
    {k : α → Fallible L σ β} (hp : Prog.Triple R ok (Plain G) A p.run (Post B F))
    (hG : ∀ l s s' q, G l s s' → Φ l s s' q) (hrefl : ∀ s, R s s)
    (hF : ∀ e s s', F e s → R s s' → Q (.error e) s')
    (hk : ∀ a, Prog.Triple R ok Φ (B a) (k a).run Q) :
    Prog.Triple R ok Φ A (p >>= k).run Q := by
  refine Prog.Triple.bind hp hG hrefl fun r => ?_
  cases r with
  | ok a => exact hk a
  | error e => exact fun s hs s' hr => hF e s s' hs hr

/-- A program that has returned. -/
lemma pure_triple {Φ : L → σ → σ → Prog L σ (Except String α) → Prop}
    {Q : Except String α → σ → Prop} {a : α} (hA : Stable R A) (hQ : ∀ s, A s → Q (.ok a) s) :
    Prog.Triple R ok Φ A (pure a : Fallible L σ α).run Q := Prog.Triple.ret hA hQ

/-- A program that has failed. -/
lemma throw_triple {Φ : L → σ → σ → Prog L σ (Except String α) → Prop}
    {Q : Except String α → σ → Prop} {e : String} (hA : Stable R A)
    (hQ : ∀ s, A s → Q (.error e) s) : Prog.Triple R ok Φ A (throw e : Fallible L σ α).run Q :=
  Prog.Triple.ret hA hQ

/-- One atomic action: the guarantee and a stable postcondition. -/
lemma atomic_triple {l : L} {f : σ → Option (Except String α × σ)} {G : L → σ → σ → Prop}
    {Q : Except String α → σ → Prop} (hA : Stable R A) (hQ : ∀ r, Stable R (Q r))
    (h : ∀ s r s', A s → ok l s → f s = some (r, s') → G l s s' ∧ Q r s') :
    Prog.Triple R ok (Plain G) A (ExceptT.mk (Prog.atomic l f) : Fallible L σ α).run Q :=
  Prog.Triple.act Q hA h fun r => Prog.Triple.ret (hQ r) fun _ h => h

end Fallible

end Concurrency
