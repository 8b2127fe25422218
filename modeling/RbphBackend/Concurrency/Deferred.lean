import Mathlib.Data.List.Infix
import RbphBackend.Concurrency.Fallible

set_option relaxedAutoImplicit false
set_option autoImplicit false

/-!
# Transactions on a value

A store at isolation level READ COMMITTED whose committed state is one value. What a transaction
has written so far is a function on such values: the transaction sees what is committed now with its
own writes applied, and its commit applies them to what is committed then. Statements may wait for
locks, which are held until the transaction ends. `ReadCommitted` is the same for a store of rows;
here the statements read and write whole tables.

## Main definitions

* `Deferred.Store` — the store; `Deferred.Store.since` — what has been committed since.
* `Deferred.Call` — programs of sessions; `Deferred.read`, `Deferred.query`, `Deferred.transaction` —
  their actions.
* `Deferred.Guards` — what only the holder of a lock may commit.
* `Deferred.Others` — what a session relies on; `Deferred.Conducts` — what it guarantees.
* `Deferred.InTx`, `Deferred.NoTx` — a session's transaction is open, with these writes; it has none.

## Main results

* `Deferred.query_triple`, `Deferred.transaction_triple`, `Deferred.read_triple` — the rules.
* `Deferred.relyGuarantee` — such sessions form a sound pool.
-/

namespace Deferred

open Concurrency

/-- The store: what is committed, the writes of the open transactions, the holders of the locks,
and all that has been committed. `history` is only written. -/
structure Store (D K : Type) where
  committed : D
  draft : Tid → Option (D → D)
  holder : K → Option Tid
  history : List D

/-- The store in which nothing is going on. -/
def Store.idle {D K : Type} (d : D) : Store D K := ⟨d, fun _ => none, fun _ => none, []⟩

variable {D K L α β : Type}

/-! ## The actions -/

namespace Store

variable (t : Tid) (s : Store D K)

/-- The store without the transaction of session `t`. -/
def release : Store D K :=
  { s with
    draft := Function.update s.draft t none
    holder := fun k => if s.holder k = some t then none else s.holder k }

/-- The store after a statement of session `t` that leaves the writes `f`. -/
def write [DecidableEq K] (locks : List K) (f : D → D) : Store D K :=
  { s with
    draft := Function.update s.draft t (some f)
    holder := fun k => if k ∈ locks then some t else s.holder k }

/-- The store after session `t` has committed the writes `f`. -/
def apply (f : D → D) : Store D K :=
  { s.release t with
    committed := f s.committed
    history := s.history ++ [f s.committed] }

/-- Open a transaction. -/
def beginTx [DecidableEq K] : Option (Except String Unit × Store D K) :=
  match s.draft t with
  | some _ => none
  | none => some (.ok (), s.write t [] id)

/-- Run a statement, which waits for its locks; where it fails the transaction is aborted. -/
def query [DecidableEq K] (locks : List K) (stmt : D → Except String (β × (D → D))) :
    Option (Except String β × Store D K) :=
  match s.draft t with
  | none => some (.error "no open transaction", s)
  | some f =>
    if ∀ k ∈ locks, s.holder k = none ∨ s.holder k = some t then
      match stmt (f s.committed) with
      | .error e => some (.error e, s.release t)
      | .ok (b, g) => some (.ok b, s.write t locks (g ∘ f))
    else none

/-- Commit the transaction. -/
def commitTx : Option (Except String Unit × Store D K) :=
  match s.draft t with
  | none => some (.error "no open transaction", s)
  | some f => some (.ok (), s.apply t f)

/-- Drop the transaction. -/
def rollbackTx : Option (Except String Unit × Store D K) := some (.ok (), s.release t)

end Store

/-! ## The programs -/

/-- The program of a session. -/
abbrev Call (L D K α : Type) : Type 1 := Fallible L (Store D K) α

/-- A `SELECT` outside any transaction. -/
def read (l : L) (f : D → α) : Call L D K α :=
  ExceptT.mk (.atomic l fun s => some (.ok (f s.committed), s))

section Session

variable (t : Tid) (l : L)

/-- A statement in the transaction of session `t`. -/
def query [DecidableEq K] (locks : List K) (stmt : D → Except String (β × (D → D))) : Call L D K β :=
  ExceptT.mk (.atomic l fun s => s.query t locks stmt)

def beginTx [DecidableEq K] : Call L D K Unit := ExceptT.mk (.atomic l fun s => s.beginTx t)

def commit : Call L D K Unit := ExceptT.mk (.atomic l fun s => s.commitTx t)

def rollback : Call L D K Unit := ExceptT.mk (.atomic l fun s => s.rollbackTx t)

/-- End a transaction as its body says: commit it where the body asks for it, drop it where the
body does not or has ended with an error. -/
def finish : Except String (Bool × α) → Call L D K α
  | .ok (true, a) => do commit t l; return a
  | .ok (false, a) => do rollback t l; return a
  | .error e => do rollback t l; throw e

/-- Open a transaction, run `body` in it and end it. -/
def transaction [DecidableEq K] (body : Call L D K (Bool × α)) : Call L D K α := do
  beginTx t l
  ExceptT.mk (body.run.bind fun r => (finish t l r).run)

end Session

/-! ## What has been committed -/

/-- The store `s'` is a later one: more has been committed. -/
def Later (s s' : Store D K) : Prop :=
  ∃ l, s'.history = s.history ++ l ∧ s'.committed = l.getLast?.getD s.committed

/-- What was committed in store `s`, and all that has been committed from there to `s'`. -/
def Store.since (s s' : Store D K) : List D := s.committed :: s'.history.drop s.history.length

namespace Later

variable {s s₁ s₂ s' : Store D K}

lemma of_eq (hc : s'.committed = s.committed) (hh : s'.history = s.history) : Later s s' :=
  ⟨[], by simpa using hh, hc⟩

lemma refl (s : Store D K) : Later s s := of_eq rfl rfl

lemma trans (h : Later s s₁) (h' : Later s₁ s₂) : Later s s₂ := by
  obtain ⟨l, hh, hc⟩ := h
  obtain ⟨l', hh', hc'⟩ := h'
  refine ⟨l ++ l', by rw [hh', hh, List.append_assoc], ?_⟩
  rw [hc', hc, List.getLast?_append]
  cases l'.getLast? <;> rfl

/-- What is committed in between. -/
lemma mem_since (h : Later s s') : s'.committed ∈ s.since s' := by
  obtain ⟨l, hh, hc⟩ := h
  rw [Store.since, hh, List.drop_left, hc]
  cases hl : l.getLast? with
  | none => exact List.mem_cons_self
  | some d => exact List.mem_cons_of_mem _ (List.mem_of_getLast? hl)

/-- What has been committed until a store has been committed until a later one. -/
lemma since_subset (h : Later s s₁) (h' : Later s₁ s') : s.since s₁ ⊆ s.since s' := by
  obtain ⟨l, hh, -⟩ := h
  obtain ⟨l', hh', -⟩ := h'
  rw [Store.since, Store.since, hh', hh, List.append_assoc, List.drop_left, List.drop_left]
  exact List.cons_subset_cons _ (List.subset_append_left l l')

/-- What has been committed, with what was at first. -/
lemma cons_subset (h : Later s s') (d : D) : d :: s.history ⊆ d :: s'.history := by
  obtain ⟨l, hh, -⟩ := h
  rw [hh]
  exact List.cons_subset_cons _ (List.subset_append_left _ l)

end Later

lemma Store.apply_later (t : Tid) (s : Store D K) (f : D → D) : Later s (s.apply t f) :=
  ⟨[f s.committed], rfl, rfl⟩

/-! ## What a session knows -/

/-- How what a lock guards may change by what is committed without holding it. -/
structure Guards (D K : Type) where
  rel : K → D → D → Prop
  refl : ∀ k d, rel k d d
  trans : ∀ k d₁ d₂ d₃, rel k d₁ d₂ → rel k d₂ d₃ → rel k d₁ d₃

/-- What session `t` relies on: the others leave its transaction and its locks alone, and what its
locks guard. -/
structure Others (G : Guards D K) (t : Tid) (s s' : Store D K) : Prop where
  later : Later s s'
  draft : s'.draft t = s.draft t
  held : ∀ k, s'.holder k = some t ↔ s.holder k = some t
  guarded : ∀ k, s.holder k = some t → G.rel k s.committed s'.committed

/-- What session `t` guarantees, with an invariant of what has been committed. -/
structure Conducts (G : Guards D K) (I : D → List D → Prop) (t : Tid) (s s' : Store D K) :
    Prop where
  later : Later s s'
  others : ∀ u, u ≠ t → Others G u s s'
  inv : I s'.committed s'.history

/-- Session `t` has no open transaction. -/
def NoTx (t : Tid) (s : Store D K) : Prop := s.draft t = none

/-- Session `t` has an open transaction, whose writes meet `A`. -/
def InTx (t : Tid) (A : (D → D) → Store D K → Prop) (s : Store D K) : Prop :=
  ∃ f, s.draft t = some f ∧ A f s

section Rules

variable {G : Guards D K} {I : D → List D → Prop} {t : Tid}

namespace Others

lemma refl (s : Store D K) : Others G t s s :=
  ⟨.refl s, rfl, fun _ => Iff.rfl, fun k _ => G.refl k _⟩

lemma trans {s₁ s₂ s₃ : Store D K} (h : Others G t s₁ s₂) (h' : Others G t s₂ s₃) :
    Others G t s₁ s₃ where
  later := h.later.trans h'.later
  draft := h'.draft.trans h.draft
  held k := (h'.held k).trans (h.held k)
  guarded k hk := G.trans k _ _ _ (h.guarded k hk) (h'.guarded k ((h.held k).mpr hk))

end Others

lemma stable_noTx : Stable (Others G t) (NoTx t) := fun _ _ h hr => hr.draft.trans h

lemma stable_inTx {A : (D → D) → Store D K → Prop} (hA : ∀ f, Stable (Others G t) (A f)) :
    Stable (Others G t) (InTx t A) := by
  rintro s s' ⟨f, hf, h⟩ hr
  exact ⟨f, hr.draft.trans hf, hA f s s' h hr⟩

/-- What changes only the draft and the locks of session `t`. -/
lemma Conducts.of_own {s s' : Store D K} (hinv : I s.committed s.history)
    (hc : s'.committed = s.committed) (hh : s'.history = s.history)
    (hdraft : ∀ u, u ≠ t → s'.draft u = s.draft u)
    (hheld : ∀ u, u ≠ t → ∀ k, s'.holder k = some u ↔ s.holder k = some u) :
    Conducts G I t s s' where
  later := .of_eq hc hh
  others u hu := ⟨.of_eq hc hh, hdraft u hu, hheld u hu, fun k _ => by rw [hc]; exact G.refl k _⟩
  inv := by rw [hc, hh]; exact hinv

/-- Another session holds the same locks after a transaction has ended. -/
private lemma release_held {s : Store D K} {u : Tid} (hu : u ≠ t) (k : K) :
    (s.release t).holder k = some u ↔ s.holder k = some u := by
  by_cases hk : s.holder k = some t
  · have hne : s.holder k ≠ some u := fun h => hu (Option.some.inj (h.symm.trans hk))
    simp only [Store.release, if_pos hk, hne, reduceCtorEq]
  · simp only [Store.release, if_neg hk]

lemma release_conducts {s : Store D K} (hinv : I s.committed s.history) :
    Conducts G I t s (s.release t) :=
  .of_own hinv rfl rfl (fun _ hu => Function.update_of_ne hu _ _) fun _ hu => release_held hu

/-- **A commit**: its writes change only what the session's locks guard, and keep the invariant. -/
lemma apply_conducts {s : Store D K} {f : D → D}
    (hguard : ∀ k, s.holder k ≠ some t → G.rel k s.committed (f s.committed))
    (hinv : I (f s.committed) (s.history ++ [f s.committed])) : Conducts G I t s (s.apply t f) where
  later := s.apply_later t f
  others _ hu := {
    later := s.apply_later t f
    draft := Function.update_of_ne hu _ _
    held := release_held hu
    guarded := fun k hk => hguard k fun h => hu (Option.some.inj (hk.symm.trans h)) }
  inv := hinv

variable [DecidableEq K]

/-- A statement gives no lock back. -/
lemma Store.write_held {s : Store D K} {locks : List K} {f : D → D} {k : K}
    (h : s.holder k = some t) : (s.write t locks f).holder k = some t := by
  by_cases hk : k ∈ locks
  · exact if_pos hk
  · exact (if_neg hk).trans h

/-- The locks of a statement are held after it. -/
lemma Store.write_holder {s : Store D K} {locks : List K} {f : D → D} {k : K} (h : k ∈ locks) :
    (s.write t locks f).holder k = some t := if_pos h

lemma write_conducts {s : Store D K} {locks : List K} {f : D → D} (hinv : I s.committed s.history)
    (hfree : ∀ k ∈ locks, s.holder k = none ∨ s.holder k = some t) :
    Conducts G I t s (s.write t locks f) := by
  refine .of_own hinv rfl rfl (fun _ hu => Function.update_of_ne hu _ _) fun _ hu k => ?_
  by_cases hk : k ∈ locks
  · simp only [Store.write, if_pos hk, Option.some.injEq, hu.symm, false_iff]
    intro h
    rcases hfree k hk with hnone | hself
    · rw [hnone] at h
      cases h
    · exact hu (Option.some.inj (h.symm.trans hself))
  · simp only [Store.write, if_neg hk]

end Rules

/-! ## The rules -/

/-- A triple of a program of session `t`, whose errors are not spoken of. -/
abbrev CallTriple (G : Guards D K) (I : D → List D → Prop) (ok : L → Store D K → Prop) (t : Tid)
    (A : Store D K → Prop) (p : Call L D K α) (B : α → Store D K → Prop) : Prop :=
  Prog.Triple (Others G t) (fun l s => ok l s ∧ I s.committed s.history)
    (Plain fun _ => Conducts G I t) A p.run (Post B fun _ _ => True)

namespace CallTriple

variable {G : Guards D K} {I : D → List D → Prop} {ok : L → Store D K → Prop} {t : Tid}
  {A : Store D K → Prop} {B : α → Store D K → Prop}

/-- The rule of composition. -/
lemma bind {C : β → Store D K → Prop} {p : Call L D K α} {k : α → Call L D K β}
    (hp : CallTriple G I ok t A p B) (hk : ∀ a, CallTriple G I ok t (B a) (k a) C) :
    CallTriple G I ok t A (p >>= k) C :=
  Fallible.bind_triple hp (fun _ _ _ _ h => h) Others.refl (fun _ _ _ _ _ => trivial) hk

lemma pure {a : α} (hA : Stable (Others G t) A) (h : ∀ s, A s → B a s) :
    CallTriple G I ok t A (Pure.pure a) B := Fallible.pure_triple hA h

lemma throw {e : String} : CallTriple G I ok t A (MonadExcept.throw e : Call L D K α) B :=
  fun _ _ _ _ => trivial

lemma weaken {A' : Store D K → Prop} {p : Call L D K α} (h : CallTriple G I ok t A p B)
    (hA : ∀ s, A' s → A s) : CallTriple G I ok t A' p B := fun s hs => h s (hA s hs)

lemma post {B' : α → Store D K → Prop} {p : Call L D K α} (h : CallTriple G I ok t A p B)
    (hB : ∀ a s, B a s → B' a s) : CallTriple G I ok t A p B' := by
  refine h.conseq (fun _ h => h) fun r s hr => ?_
  cases r with
  | ok a => exact hB a s hr
  | error e => trivial

end CallTriple

section Rules

variable {G : Guards D K} {I : D → List D → Prop} {ok : L → Store D K → Prop} {t : Tid} {l : L}

private lemma stable_post {B : α → Store D K → Prop} (hB : ∀ a, Stable (Others G t) (B a))
    (r : Except String α) : Stable (Others G t) (Post B (fun _ _ => True) r) :=
  Concurrency.stable_post hB (fun _ => Stable.const True) r

/-- The rule of a read outside any transaction. -/
lemma read_triple {A : Store D K → Prop} {B : α → Store D K → Prop} {f : D → α}
    (hA : Stable (Others G t) A) (hB : ∀ a, Stable (Others G t) (B a))
    (h : ∀ s, A s → ok l s → I s.committed s.history → B (f s.committed) s) :
    CallTriple G I ok t A (read l f) B := by
  refine Fallible.atomic_triple hA (stable_post hB) ?_
  rintro s r s' hs ⟨hok, hinv⟩ hf
  obtain ⟨rfl, rfl⟩ := Prod.mk.inj (Option.some.inj hf)
  exact ⟨⟨.refl s, fun _ _ => .refl s, hinv⟩, h s hs hok hinv⟩

variable [DecidableEq K]

/-- **The rule of a statement**: what has been written before it, and what is written after it. -/
lemma query_triple {A : (D → D) → Store D K → Prop} {B : β → (D → D) → Store D K → Prop}
    {locks : List K} {stmt : D → Except String (β × (D → D))}
    (hA : ∀ f, Stable (Others G t) (A f)) (hB : ∀ b f, Stable (Others G t) (B b f))
    (h : ∀ s f b g, A f s → I s.committed s.history → stmt (f s.committed) = .ok (b, g) →
      B b (g ∘ f) (s.write t locks (g ∘ f))) :
    CallTriple G I ok t (InTx t A) (query t l locks stmt) fun b => InTx t (B b) := by
  refine Fallible.atomic_triple (stable_inTx hA) (stable_post fun b => stable_inTx (hB b)) ?_
  rintro s r s' ⟨f, hf, hs⟩ ⟨-, hinv⟩ hq
  simp only [Store.query, hf] at hq
  split at hq
  · rename_i hfree
    cases hstmt : stmt (f s.committed) with
    | error e =>
      rw [hstmt] at hq
      obtain ⟨rfl, rfl⟩ := Prod.mk.inj (Option.some.inj hq)
      exact ⟨release_conducts hinv, trivial⟩
    | ok eff =>
      rw [hstmt] at hq
      obtain ⟨rfl, rfl⟩ := Prod.mk.inj (Option.some.inj hq)
      exact ⟨write_conducts hinv hfree, _, Function.update_self .., h s f _ _ hs hinv hstmt⟩
  · cases hq

/-- **The rule of a transaction**: where its body asks for a commit, what it has written changes
only what its locks guard, and keeps the invariant. -/
lemma transaction_triple {B : Bool × α → (D → D) → Store D K → Prop}
    {body : Call L D K (Bool × α)}
    (hbody : CallTriple G I ok t (InTx t fun f _ => f = id) body fun r => InTx t (B r))
    (hB : ∀ r f, Stable (Others G t) (B r f))
    (hcommit : ∀ s f a, B (true, a) f s → I s.committed s.history →
      (∀ k, s.holder k ≠ some t → G.rel k s.committed (f s.committed)) ∧
        I (f s.committed) (s.history ++ [f s.committed])) :
    CallTriple G I ok t (NoTx t) (transaction t l body) fun _ _ => True := by
  have htrue : ∀ {γ : Type} (r : Except String γ),
      Stable (Others G t) (Post (fun _ _ => True) (fun _ _ => True) r : Store D K → Prop) :=
    fun r => stable_post (fun _ => Stable.const True) r
  have hrollback : CallTriple G I ok t (fun _ => True) (rollback t l) fun _ _ => True := by
    refine Fallible.atomic_triple (Stable.const True) htrue ?_
    rintro s r s' - ⟨-, hinv⟩ hf
    obtain ⟨rfl, rfl⟩ := Prod.mk.inj (Option.some.inj hf)
    exact ⟨release_conducts hinv, trivial⟩
  have hbegin : CallTriple G I ok t (NoTx t) (beginTx t l) fun _ => InTx t fun f _ => f = id := by
    refine Fallible.atomic_triple stable_noTx
      (stable_post fun _ => stable_inTx fun _ => Stable.const _) ?_
    rintro s r s' hs ⟨-, hinv⟩ hf
    rw [NoTx] at hs
    simp only [Store.beginTx, hs] at hf
    obtain ⟨rfl, rfl⟩ := Prod.mk.inj (Option.some.inj hf)
    exact ⟨write_conducts hinv (by simp), id, Function.update_self .., rfl⟩
  have hdone : ∀ a : α, CallTriple G I ok t (fun _ => True) (Pure.pure a : Call L D K α)
      fun _ _ => True := fun a => .pure (Stable.const True) fun _ _ => trivial
  refine hbegin.bind fun _ => Prog.Triple.bind hbody (fun _ _ _ _ h => h) Others.refl fun r => ?_
  rcases r with e | ⟨_ | _, a⟩
  · exact hrollback.bind fun _ => .throw
  · exact (hrollback.weaken fun _ _ => trivial).bind fun _ => hdone a
  · refine CallTriple.bind (B := fun _ _ => True) ?_ fun _ => hdone a
    refine Fallible.atomic_triple (stable_inTx (hB _)) htrue ?_
    rintro s r s' ⟨f, hf, hs⟩ ⟨-, hinv⟩ hq
    simp only [Store.commitTx, hf] at hq
    obtain ⟨rfl, rfl⟩ := Prod.mk.inj (Option.some.inj hq)
    obtain ⟨hguard, hinv'⟩ := hcommit s f a hs hinv
    exact ⟨apply_conducts hguard hinv', trivial⟩

end Rules

/-- **Sessions that conduct themselves form a sound pool**, with nothing that changes by itself. -/
theorem relyGuarantee (G : Guards D K) (I : D → List D → Prop) (ok : Tid → L → Store D K → Prop) :
    RelyGuarantee (α := α) (fun _ _ => False) ok (fun s => I s.committed s.history) (Others G)
      fun t _ s s' _ => Conducts G I t s s' where
  refl _ := Others.refl
  trans _ _ _ _ := Others.trans
  guarantee t _ _ _ _ _ hne _ _ h := h.others t hne
  interference _ _ _ _ := False.elim
  inv_step _ _ _ _ _ _ _ h := h.inv
  inv_env _ _ _ := False.elim

section Runs

variable {G : Guards D K} {I : D → List D → Prop} {ok : Tid → L → Store D K → Prop}
  {c c' : Config L (Store D K) (Except String α)}

/-- A run of calls from a store in which nothing is going on. -/
theorem good_of_reaches {calls : Tid → Call L D K α} {d : D}
    (hcalls : ∀ t, CallTriple G I (ok t) t (NoTx t) (calls t) fun _ _ => True) (hinv : I d [])
    (hr : Reaches (fun _ _ => False) ok ⟨.idle d, fun t => (calls t).run⟩ c) :
    c.Good ok (fun s => I s.committed s.history) (Others G) (fun t _ s s' _ => Conducts G I t s s')
      fun _ _ _ => True := by
  refine (relyGuarantee G I ok).reaches ⟨hinv, fun t => ?_⟩ hr
  exact (hcalls t (.idle d) rfl).mono (fun _ _ => id) (fun _ _ => id) (fun _ _ _ _ => id)
    fun _ _ _ => trivial

/-- **What a call returns**, from the moment it begins. -/
theorem returns_of_reaches {p : Call L D K α} {t : Tid} {A : Store D K → Prop}
    {B : α → Store D K → Prop} {a : α}
    (hgood : c.Good ok (fun s => I s.committed s.history) (Others G)
      (fun t _ s s' _ => Conducts G I t s s') fun _ _ _ => True)
    (hp : CallTriple G I (ok t) t A p B) (hbegun : c.threads t = p.run) (hA : A c.shared)
    (hr : Reaches (fun _ _ => False) ok c c') (hdone : c'.threads t = .ret (.ok a)) :
    B a c'.shared := by
  refine (relyGuarantee G I ok).result (c := c)
    (Q := fun u r s => u = t → Post B (fun _ _ => True) r s) ⟨hgood.1, fun u => ?_⟩ hr hdone rfl
  by_cases hu : u = t
  · subst hu
    rw [hbegun]
    exact (hp _ hA).mono (fun _ _ => id) (fun _ _ => id) (fun _ _ _ _ => id) fun _ _ h _ => h
  · exact (hgood.2 u).mono (fun _ _ => id) (fun _ _ => id) (fun _ _ _ _ => id)
      fun _ _ _ h => absurd h hu

end Runs

end Deferred
