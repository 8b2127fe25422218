import RbphBackend.Caching.Listed
import RbphBackend.Concurrency.RelyGuarantee
import RbphBackend.Expr.Compiler

set_option relaxedAutoImplicit false
set_option autoImplicit false

/-!
# The cache of compiled conditions

Conditions are compiled from their text wherever they are needed, so the results are kept, errors
included. The lock is taken for the lookup and again for the insertion, and not while a text is
compiled: several threads may compile the same text. When the cache is full, the texts that were
inserted first are dropped.

## Main definitions

* `Expr.CompileCache`, `Expr.compileCached` — `expr/mod.rs`.
* `Expr.CompileCache.Holds` — the queue lists the keys, and the values are results of compilation.
* `Expr.compilers` — threads that compile lists of texts.

## Main results

* `Expr.compileCached_of_reaches` — the cache stays within its capacity, and a thread gets the
  results of compilation.
-/

namespace Expr

open Concurrency Caching

def compileCacheCapacity : ℕ := 4096

variable {ε τ : Type}

/-- The results by their text, and the texts in the order of their insertion. -/
structure CompileCache (ε τ : Type) where
  values : AList fun _ : String => Except ε τ := ∅
  insertionOrder : List String := []

namespace CompileCache

def get (self : CompileCache ε τ) (expression : String) : Option (Except ε τ) :=
  self.values.lookup expression

/-- The loop of `insert`: the oldest texts are dropped while the cache is full. -/
def makeRoom (values : AList fun _ : String => Except ε τ) : List String → CompileCache ε τ
  | [] => ⟨values, []⟩
  | oldest :: rest =>
    if compileCacheCapacity ≤ values.keys.length then makeRoom (values.erase oldest) rest
    else ⟨values, oldest :: rest⟩

def insert (self : CompileCache ε τ) (expression : String) (compiled : Except ε τ) :
    Except ε τ × CompileCache ε τ :=
  match self.values.lookup expression with
  | some existing => (existing, self)
  | none =>
    let self := makeRoom self.values self.insertionOrder
    (compiled, ⟨self.values.insert expression compiled, self.insertionOrder ++ [expression]⟩)

end CompileCache

/-! ## The threads -/

/-- How the lock is taken. -/
inductive CacheLock where
  | read
  | write

section Compile

variable (compile : String → Except ε τ)

def compileCached (expression : String) : Prog CacheLock (CompileCache ε τ) (Except ε τ) := do
  match ← Prog.atomic .read fun cache => some (cache.get expression, cache) with
  | some compiled => return compiled
  | none =>
    let compiled := compile expression
    Prog.atomic .write fun cache => some (cache.insert expression compiled)

/-- A thread compiles some texts, one after the other. -/
def compileAll : List String → Prog CacheLock (CompileCache ε τ) (List (Except ε τ))
  | [] => return []
  | expression :: expressions => do
    let compiled ← compileCached compile expression
    let rest ← compileAll expressions
    return compiled :: rest

/-- The threads, with an empty cache. -/
def compilers (expressions : Tid → List String) :
    Config CacheLock (CompileCache ε τ) (List (Except ε τ)) :=
  ⟨{}, fun t => compileAll compile (expressions t)⟩

/-- The queue lists the keys, there are not too many, and the values are results of compilation. -/
structure CompileCache.Holds (cache : CompileCache ε τ) : Prop where
  listed : Lists cache.insertionOrder cache.values
  bounded : cache.values.keys.length ≤ compileCacheCapacity
  compiled : ∀ expression r, cache.values.lookup expression = some r → r = compile expression

end Compile

/-! ## The cache -/

section Cache

variable {compile : String → Except ε τ} {values : AList fun _ : String => Except ε τ}
  {order : List String} {cache : CompileCache ε τ}

lemma CompileCache.holds_empty : ({} : CompileCache ε τ).Holds compile where
  listed := .nil
  bounded := Nat.zero_le _
  compiled expression r h := by simp at h

/-- There is room after the loop, and what is left has been there. -/
lemma CompileCache.makeRoom_spec (h : Lists order values) :
    Lists (makeRoom values order).insertionOrder (makeRoom values order).values ∧
      (makeRoom values order).values.keys.length < compileCacheCapacity ∧
      ∀ k r, (makeRoom values order).values.lookup k = some r → values.lookup k = some r := by
  induction order generalizing values with
  | nil =>
    refine ⟨h, ?_, fun _ _ hk => hk⟩
    rw [makeRoom, ← h.length_eq]
    decide
  | cons oldest rest ih =>
    rw [makeRoom]
    split
    · obtain ⟨hlisted, hroom, hkept⟩ := ih h.tail
      refine ⟨hlisted, hroom, fun k r hk => ?_⟩
      have hk' := hkept k r hk
      by_cases hne : k = oldest
      · rw [hne, AList.lookup_erase] at hk'
        cases hk'
      · rwa [AList.lookup_erase_ne hne] at hk'
    · rename_i hroom
      exact ⟨h, not_le.mp hroom, fun _ _ hk => hk⟩

/-- An insertion of a result of compilation returns one, and keeps the cache in order. -/
lemma CompileCache.Holds.insert (h : cache.Holds compile) (expression : String) :
    (cache.insert expression (compile expression)).1 = compile expression ∧
      (cache.insert expression (compile expression)).2.Holds compile := by
  unfold CompileCache.insert
  cases hlookup : cache.values.lookup expression with
  | some existing => exact ⟨h.compiled expression existing hlookup, h⟩
  | none =>
    obtain ⟨hlisted, hroom, hkept⟩ := makeRoom_spec h.listed
    have hnew : expression ∉ (makeRoom cache.values cache.insertionOrder).values := by
      intro hmem
      obtain ⟨r, hr⟩ := Option.isSome_iff_exists.mp (AList.lookup_isSome.mpr hmem)
      rw [hkept expression r hr] at hlookup
      cases hlookup
    refine ⟨rfl, hlisted.insert hnew, ?_, fun k r hk => ?_⟩
    · rw [AList.keys_insert, List.length_cons, List.erase_of_not_mem hnew]
      exact hroom
    · by_cases hne : k = expression
      · rw [hne, AList.lookup_insert, Option.some.injEq] at hk
        rw [hne, hk]
      · rw [AList.lookup_insert_ne hne] at hk
        exact h.compiled k r (hkept k r hk)

end Cache

/-! ## Runs -/

section Runs

variable {compile : String → Except ε τ} {expressions : Tid → List String}
  {c : Config CacheLock (CompileCache ε τ) (List (Except ε τ))}

/-- A text is compiled, from whatever the cache holds. -/
lemma compileCached_triple (expression : String) :
    Prog.Triple (fun _ _ => True) (fun _ cache => True ∧ cache.Holds compile)
      (Plain fun _ _ cache => cache.Holds compile) (fun _ => True)
      (compileCached compile expression) fun r _ => r = compile expression := by
  refine Prog.Triple.act (fun r _ => ∀ compiled, r = some compiled → compiled = compile expression)
    (fun _ _ _ _ => trivial) (fun cache r cache' _ hok hf => ?_) fun r => ?_
  · obtain ⟨rfl, rfl⟩ := Prod.mk.inj (Option.some.inj hf)
    exact ⟨hok.2, hok.2.compiled expression⟩
  · cases r with
    | some compiled => exact Prog.Triple.ret (Stable.const _) fun _ h => h compiled rfl
    | none =>
      refine Prog.Triple.act (fun r _ => r = compile expression) (Stable.const _)
        (fun cache r cache' _ hok hf => ?_) fun r => Prog.Triple.ret (Stable.const _) fun _ h => h
      have hinsert := Option.some.inj hf
      obtain ⟨hresult, hholds⟩ := hok.2.insert expression
      rw [hinsert] at hresult hholds
      exact ⟨hholds, hresult⟩

lemma compileAll_triple (texts : List String) :
    Prog.Triple (fun _ _ => True) (fun _ cache => True ∧ cache.Holds compile)
      (Plain fun _ _ cache => cache.Holds compile) (fun _ => True)
      (compileAll compile texts) fun rs _ => rs = texts.map compile := by
  induction texts with
  | nil => exact Prog.Triple.ret (Stable.const _) fun _ _ => rfl
  | cons expression texts ih =>
    refine Prog.Triple.bind (compileCached_triple expression) (fun _ _ _ _ h => h)
      (fun _ => trivial) fun compiled => ?_
    refine Prog.Triple.bind
      (B := fun rs _ => compiled = compile expression ∧ rs = texts.map compile)
      (fun cache hcompiled => ?_) (fun _ _ _ _ h => h) (fun _ => trivial) fun rest => ?_
    · exact (ih cache trivial).mono (fun _ _ h => h) (fun _ _ h => h) (fun _ _ _ _ h => h)
        fun rs _ h => ⟨hcompiled, h⟩
    · refine Prog.Triple.ret (Stable.const _) fun _ h => ?_
      rw [List.map_cons, h.1, h.2]

/-- The threads keep the cache in order. -/
lemma relyGuarantee_cache (compile : String → Except ε τ) :
    RelyGuarantee (fun _ _ => False) Always (fun cache : CompileCache ε τ => cache.Holds compile)
      (fun _ _ _ => True)
      (fun _ => Plain (L := CacheLock) (α := List (Except ε τ)) fun _ _ cache =>
        cache.Holds compile) where
  refl _ _ := trivial
  trans _ _ _ _ _ _ := trivial
  guarantee _ _ _ _ _ _ _ _ _ _ := trivial
  interference _ _ _ _ h := h.elim
  inv_step _ _ _ _ _ _ _ h := h
  inv_env _ _ _ h := h.elim

/-- **The cache of compiled conditions**, whatever the threads compile and in whatever order they
take the lock: it does not exceed its capacity, the queue lists its keys, each once, and every
thread that has returned has got what compiling its texts gives, errors included. -/
theorem compileCached_of_reaches
    (hr : Reaches (fun _ _ => False) Always (compilers compile expressions) c) :
    c.shared.values.keys.length ≤ compileCacheCapacity ∧
      c.shared.insertionOrder.Nodup ∧
      (∀ k, k ∈ c.shared.insertionOrder ↔ k ∈ c.shared.values) ∧
      ∀ t results, c.threads t = .ret results → results = (expressions t).map compile := by
  have hgood : (compilers compile expressions).Good Always (fun cache => cache.Holds compile)
      (fun _ _ _ => True) (fun _ => Plain fun _ _ cache => cache.Holds compile)
      fun t rs _ => rs = (expressions t).map compile :=
    ⟨CompileCache.holds_empty, fun t => compileAll_triple (expressions t) _ trivial⟩
  have hholds := ((relyGuarantee_cache compile).reaches hgood hr).1
  exact ⟨hholds.bounded, hholds.listed.nodup, hholds.listed.mem,
    fun t results ht => (relyGuarantee_cache compile).result hgood hr ht⟩

/-- Two threads compile one text; both look it up before either inserts it. -/
theorem compileCached_of_reaches_both : ∃ c : Config CacheLock (CompileCache ExprError GateExpr) _,
    Reaches (fun _ _ => False) Always (compilers compileGateExpr fun _ => ["(true)"]) c ∧
      c.threads 0 = .ret [compileGateExpr "(true)"] ∧
        c.threads 1 = .ret [compileGateExpr "(true)"] := by
  have hplay : (exec Always (compilers compileGateExpr fun _ => ["(true)"])
      [.thread 0, .thread 1, .thread 0, .thread 1]).any
      (fun c => (c.threads 0).result?.isSome && (c.threads 1).result?.isSome) = true := by
    rfl
  obtain ⟨c, hr, hc⟩ := exists_reaches_of_exec (fun _ _ => False) Always
    [.thread 0, .thread 1, .thread 0, .thread 1] (by simp) hplay
  obtain ⟨h0, h1⟩ := Bool.and_eq_true_iff.mp hc
  obtain ⟨rs, h0⟩ := Option.isSome_iff_exists.mp h0
  obtain ⟨rs', h1⟩ := Option.isSome_iff_exists.mp h1
  have hresult := (compileCached_of_reaches hr).2.2.2
  refine ⟨c, hr, ?_, ?_⟩
  · rw [Prog.eq_ret_of_result? h0, hresult 0 rs (Prog.eq_ret_of_result? h0)]
    rfl
  · rw [Prog.eq_ret_of_result? h1, hresult 1 rs' (Prog.eq_ret_of_result? h1)]
    rfl

end Runs

end Expr
