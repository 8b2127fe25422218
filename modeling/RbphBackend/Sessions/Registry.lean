import Mathlib.Data.Int.Notation
import Mathlib.Data.List.Dedup
import Mathlib.Logic.Function.Basic
import RbphBackend.Concurrency.System

set_option relaxedAutoImplicit false
set_option autoImplicit false

/-!
# The registry of sessions

Redis keeps for each user the list of the ids of his sessions, the latest login first, no longer than
the number of sessions he may have. A login on a session that is registered lists its id once more,
and a logout removes one of its occurrences.

## Main definitions

* `Sessions.append`, `Sessions.verify`, `Sessions.invalidate`, `Sessions.invalidateAll` — the
  operations.
* `Sessions.step` — the system.
* `Sessions.Lawful` — what is expected of an operation.
* `Sessions.Single` — the duplicates do not show.

## Main results

* `Sessions.lawful_of_leads` — an operation is lawful exactly if the duplicates do not show.
* `Sessions.relogin_outlives_logout` — runs in which they do.
-/

namespace Sessions

open Concurrency

/-! ## The operations -/

/-- What a session carries. -/
structure Session where
  userId : Option ℤ
  sessionId : Option String
  deriving DecidableEq

/-- The lists under the keys of the users; an empty one does not exist. -/
abbrev Registry := ℤ → List String

/-- `get_session_id`, where `newId` is the UUID that it would draw. -/
def getSessionId (sess : Session) (newId : String) : String × Session :=
  match sess.sessionId with
  | some id => (id, sess)
  | none => (newId, { sess with sessionId := some newId })

/-- `LPUSH` and `LTRIM key 0 (max_session - 1)`. -/
def pushTrim (id : String) (maxSession : ℕ) (list : List String) : List String :=
  (id :: list).take maxSession

def append (kv : Registry) (sess : Session) (userId : ℤ) (maxSession : ℕ) (newId : String) :
    Registry × Session :=
  let (id, sess) := getSessionId sess newId
  (Function.update kv userId (pushTrim id maxSession (kv userId)),
    { sess with userId := some userId })

def verify (kv : Registry) (sess : Session) : Bool :=
  match sess.userId, sess.sessionId with
  | some userId, some sid => (kv userId).contains sid
  | _, _ => false

/-- `LREM key 1 sid` removes the first occurrence. -/
def invalidate (kv : Registry) (sess : Session) : Bool × Registry :=
  match sess.userId, sess.sessionId with
  | some userId, some sid =>
    ((kv userId).contains sid, Function.update kv userId ((kv userId).erase sid))
  | _, _ => (false, kv)

def invalidateAll (kv : Registry) (userId : ℤ) : Registry := Function.update kv userId []

/-! ## The system -/

inductive SessionEvent where
  | login (sess : Session) (userId : ℤ) (newId : String)
  | logout (sess : Session)
  | logoutAll (userId : ℤ)
  deriving DecidableEq

/-- The operations, where a user may have `m` sessions. -/
def step (m : ℕ) : System Registry SessionEvent := fun kv e =>
  match e with
  | .login sess userId newId => some (append kv sess userId m newId).1
  | .logout sess => some (invalidate kv sess).2
  | .logoutAll userId => some (invalidateAll kv userId)

/-- The event is not a login of the user on the session. -/
def Without (userId : ℤ) (sid : String) (_ : Registry) (e : SessionEvent) : Prop :=
  ∀ sess newId, e = .login sess userId newId → (getSessionId sess newId).1 ≠ sid

/-- What is expected of the operations. The session that logs in verifies, and if it is registered
and the user has fewer than `m` sessions, no other one ends. A session that logs out does not
verify until it logs in again. -/
def Lawful (m : ℕ) (kv : Registry) : SessionEvent → Prop
  | .login sess userId newId =>
    verify (append kv sess userId m newId).1 (append kv sess userId m newId).2 = true ∧
    ∀ sid, sess.sessionId = some sid → sid ∈ kv userId → (kv userId).dedup.length < m →
      ∀ other : Session, ¬(other.userId = some userId ∧ other.sessionId = some sid) →
        verify kv other = true → verify (append kv sess userId m newId).1 other = true
  | .logout sess => ∀ userId sid, sess.userId = some userId → sess.sessionId = some sid →
    ∀ kv', (step m).Leads (Without userId sid) (invalidate kv sess).2 kv' →
      verify kv' sess = false
  | .logoutAll _ => True

/-- The duplicates do not show: a session that logs out is listed once, and where a registered one
logs in and the list is full, its last entry is that session or is listed again. -/
def Single (m : ℕ) (kv : Registry) : SessionEvent → Prop
  | .login sess userId _ => ∀ sid, sess.sessionId = some sid → sid ∈ kv userId →
    (kv userId).dedup.length < m → (kv userId).length = m →
      ∀ last, (kv userId).getLast? = some last → last = sid ∨ last ∈ (kv userId).dropLast
  | .logout sess => ∀ userId sid, sess.userId = some userId → sess.sessionId = some sid →
    (kv userId).count sid ≤ 1
  | .logoutAll _ => True

/-! ## The lists -/

section Lists

variable {m : ℕ} {id : String} {list : List String}

lemma mem_pushTrim_self (hm : 1 ≤ m) : id ∈ pushTrim id m list := by
  obtain ⟨k, rfl⟩ : ∃ k, m = k + 1 := ⟨m - 1, by omega⟩
  simp [pushTrim]

lemma length_pushTrim_le : (pushTrim id m list).length ≤ m := by
  rw [pushTrim, List.length_take]
  omega

/-- A list that is not full keeps all of its entries. -/
lemma pushTrim_of_lt (h : list.length < m) : pushTrim id m list = id :: list :=
  List.take_of_length_le h

/-- A full list loses its last entry. -/
lemma pushTrim_of_eq (hm : 1 ≤ m) (h : list.length = m) :
    pushTrim id m list = id :: list.dropLast := by
  obtain ⟨k, rfl⟩ : ∃ k, m = k + 1 := ⟨m - 1, by omega⟩
  rw [pushTrim, List.take_succ_cons, List.dropLast_eq_take, h]
  rfl

/-- What a login on `id` keeps of a list that has it. -/
lemma keeps_iff (hm : 1 ≤ m) (hle : list.length ≤ m) :
    (∀ t, t ∈ list → t ≠ id → t ∈ pushTrim id m list) ↔
      (list.length = m → ∀ last, list.getLast? = some last → last = id ∨ last ∈ list.dropLast) := by
  rcases Nat.lt_or_eq_of_le hle with hlt | heq
  · rw [pushTrim_of_lt hlt]
    refine ⟨fun _ hfull => absurd hfull (by omega), fun _ t ht _ => List.mem_cons_of_mem _ ht⟩
  · rw [pushTrim_of_eq hm heq]
    constructor
    · intro h _ last hlast
      by_cases hid : last = id
      · exact .inl hid
      · have hmem := h last (List.mem_of_getLast? hlast) hid
        exact .inr ((List.mem_cons.mp hmem).resolve_left hid)
    · intro h t ht hne
      have hlist : list ≠ [] := List.ne_nil_of_mem ht
      rw [← List.dropLast_append_getLast hlist, List.mem_append, List.mem_singleton] at ht
      rcases ht with ht | rfl
      · exact List.mem_cons_of_mem _ ht
      · have hlast := h heq _ (List.getLast?_eq_some_getLast hlist)
        exact List.mem_cons_of_mem _ (hlast.resolve_left hne)

lemma not_mem_erase_iff : id ∉ list.erase id ↔ list.count id ≤ 1 := by
  rw [← List.count_eq_zero, List.count_erase_self]
  omega

end Lists

/-! ## The operations on a registry -/

section Operations

variable {m : ℕ} {kv kv' : Registry} {userId : ℤ} {sid : String} {sess : Session}

lemma verify_iff (hu : sess.userId = some userId) (hs : sess.sessionId = some sid) :
    verify kv sess = true ↔ sid ∈ kv userId := by
  simp [verify, hu, hs]

lemma verify_eq_false_iff (hu : sess.userId = some userId) (hs : sess.sessionId = some sid) :
    verify kv sess = false ↔ sid ∉ kv userId := by
  simp [verify, hu, hs]

lemma exists_of_verify (h : verify kv sess = true) :
    ∃ userId sid, sess.userId = some userId ∧ sess.sessionId = some sid ∧ sid ∈ kv userId := by
  unfold verify at h
  split at h
  · rename_i userId sid hu hs
    exact ⟨userId, sid, hu, hs, by simpa using h⟩
  · cases h

lemma append_self (newId : String) : (append kv sess userId m newId).1 userId =
    pushTrim (getSessionId sess newId).1 m (kv userId) := by
  simp [append]

lemma append_of_ne {userId' : ℤ} (h : userId' ≠ userId) (newId : String) :
    (append kv sess userId m newId).1 userId' = kv userId' := by
  simp [append, Function.update_of_ne h]

/-- The session that logs in verifies. -/
lemma verify_append (hm : 1 ≤ m) (newId : String) :
    verify (append kv sess userId m newId).1 (append kv sess userId m newId).2 = true := by
  have hid : (append kv sess userId m newId).2.sessionId = some (getSessionId sess newId).1 := by
    cases h : sess.sessionId <;> simp [append, getSessionId, h]
  have huser : (append kv sess userId m newId).2.userId = some userId := rfl
  rw [verify_iff huser hid, append_self]
  exact mem_pushTrim_self hm

/-- No list is too long. -/
def Bounded (m : ℕ) (kv : Registry) : Prop := ∀ userId, (kv userId).length ≤ m

lemma bounded_of_step {e : SessionEvent} (hb : Bounded m kv) (h : step m kv e = some kv') :
    Bounded m kv' := by
  intro user
  cases e with
  | login sess userId newId =>
    obtain rfl := Option.some.inj h
    by_cases hu : user = userId
    · subst hu
      rw [append_self]
      exact length_pushTrim_le
    · rw [append_of_ne hu]
      exact hb user
  | logout sess =>
    obtain rfl := Option.some.inj h
    unfold invalidate
    split
    · rename_i userId sid _ _
      by_cases hu : user = userId
      · subst hu
        simpa using Nat.le_trans List.length_erase_le (hb user)
      · simpa [Function.update_of_ne hu] using hb user
    · exact hb user
  | logoutAll userId =>
    obtain rfl := Option.some.inj h
    by_cases hu : user = userId
    · simp [invalidateAll, hu]
    · simpa [invalidateAll, Function.update_of_ne hu] using hb user

lemma bounded_of_leads {ok : Registry → SessionEvent → Prop}
    (h : (step m).Leads ok (fun _ => []) kv) : Bounded m kv := by
  have hempty : Bounded m fun _ => [] := fun _ => Nat.zero_le m
  exact System.invariant hempty (fun _ _ _ hb _ hs => bounded_of_step hb hs) h

/-- Only its login lists a session. -/
lemma not_mem_of_step {e : SessionEvent} (hnot : sid ∉ kv userId) (hw : Without userId sid kv e)
    (h : step m kv e = some kv') : sid ∉ kv' userId := by
  cases e with
  | login sess user newId =>
    obtain rfl := Option.some.inj h
    by_cases hu : userId = user
    · subst hu
      rw [append_self]
      intro hmem
      rcases List.mem_cons.mp (List.mem_of_mem_take hmem) with heq | hmem
      · exact hw sess newId rfl heq.symm
      · exact hnot hmem
    · rwa [append_of_ne hu]
  | logout sess =>
    obtain rfl := Option.some.inj h
    unfold invalidate
    split
    · rename_i user sid' _ _
      by_cases hu : userId = user
      · subst hu
        simpa using fun hmem => hnot (List.mem_of_mem_erase hmem)
      · simpa [Function.update_of_ne hu] using hnot
    · exact hnot
  | logoutAll user =>
    obtain rfl := Option.some.inj h
    by_cases hu : userId = user
    · simp [invalidateAll, hu]
    · simpa [invalidateAll, Function.update_of_ne hu] using hnot

lemma not_mem_of_leads (hnot : sid ∉ kv userId)
    (h : (step m).Leads (Without userId sid) kv kv') : sid ∉ kv' userId := by
  induction h with
  | refl => exact hnot
  | tail _ he ih =>
    obtain ⟨e, hw, hs⟩ := he
    exact not_mem_of_step ih hw hs

/-! ## The laws -/

lemma lawful_logout_iff : Lawful m kv (.logout sess) ↔ Single m kv (.logout sess) := by
  have hinv : ∀ {userId sid}, sess.userId = some userId → sess.sessionId = some sid →
      (invalidate kv sess).2 userId = (kv userId).erase sid := by
    intro userId sid hu hs
    simp [invalidate, hu, hs]
  constructor
  · intro h userId sid hu hs
    have hverify := h userId sid hu hs _ .refl
    rw [verify_eq_false_iff hu hs, hinv hu hs] at hverify
    exact not_mem_erase_iff.mp hverify
  · intro h userId sid hu hs kv' hleads
    have hnot := not_mem_erase_iff.mpr (h userId sid hu hs)
    rw [← hinv hu hs] at hnot
    exact (verify_eq_false_iff hu hs).mpr (not_mem_of_leads hnot hleads)

/-- Other sessions of the user are those that the list has. -/
lemma others_iff {newId : String} (hs : sess.sessionId = some sid) :
    (∀ other : Session, ¬(other.userId = some userId ∧ other.sessionId = some sid) →
      verify kv other = true → verify (append kv sess userId m newId).1 other = true) ↔
    ∀ t, t ∈ kv userId → t ≠ sid → t ∈ pushTrim sid m (kv userId) := by
  have hid : (getSessionId sess newId).1 = sid := by simp [getSessionId, hs]
  constructor
  · intro h t ht hne
    have hother := h ⟨some userId, some t⟩ (by simpa using hne) ((verify_iff rfl rfl).mpr ht)
    rwa [verify_iff rfl rfl, append_self, hid] at hother
  · intro h other hne hverify
    obtain ⟨user, t, hu, ht, hmem⟩ := exists_of_verify hverify
    rw [verify_iff hu ht]
    by_cases huser : user = userId
    · subst huser
      rw [append_self, hid]
      refine h t hmem ?_
      rintro rfl
      exact hne ⟨hu, ht⟩
    · rwa [append_of_ne huser]

lemma lawful_login_iff (hm : 1 ≤ m) (hb : Bounded m kv) {newId : String} :
    Lawful m kv (.login sess userId newId) ↔ Single m kv (.login sess userId newId) := by
  constructor
  · rintro ⟨-, h⟩ sid hs hmem hfew
    exact (keeps_iff hm (hb userId)).mp ((others_iff hs).mp (h sid hs hmem hfew))
  · intro h
    refine ⟨verify_append hm newId, fun sid hs hmem hfew => ?_⟩
    exact (others_iff hs).mpr ((keeps_iff hm (hb userId)).mpr (h sid hs hmem hfew))

lemma lawful_iff (hm : 1 ≤ m) (hb : Bounded m kv) (e : SessionEvent) :
    Lawful m kv e ↔ Single m kv e := by
  cases e with
  | login sess userId newId => exact lawful_login_iff hm hb
  | logout sess => exact lawful_logout_iff
  | logoutAll userId => exact Iff.rfl

/-- **An operation is lawful exactly if the duplicates do not show**, in every run; so a run in
which they never show is one of lawful operations. -/
theorem lawful_of_leads (hm : 1 ≤ m) :
    (∀ kv, (step m).Leads (Single m) (fun _ => []) kv → (step m).Leads (Lawful m) (fun _ => []) kv) ∧
    ∀ kv, (step m).Leads System.Any (fun _ => []) kv → ∀ e, Lawful m kv e ↔ Single m kv e := by
  refine ⟨fun kv h => ?_, fun kv h e => lawful_iff hm (bounded_of_leads h) e⟩
  induction h with
  | refl => exact .refl
  | tail hleads he ih =>
    obtain ⟨e, hok, hs⟩ := he
    exact ih.tail ⟨e, (lawful_iff hm (bounded_of_leads hleads) e).mpr hok, hs⟩

end Operations

/-! ## Duplicates that show -/

/-- With two sessions listed once each, one of them logs out for good. -/
theorem lawful_of_leads_two : ∃ kv, (step 2).Leads System.Any (fun _ => []) kv ∧
    verify kv ⟨some 1, some "a"⟩ = true ∧ Lawful 2 kv (.logout ⟨some 1, some "a"⟩) := by
  obtain ⟨kv, h, hp⟩ := System.exists_leads (step 2) System.Any (fun _ => [])
    (fun kv => decide (kv 1 = ["b", "a"]))
    [.login ⟨none, none⟩ 1 "a", .login ⟨none, none⟩ 1 "b"] (by decide +kernel)
  have hlist : kv 1 = ["b", "a"] := of_decide_eq_true hp
  refine ⟨kv, h, by simp [verify, hlist], ?_⟩
  refine ((lawful_of_leads (by decide)).2 kv h _).mpr fun userId sid hu hs => ?_
  obtain rfl := Option.some.inj hu
  obtain rfl := Option.some.inj hs
  rw [hlist]
  decide

/-- **A logout after a login too many** leaves the session registered, and a login too many ends
another session although there is room. -/
theorem relogin_outlives_logout :
    (∃ kv, (step 2).Leads System.Any (fun _ => []) kv ∧
      ¬ Lawful 2 kv (.logout ⟨some 1, some "a"⟩)) ∧
    ∃ kv, (step 3).Leads System.Any (fun _ => []) kv ∧
      ¬ Lawful 3 kv (.login ⟨some 1, some "a"⟩ 1 "c") := by
  constructor
  · obtain ⟨kv, h, hp⟩ := System.exists_leads (step 2) System.Any (fun _ => [])
      (fun kv => decide (kv 1 = ["a", "a"]))
      [.login ⟨none, none⟩ 1 "a", .login ⟨some 1, some "a"⟩ 1 "c"] (by decide +kernel)
    have hlist : kv 1 = ["a", "a"] := of_decide_eq_true hp
    refine ⟨kv, h, fun hlaw => ?_⟩
    have hcount := lawful_logout_iff.mp hlaw 1 "a" rfl rfl
    rw [hlist] at hcount
    exact absurd hcount (by decide)
  · obtain ⟨kv, h, hp⟩ := System.exists_leads (step 3) System.Any (fun _ => [])
      (fun kv => decide (kv 1 = ["a", "a", "b"]))
      [.login ⟨none, none⟩ 1 "b", .login ⟨none, none⟩ 1 "a", .login ⟨some 1, some "a"⟩ 1 "c"]
      (by decide +kernel)
    have hlist : kv 1 = ["a", "a", "b"] := of_decide_eq_true hp
    refine ⟨kv, h, fun hlaw => ?_⟩
    have hsingle := (lawful_login_iff (by decide) (bounded_of_leads h)).mp hlaw "a" rfl
    rw [hlist] at hsingle
    exact absurd (hsingle (by decide) (by decide) rfl "b" rfl) (by decide)

end Sessions
