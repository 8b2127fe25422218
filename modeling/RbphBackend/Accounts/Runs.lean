import RbphBackend.Accounts.Conduct
import RbphBackend.Concurrency.Alone

set_option relaxedAutoImplicit false
set_option autoImplicit false

/-!
# Accounts in runs of requests

Requests about accounts run at once, from any store. What a commit may change of an account depends
on the role that the one who asks had when the request came; a root stays a root, and only he and the
start of the server have a say in it; and each account that is new was let in, once.

## Main definitions

* `Accounts.Allowed` — what a commit may change of an account.
* `Accounts.Verified` — an account whose email was verified.
* `Accounts.Origin` — where an account comes from.

## Main results

* `Accounts.allowed_of_reaches` — the policy of every commit.
* `Accounts.root_of_reaches` — the roots of a run.
* `Accounts.origin_of_reaches` — the origin of every account that is new.
-/

namespace Accounts

open Concurrency ReadCommitted Expiring Games

/-! ## What a deed does to a row -/

section Deeds

variable {S : Setting} {l : List AccountCommit} {e : AccountCommit}

@[simp] lemma applyPuts_insertPuts_user {v : View} {id id' : Id} {u : RbUser} :
    applyPuts (insertPuts id u) v (.user id') = if id' = id then some u else v (.user id') := by
  by_cases h : id' = id
  · subst h
    simp [insertPuts]
  · simp [insertPuts, h]

@[simp] lemma applyPuts_updatePuts_user {v : View} {id id' : Id} {u u' : RbUser} :
    applyPuts (updatePuts id u u') v (.user id') = if id' = id then some u' else v (.user id') := by
  by_cases h : id' = id
  · subst h
    by_cases hemail : u'.email = u.email <;> simp [updatePuts, hemail]
  · by_cases hemail : u'.email = u.email <;> simp [updatePuts, h, hemail]

@[simp] lemma applyPuts_insertPuts_pendingUser {v : View} {id : Id} {u : RbUser} {token : String} :
    applyPuts (insertPuts id u) v (.pendingUser token) = v (.pendingUser token) := by
  simp [insertPuts]

@[simp] lemma applyPuts_updatePuts_pendingUser {v : View} {id : Id} {u u' : RbUser}
    {token : String} : applyPuts (updatePuts id u u') v (.pendingUser token) =
      v (.pendingUser token) := by
  by_cases hemail : u'.email = u.email <;> simp [updatePuts, hemail]

/-- **What a commit does to an account**: it keeps it, adds it or changes it. -/
lemma Deed.user (h : Deed S l e) (id : Id) :
    e.after (.user id) = e.before (.user id) ∨
      (e.before (.user id) = none ∧
        ∃ u now, Added S e.tid l id u ∧ e.after (.user id) = some (u.inserted id now)) ∨
      ∃ u u', e.before (.user id) = some u ∧ Changed S e.tid l id u u' ∧
        e.after (.user id) = some u' := by
  cases h with
  | kept h => exact .inl (by rw [h])
  | pending _ _ h | listed h => exact .inl (by simp [h])
  | took _ htakes =>
    obtain ⟨entry, -, -, -, h⟩ := htakes
    exact .inl (by simp [h])
  | @added id' u hnone _ how h =>
    obtain ⟨now, h⟩ := h
    by_cases hid : id = id'
    · subst hid
      exact .inr (.inl ⟨hnone, u, now, how, by simp [h]⟩)
    · exact .inl (by simp [h, hid])
  | @changed id' u u' hrow _ how h =>
    by_cases hid : id = id'
    · subst hid
      exact .inr (.inr ⟨u, u', hrow, how, by simp [h]⟩)
    · exact .inl (by simp [h, hid])

/-- An account is not deleted. -/
lemma Deed.exists_user (h : Deed S l e) {id : Id} {u : RbUser} (hu : e.before (.user id) = some u) :
    e.after (.user id) = some u ∨
      ∃ u', Changed S e.tid l id u u' ∧ e.after (.user id) = some u' := by
  rcases h.user id with hkept | ⟨hnone, -⟩ | ⟨u₁, u', hrow, how, hnew⟩
  · exact .inl (hkept.trans hu)
  · rw [hnone] at hu
    cases hu
  · obtain rfl := Option.some.inj (hrow.symm.trans hu)
    exact .inr ⟨u', how, hnew⟩

lemma Deed.user_ne_none (h : Deed S l e) {id : Id} (hu : e.before (.user id) ≠ none) :
    e.after (.user id) ≠ none := by
  obtain ⟨u, hu⟩ := Option.ne_none_iff_exists'.1 hu
  rcases h.exists_user hu with hkept | ⟨u', -, hnew⟩
  · rw [hkept]
    exact Option.some_ne_none u
  · rw [hnew]
    exact Option.some_ne_none u'

/-- **What a commit does to a pending account**: it keeps it, puts it or takes it. -/
lemma Deed.pendingUser (h : Deed S l e) (token : String) :
    e.after (.pendingUser token) = e.before (.pendingUser token) ∨
      e.after (.pendingUser token) = none ∨
      ∃ r pass, S.calls e.tid = .register r ∧ Registers S.cfg r true pass ∧ r.token = token ∧
        e.after (.pendingUser token) =
          some (pendingFor e.start ⟨(r.req.normalized S.cfg).email, pass⟩) := by
  cases h with
  | kept h => exact .inl (by rw [h])
  | @pending r pass hcall hr h =>
    by_cases ht : token = r.token
    · subst ht
      exact .inr (.inr ⟨r, pass, hcall, hr, rfl, by simp [h]⟩)
    · exact .inl (by simp [h, ht])
  | listed h => exact .inl (by simp [h])
  | @took token' _ user _ htakes =>
    obtain ⟨entry, -, -, -, h⟩ := htakes
    by_cases ht : token = token'
    · subst ht
      exact .inr (.inl (by simp [h]))
    · exact .inl (by simp [h, ht])
  | added _ _ _ h =>
    obtain ⟨now, h⟩ := h
    exact .inl (by simp [h])
  | changed _ _ _ h => exact .inl (by simp [h])

end Deeds

/-! ## The policy -/

/-- **What a commit may change of an account**, whose row is `u` before it and `u'` after it. -/
structure Allowed (S : Setting) (t : Tid) (l : List AccountCommit) (id : Id) (u u' : RbUser) :
    Prop where
  /-- Another account gives it another role, and only the root gives or takes one of the staff. -/
  role : u'.urole ≠ u.urole → u.urole ≠ .root ∧ u'.urole ≠ .root ∧
    ∃ actor req role, S.calls t = .update actor id req ∧ actor ≠ id ∧
      Was S.origin l (HasRole actor role) ∧
        (role = .root ∨ role = .admin ∧ u.urole.lt .admin = true ∧ u'.urole.lt .admin = true)
  /-- One of a higher role gives it another email. -/
  email : eqIgnoreAsciiCase u.email u'.email = false →
    ∃ actor req role, S.calls t = .update actor id req ∧ Was S.origin l (HasRole actor role) ∧
      u.urole.lt role = true
  /-- It has given its password, or must not, or one of a higher role resets it. -/
  pass : (u'.pass ≠ u.pass ∨ u'.mustChangePassword ≠ u.mustChangePassword) →
    (∃ salt req, S.calls t = .updatePassword id salt req ∧
      acceptsCurrent S.cfg u req.currentPassword = .ok true ∧
      S.cfg.verify req.newPassword u.pass = .ok false ∧
      S.cfg.hash salt req.newPassword = .ok u'.pass ∧ u'.mustChangePassword = false) ∨
    ∃ actor salt password role, S.calls t = .resetPassword actor salt id password ∧
      Was S.origin l (HasRole actor role) ∧ u.urole.lt role = true ∧ role.ge .admin = true ∧
      S.cfg.hash salt password = .ok u'.pass ∧ u'.mustChangePassword = true
  /-- The account or the staff changes the rest. -/
  profile : u'.nickname ≠ u.nickname ∨ u'.bio ≠ u.bio ∨ u'.avatarProvider ≠ u.avatarProvider →
    (∃ req, S.calls t = .updateInfo id req) ∨ ∃ actor req role, S.calls t = .update actor id req ∧
      Was S.origin l (HasRole actor role) ∧ role.ge .admin = true
  ctimeAt : u'.ctimeAt = u.ctimeAt

section Rows

variable {S : Setting} {t : Tid} {l : List AccountCommit} {id : Id} {u u' : RbUser}

@[simp] lemma eqIgnoreAsciiCase_self (a : String) : eqIgnoreAsciiCase a a = true := by
  simp [eqIgnoreAsciiCase]

lemma eqIgnoreAsciiCase_trans {a b c : String} (h : eqIgnoreAsciiCase a b = true)
    (h' : eqIgnoreAsciiCase b c = true) : eqIgnoreAsciiCase a c = true := by
  simp only [eqIgnoreAsciiCase, decide_eq_true_eq] at h h' ⊢
  exact h.trans h'

lemma Allowed.refl : Allowed S t l id u u where
  role h := absurd rfl h
  email h := by simp at h
  pass h := by simp at h
  profile h := by simp at h
  ctimeAt := rfl

/-- A role that is at least the one of an administrator is his or the root's. -/
lemma RbUserRole.eq_of_ge_admin {role : RbUserRole} (h : role.ge .admin = true) :
    role = .admin ∨ role = .root := by
  cases role <;> simp [RbUserRole.isValid, RbUserRole.code] at h ⊢

/-- **Every change is allowed.** -/
lemma Changed.allowed (h : Changed S t l id u u') : Allowed S t l id u u' := by
  cases h with
  | @profile req hcall =>
    exact ⟨fun h => absurd rfl h, fun h => by simp [RbUser.withProfile] at h,
      fun h => by simp [RbUser.withProfile] at h, fun _ => .inl ⟨req, hcall⟩, rfl⟩
  | @password salt req pass hcall hcurrent hnew hpass =>
    exact ⟨fun h => absurd rfl h, fun h => by simp [RbUser.withPassword] at h,
      fun _ => .inl ⟨salt, req, hcall, hcurrent, hnew, hpass, rfl⟩,
      fun h => by simp [RbUser.withPassword] at h, rfl⟩
  | @rewritten actor req role hcall hwas hadmin hself hrole hemail =>
    refine ⟨fun h => ?_, fun h => ?_, fun h => by simp [RbUser.rewritten] at h,
      fun _ => .inr ⟨actor, req, role, hcall, hwas, hadmin⟩, rfl⟩
    · rcases RbUserRole.canChangeRole_iff.1 hrole with hsame | ⟨hu, hu', hmay⟩
      · exact absurd hsame.symm h
      · refine ⟨hu, hu', actor, req, role, hcall, fun hid => h (hself hid).symm, hwas, ?_⟩
        rcases hmay with hroot | hlt
        · exact .inl hroot
        · exact (RbUserRole.eq_of_ge_admin hadmin).symm.imp_right fun h => ⟨h, hlt⟩
    · rcases hemail with hsame | hmay
      · rw [RbUser.rewritten, hsame] at h
        cases h
      · exact ⟨actor, req, role, hcall, hwas, hmay⟩
  | @reset actor salt password pass role hcall hwas hadmin hrole hpass =>
    exact ⟨fun h => absurd rfl h, fun h => by simp [RbUser.withPassword] at h,
      fun _ => .inr ⟨actor, salt, password, role, hcall, hwas, hrole, hadmin, hpass, rfl⟩,
      fun h => by simp [RbUser.withPassword] at h, rfl⟩

/-- **What may change of a root**: he alone changes his password. -/
lemma Allowed.root (h : Allowed S t l id u u') (hu : u.urole = .root) :
    u'.urole = .root ∧ eqIgnoreAsciiCase u.email u'.email = true ∧
      ((u'.pass ≠ u.pass ∨ u'.mustChangePassword ≠ u.mustChangePassword) →
        ∃ salt req, S.calls t = .updatePassword id salt req ∧
          acceptsCurrent S.cfg u req.currentPassword = .ok true) := by
  have hlt : ∀ role : RbUserRole, ¬ u.urole.lt role = true := by
    intro role h
    rw [hu, RbUserRole.lt_iff] at h
    exact absurd (RbUserRole.code_le_of_isValid h.2.1) (not_le.2 h.2.2)
  refine ⟨by_contra fun hne => (h.role fun h => hne (h.trans hu)).1 hu, ?_, fun hpass => ?_⟩
  · refine by_contra fun hne => ?_
    obtain ⟨actor, req, role, -, -, hrole⟩ := h.email (Bool.eq_false_iff.2 hne)
    exact hlt role hrole
  · rcases h.pass hpass with ⟨salt, req, hcall, hcurrent, -⟩ | ⟨_, _, _, role, -, -, hrole, -⟩
    · exact ⟨salt, req, hcall, hcurrent⟩
    · exact absurd hrole (hlt role)

/-- The start of the server alone makes a root. -/
lemma Added.eq_rootId (h : Added S t l id u) (hu : u.urole = .root) :
    id = rootId ∧ ∃ salt password, S.calls t = .ensureRoot salt (some password) := by
  cases h with
  | registered _ _ _ => cases hu
  | verified _ _ _ _ => cases hu
  | created _ _ _ hrole _ => exact absurd hu (RbUserRole.canChangeRole_none_iff.1 hrole).1
  | root hcall hid _ => exact ⟨hid, _, _, hcall⟩

end Rows

/-! ## Roots -/

/-- The account is a root's, of the email, up to the case of its letters. -/
def RootWith (email : String) (id : Id) (v : View) : Prop :=
  ∃ u, v (.user id) = some u ∧ u.urole = .root ∧ eqIgnoreAsciiCase email u.email = true

/-- The password of an account, and whether it must be changed. -/
def secretOf (id : Id) (v : View) : Option (String × Bool) :=
  (v (.user id)).map fun u => (u.pass, u.mustChangePassword)

section Deeds

variable {S : Setting} {l : List AccountCommit} {e : AccountCommit} {id : Id}

/-- A commit changes an account as it is allowed to. -/
lemma Deed.allowed (h : Deed S l e) {u : RbUser} (hu : e.before (.user id) = some u) :
    ∃ u', e.after (.user id) = some u' ∧ Allowed S e.tid l id u u' := by
  rcases h.exists_user hu with hkept | ⟨u', how, hnew⟩
  · exact ⟨u, hkept, .refl⟩
  · exact ⟨u', hnew, how.allowed⟩

lemma Deed.rootWith (h : Deed S l e) {email : String} (hroot : RootWith email id e.before) :
    RootWith email id e.after := by
  obtain ⟨u, hu, hrole, hemail⟩ := hroot
  obtain ⟨u', hu', hallowed⟩ := h.allowed hu
  obtain ⟨hrole', hemail', -⟩ := hallowed.root hrole
  exact ⟨u', hu', hrole', eqIgnoreAsciiCase_trans hemail hemail'⟩

/-- The password of a root is changed by him. -/
lemma Deed.secretOf (h : Deed S l e) {email : String} (hroot : RootWith email id e.before)
    {secret : String × Bool} (hbefore : secretOf id e.before = some secret)
    (hafter : Accounts.secretOf id e.after ≠ some secret) {u : RbUser}
    (hu : (u.pass, u.mustChangePassword) = secret) :
    ∃ salt req, S.calls e.tid = .updatePassword id salt req ∧
      acceptsCurrent S.cfg u req.currentPassword = .ok true := by
  obtain ⟨w, hw, hrole, -⟩ := hroot
  obtain ⟨w', hw', hallowed⟩ := h.allowed hw
  rw [Accounts.secretOf, hw, Option.map_some, Option.some.injEq, ← hu, Prod.mk.injEq] at hbefore
  rw [Accounts.secretOf, hw', Option.map_some, ← hu, Ne, Option.some.injEq, Prod.mk.injEq,
    not_and_or, ← hbefore.1, ← hbefore.2] at hafter
  obtain ⟨salt, req, hcall, hcurrent⟩ := (hallowed.root hrole).2.2 hafter
  refine ⟨salt, req, hcall, ?_⟩
  unfold acceptsCurrent at hcurrent ⊢
  rwa [hbefore.1, hbefore.2] at hcurrent

end Deeds

/-! ## Pending accounts -/

/-- **An account whose email was verified**: a request to register, whose commit `e₁` comes after the
commits `l₁`, has put a pending account. It has stayed until the request that has the token and adds
the account with the commit `e`, after the commits `l`, has taken it, in time. -/
def Verified (S : Setting) (l₁ : List AccountCommit) (e₁ : AccountCommit) (l : List AccountCommit)
    (e : AccountCommit) (id : Id) (u : RbUser) : Prop :=
  ∃ r pass l₂ e₂ l₃, l = l₁ ++ e₁ :: (l₂ ++ e₂ :: l₃) ∧
    S.calls e₁.tid = .register r ∧ Registers S.cfg r true pass ∧
    u = .registered (r.req.normalized S.cfg).email pass ∧
    S.calls e.tid = .verify r.token id ∧ e₂.tid = e.tid ∧ e₂.start ≤ e₁.start + 15 * 60 * 1000 ∧
    (∀ e' ∈ l₂, e'.after (.pendingUser r.token) ≠ none) ∧ e₂.after (.pendingUser r.token) = none

/-- Lists that are split at the first element that does not meet a property are split alike. -/
lemma eq_of_append_cons_eq {α : Type} {p : α → Prop} {l l' r r' : List α} {a a' : α}
    (h : l ++ a :: r = l' ++ a' :: r') (hl : ∀ b ∈ l, p b) (hl' : ∀ b ∈ l', p b) (ha : ¬ p a)
    (ha' : ¬ p a') : a = a' := by
  induction l generalizing l' with
  | nil =>
    cases l' with
    | nil => exact (List.cons.inj h).1
    | cons b l' =>
      obtain rfl : a = b := (List.cons.inj h).1
      exact absurd (hl' a List.mem_cons_self) ha
  | cons b l ih =>
    cases l' with
    | nil =>
      obtain rfl : b = a' := (List.cons.inj h).1
      exact absurd (hl b List.mem_cons_self) ha'
    | cons b' l' =>
      exact ih (List.cons.inj h).2 (fun c hc => hl c (List.mem_cons_of_mem _ hc))
        fun c hc => hl' c (List.mem_cons_of_mem _ hc)

/-- **A registration is verified once**, at most. -/
lemma Verified.id_eq {S : Setting} {l₁ l l' r r' : List AccountCommit} {e₁ e e' : AccountCommit}
    {id id' : Id} {u u' : RbUser} (h : Verified S l₁ e₁ l e id u)
    (h' : Verified S l₁ e₁ l' e' id' u') (hj : l ++ e :: r = l' ++ e' :: r') : id = id' := by
  obtain ⟨reg, _, l₂, e₂, l₃, rfl, hcall₁, -, -, hcall, htid, -, hkept, htaken⟩ := h
  obtain ⟨reg', _, l₂', e₂', l₃', rfl, hcall₁', -, -, hcall', htid', -, hkept', htaken'⟩ := h'
  obtain rfl := Request.register.inj (hcall₁.symm.trans hcall₁')
  simp only [List.append_assoc, List.cons_append, List.append_cancel_left_eq,
    List.cons.injEq, true_and] at hj
  obtain rfl := eq_of_append_cons_eq hj hkept hkept' (fun h => h htaken) fun h => h htaken'
  rw [← htid, htid', hcall'] at hcall
  exact (Request.verify.inj hcall).2.symm

/-- **Where an account comes from** that the commit `e` adds after the commits `l`: it was let in, and
if it is one whose email was verified, its registration was. -/
structure Origin (S : Setting) (l : List AccountCommit) (e : AccountCommit) (id : Id) (u : RbUser) :
    Prop where
  added : Added S e.tid l id u
  verified : ∀ token newId, S.calls e.tid = .verify token newId → ∃ l₁ e₁, Verified S l₁ e₁ l e id u

/-- The registration of an account that is added when its email is verified. -/
lemma Added.exists_verified {S : Setting} {l : List AccountCommit} {e : AccountCommit} {id newId : Id}
    {u : RbUser} {token : String} {v : View} (h : Added S e.tid l id u)
    (hcall : S.calls e.tid = .verify token newId) (hl : Linked S.origin l v)
    (hdeeds : ∀ l₁ e₁ r, l = l₁ ++ e₁ :: r → Deed S l₁ e₁)
    (hnone : ∀ token, S.origin (.pendingUser token) = none) : ∃ l₁ e₁, Verified S l₁ e₁ l e id u := by
  cases h with
  | registered hcall' _ _ => cases hcall.symm.trans hcall'
  | created hcall' _ _ _ _ => cases hcall.symm.trans hcall'
  | root hcall' _ _ => cases hcall.symm.trans hcall'
  | @verified token' user e₂ hcall' he htid htakes =>
    obtain ⟨entry, hentry, hvalue, hlive, htaken⟩ := htakes
    obtain ⟨la, l₃, rfl, hla, -⟩ := hl.split he
    obtain ⟨l₁, e₁, l₂, rfl, hbefore, hafter, hrest⟩ :=
      hla.exists_last_change (p := fun v => v (.pendingUser token') = some entry)
        (by rw [hnone]; exact nofun) hentry
    rcases (hdeeds l₁ e₁ (l₂ ++ e₂ :: l₃) (by simp)).pendingUser token' with
      hkept | hgone | ⟨r, pass, hreg, hr, rfl, hput⟩
    · exact absurd (hkept.symm.trans hafter) hbefore
    · rw [hgone] at hafter
      cases hafter
    · obtain rfl := Option.some.inj (hput.symm.trans hafter)
      refine ⟨l₁, e₁, r, pass, l₂, e₂, l₃, by simp, hreg, hr, by rw [← hvalue]; rfl, hcall', htid, ?_,
        fun e' he' => ?_, by simp [htaken]⟩
      · simp only [pendingFor, Entry.live, decide_eq_true_eq] at hlive
        omega
      · rw [(hrest e' he').2]
        exact Option.some_ne_none _

/-! ## Runs -/

section Pool

variable {cfg : Config} {calls : Tid → Request}
  {c c' : Concurrency.Config Unit Store (Except String Reply)}

/-- **The chronicle of a run**: every commit is a deed. -/
lemma chronicled (hcalls : ∀ t, c.threads t = ((calls t).run cfg t).run) (hidle : c.shared.Idle)
    (hrun : Reaches Tick Always c c') :
    Chronicled (Deed ⟨cfg, calls, c.shared.committed⟩) c.shared.committed c'.shared := by
  refine (chronicled_of_reaches (Q := fun _ _ _ => True) hidle (fun t => ?_) hrun).1
  rw [hcalls t]
  exact (run_stage ⟨cfg, calls, c.shared.committed⟩ t c.shared
    ⟨hidle.sess t, [], List.nil_prefix, trivial⟩).mono (fun _ _ h => h) (fun _ _ h => h.2)
      (fun _ _ _ _ h => h) fun _ _ _ => trivial

/-- **The policy of every commit**: in every run of requests about accounts, a commit keeps every
account that is there, and changes of it only what the request that commits is allowed to, by the
role that the one who asks had when the request came in. -/
theorem allowed_of_reaches (hcalls : ∀ t, c.threads t = ((calls t).run cfg t).run)
    (hidle : c.shared.Idle) (hrun : Reaches Tick Always c c') {l r : List AccountCommit}
    {e : AccountCommit} (hjournal : c'.shared.journal = l ++ e :: r) {id : Id} {u : RbUser}
    (hu : e.before (.user id) = some u) :
    ∃ u', e.after (.user id) = some u' ∧
      Allowed ⟨cfg, calls, c.shared.committed⟩ e.tid l id u u' :=
  ((chronicled hcalls hidle hrun).commits l e r hjournal).allowed hu

/-- A library for passwords that marks them. -/
def markedPasswords : Config where
  hash salt password := .ok (toString salt ++ "$" ++ password)
  verify password pass := .ok (decide (("0$" ++ password) = pass))
  toLowercase text := String.ofList (text.toList.map Char.toLower)
  isEmail text := text.toList.contains '@'

/-- The root alone has an account. -/
def rootRows : View := applyPuts (insertPuts rootId (rootUser "0$password")) noRows

/-- A registration by email, and its verification; the root makes a moderator of the account, and
changes his own password. -/
def accountCalls : Tid → Request
  | 0 => .register ⟨⟨"a@b.c", "letters99"⟩, { requireEmailVerification := true }, true, true, 0, "k", 7⟩
  | 1 => .verify "k" 7
  | 2 => .update 0 7 ⟨"A@b.c", "Ann", none, 2⟩
  | _ => .updatePassword 0 0 ⟨some "password", "drowssap"⟩

def accountPool : Concurrency.Config Unit Store (Except String Reply) where
  shared := Db.init 0 rootRows
  threads t := ((accountCalls t).run markedPasswords t).run

/-- The requests, one after the other. -/
def accountSchedule : List (Move Store) :=
  List.replicate 5 (.thread 0) ++ List.replicate 4 (.thread 1) ++ List.replicate 7 (.thread 2) ++
    List.replicate 6 (.thread 3)

/-- The root makes a moderator of the account. -/
theorem allowed_of_reaches_accountPool : ∃ c', Reaches Tick Always accountPool c' ∧
    ∃ l e r u u', c'.shared.journal = l ++ e :: r ∧ e.before (.user 7) = some u ∧
      e.after (.user 7) = some u' ∧ u.urole = .user ∧ u'.urole = .moderator ∧
        Allowed ⟨markedPasswords, accountCalls, rootRows⟩ e.tid l 7 u u' := by
  obtain ⟨c', hrun, hc'⟩ := exists_reaches_of_exec Tick Always (c := accountPool) accountSchedule
    (p := fun c' => c'.shared.journal.any fun e =>
      decide ((e.before (.user 7)).map RbUser.urole = some .user) &&
        decide ((e.after (.user 7)).map RbUser.urole = some .moderator)) (by simp [accountSchedule])
    (by decide +kernel)
  obtain ⟨e, he, h⟩ := List.any_eq_true.1 hc'
  simp only [Bool.and_eq_true, decide_eq_true_eq, Option.map_eq_some_iff] at h
  obtain ⟨⟨u, hu, hrole⟩, u₁, hu₁, hrole₁⟩ := h
  obtain ⟨l, r, hjournal⟩ := List.append_of_mem he
  obtain ⟨u', hu', hallowed⟩ := allowed_of_reaches (c := accountPool) (fun _ => rfl)
    (Db.init_idle _ _) hrun hjournal hu
  obtain rfl := Option.some.inj (hu₁.symm.trans hu')
  exact ⟨c', hrun, l, e, r, u, u₁, hjournal, hu, hu', hrole, hrole₁, hallowed⟩

/-- **The roots of a run**: a root stays one, with his email up to the case of its letters, and his
password is changed only by a request of his own that gives the one he has at the start; and nobody
else becomes a root, but the account that the start of the server adds where it is missing. -/
theorem root_of_reaches (hcalls : ∀ t, c.threads t = ((calls t).run cfg t).run)
    (hidle : c.shared.Idle) (hrun : Reaches Tick Always c c') (id : Id) :
    (∀ u, c.shared.committed (.user id) = some u → u.urole = .root →
      RootWith u.email id c'.shared.committed ∧
        (secretOf id c'.shared.committed ≠ secretOf id c.shared.committed →
          ∃ t salt req, calls t = .updatePassword id salt req ∧
            acceptsCurrent cfg u req.currentPassword = .ok true)) ∧
      ∀ u', c'.shared.committed (.user id) = some u' → u'.urole = .root →
        (∃ u, c.shared.committed (.user id) = some u ∧ u.urole = .root) ∨
          id = rootId ∧ c.shared.committed (.user id) = none ∧
            ∃ t salt password, calls t = .ensureRoot salt (some password) := by
  have hjournal := chronicled hcalls hidle hrun
  have hdeed : ∀ e ∈ c'.shared.journal, ∃ l, Deed ⟨cfg, calls, c.shared.committed⟩ l e := by
    intro e he
    obtain ⟨l, r, hl⟩ := List.append_of_mem he
    exact ⟨l, hjournal.commits l e r hl⟩
  refine ⟨fun u hu hrole => ?_, fun u' hu' hrole => ?_⟩
  · have hroot : RootWith u.email id c.shared.committed := ⟨u, hu, hrole, eqIgnoreAsciiCase_self _⟩
    have hstep : ∀ e ∈ c'.shared.journal, RootWith u.email id e.before →
        RootWith u.email id e.after := by
      intro e he h
      obtain ⟨l, hl⟩ := hdeed e he
      exact hl.rootWith h
    refine ⟨hjournal.linked.invariant hroot hstep, fun hne => ?_⟩
    -- the first commit that changes the password finds the one of the start
    obtain ⟨l₁, e, l₂, hl, hbefore, hafter⟩ := hjournal.linked.exists_change
      (p := fun v => secretOf id v = some (u.pass, u.mustChangePassword))
      (by rw [secretOf, hu]; rfl) fun h => hne (h.trans (by rw [secretOf, hu]; rfl))
    rw [hl] at hstep
    obtain ⟨w, hlinked, rfl, -⟩ := Linked.append_iff.1 (hl ▸ hjournal.linked)
    have he : RootWith u.email id e.before := hlinked.invariant hroot fun e' he' =>
      hstep e' (List.mem_append_left _ he')
    obtain ⟨salt, req, hcall, hcurrent⟩ :=
      (hjournal.commits l₁ e l₂ hl).secretOf he hbefore hafter rfl
    exact ⟨e.tid, salt, req, hcall, hcurrent⟩
  · refine or_iff_not_imp_left.2 fun hno => ?_
    obtain ⟨l₁, e, l₂, hl, hbefore, hafter⟩ := hjournal.linked.exists_change
      (p := fun v => ¬ ∃ u, v (.user id) = some u ∧ u.urole = .root) hno
      (not_not.2 ⟨u', hu', hrole⟩)
    obtain ⟨w, hw, hwrole⟩ := not_not.1 hafter
    rcases (hjournal.commits l₁ e l₂ hl).user id with
      hkept | ⟨hnone, v, now, how, hadded⟩ | ⟨v, v', hv, how, hnew⟩
    · exact absurd ⟨w, hkept.symm.trans hw, hwrole⟩ hbefore
    · obtain rfl := Option.some.inj (hadded.symm.trans hw)
      obtain ⟨hid, salt, password, hcall⟩ := how.eq_rootId hwrole
      refine ⟨hid, by_contra fun hsome => ?_, e.tid, salt, password, hcall⟩
      obtain ⟨w', hlinked, rfl, -⟩ := Linked.append_iff.1 (hl ▸ hjournal.linked)
      refine hlinked.invariant (p := fun v => v (.user id) ≠ none) hsome (fun e' he' h => ?_) hnone
      obtain ⟨l', hl'⟩ := hdeed e' (hl ▸ List.mem_append_left _ he')
      exact hl'.user_ne_none h
    · obtain rfl := Option.some.inj (hnew.symm.trans hw)
      have hvrole : v.urole = .root :=
        by_contra fun hne => (how.allowed.role fun h => hne (h.symm.trans hwrole)).2.1 hwrole
      exact absurd ⟨v, hv, hvrole⟩ hbefore

/-- The root changes his password, and stays the root. -/
theorem root_of_reaches_accountPool : ∃ c', Reaches Tick Always accountPool c' ∧
    (c'.shared.committed (.user rootId)).map RbUser.pass = some "0$drowssap" ∧
      RootWith rootEmail rootId c'.shared.committed ∧
        ∃ t salt req, accountCalls t = .updatePassword rootId salt req ∧
          acceptsCurrent markedPasswords (rootUser "0$password") req.currentPassword = .ok true := by
  obtain ⟨c', hrun, hc'⟩ := exists_reaches_of_exec Tick Always (c := accountPool) accountSchedule
    (p := fun c' => decide ((c'.shared.committed (.user rootId)).map RbUser.pass =
      some "0$drowssap")) (by simp [accountSchedule]) (by decide +kernel)
  have hpass := of_decide_eq_true hc'
  obtain ⟨hroot, hchange⟩ := (root_of_reaches (c := accountPool) (fun _ => rfl) (Db.init_idle _ _)
    hrun rootId).1 (rootUser "0$password") rfl rfl
  refine ⟨c', hrun, hpass, hroot, hchange fun hsame => ?_⟩
  obtain ⟨u, hu, hpass⟩ := Option.map_eq_some_iff.1 hpass
  rw [secretOf, hu] at hsame
  have hold : u.pass = "0$password" := congrArg Prod.fst (Option.some.inj hsame)
  rw [hold] at hpass
  exact absurd hpass (by decide)

/-- **The origin of every account that is new**: in every run that begins where no registration waits
for its email to be verified, an account that a commit adds was let in, or its email was verified in
time after its registration was; and no two accounts come from one registration by email. -/
theorem origin_of_reaches (hcalls : ∀ t, c.threads t = ((calls t).run cfg t).run)
    (hidle : c.shared.Idle) (hrun : Reaches Tick Always c c')
    (hnone : ∀ token, c.shared.committed (.pendingUser token) = none) {l r : List AccountCommit}
    {e : AccountCommit} (hjournal : c'.shared.journal = l ++ e :: r) {id : Id} {u : RbUser}
    (hnew : e.before (.user id) = none) (hu : e.after (.user id) = some u) :
    (∃ u₀ now, u = u₀.inserted id now ∧
      Origin ⟨cfg, calls, c.shared.committed⟩ l e id u₀) ∧
      ∀ l₁ e₁ u₁, Verified ⟨cfg, calls, c.shared.committed⟩ l₁ e₁ l e id u₁ →
        ∀ l' e' r' id' u', c'.shared.journal = l' ++ e' :: r' →
          Verified ⟨cfg, calls, c.shared.committed⟩ l₁ e₁ l' e' id' u' → id' = id := by
  have hchronicle := chronicled hcalls hidle hrun
  refine ⟨?_, fun l₁ e₁ u₁ h l' e' r' id' u' hl' h' => h'.id_eq h (hl'.symm.trans hjournal)⟩
  rcases (hchronicle.commits l e r hjournal).user id with
    hkept | ⟨-, u₀, now, how, hadded⟩ | ⟨v, -, hv, -⟩
  · rw [hkept, hnew] at hu
    cases hu
  · obtain ⟨v, hl, -⟩ := Linked.append_iff.1 (hjournal ▸ hchronicle.linked)
    refine ⟨u₀, now, Option.some.inj (hu.symm.trans hadded), how, fun token newId hcall => ?_⟩
    refine how.exists_verified hcall hl (fun l₁ e₁ r₁ hl₁ => ?_) hnone
    refine hchronicle.commits l₁ e₁ (r₁ ++ e :: r) ?_
    rw [hjournal, hl₁, List.append_assoc, List.cons_append]
  · rw [hnew] at hv
    cases hv

/-- The account comes from the registration by email. -/
theorem origin_of_reaches_accountPool : ∃ c', Reaches Tick Always accountPool c' ∧
    ∃ l e r l₁ e₁ u, c'.shared.journal = l ++ e :: r ∧ e.before (.user 7) = none ∧
      Verified ⟨markedPasswords, accountCalls, rootRows⟩ l₁ e₁ l e 7 u := by
  obtain ⟨c', hrun, hc'⟩ := exists_reaches_of_exec Tick Always (c := accountPool) accountSchedule
    (p := fun c' => c'.shared.journal.any fun e => decide (e.tid = 1) &&
      decide (e.before (.user 7) = none) && (e.after (.user 7)).isSome) (by simp [accountSchedule])
    (by decide +kernel)
  obtain ⟨e, he, h⟩ := List.any_eq_true.1 hc'
  simp only [Bool.and_eq_true, decide_eq_true_eq, Option.isSome_iff_exists] at h
  obtain ⟨⟨htid, hnew⟩, u, hu⟩ := h
  obtain ⟨l, r, hjournal⟩ := List.append_of_mem he
  obtain ⟨u₀, now, -, horigin⟩ := (origin_of_reaches (c := accountPool) (fun _ => rfl)
    (Db.init_idle _ _) hrun (fun _ => rfl) hjournal hnew hu).1
  obtain ⟨l₁, e₁, hverified⟩ := horigin.verified "k" 7 (by rw [htid]; rfl)
  exact ⟨c', hrun, l, e, r, l₁, e₁, u₀, hjournal, hnew, hverified⟩

end Pool

end Accounts
