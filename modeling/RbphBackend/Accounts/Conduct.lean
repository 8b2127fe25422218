import RbphBackend.Accounts.Calls
import RbphBackend.Concurrency.Chronicle
import RbphBackend.Concurrency.Guards

set_option relaxedAutoImplicit false
set_option autoImplicit false

/-!
# What the requests about accounts do

Every commit of a request does one thing: it adds an account or changes one, or it writes a key of a
pending registration. Why it may do so was seen before: the role of the account that asks for it, or
the pending registration that has been taken.

## Main definitions

* `Accounts.Setting` — a pool of requests.
* `Accounts.Added`, `Accounts.Changed` — why an account is added, and why it is changed.
* `Accounts.Deed` — what a commit does, after the commits before it.
* `Accounts.Stage`, `Accounts.Part` — a part of a request, and of its transaction.

## Main results

* `Accounts.run_stage` — every commit of a request is a deed.
-/

namespace Accounts

open Concurrency ReadCommitted Expiring Games

/-! ## Deeds -/

/-- A pool of requests, and what is committed where its run begins. -/
structure Setting where
  cfg : Config
  calls : Tid → Request
  origin : View

/-- The account has the role, and its password need not be changed. -/
def HasRole (actor : Id) (role : RbUserRole) (v : View) : Prop :=
  ∃ a, v (.user actor) = some a ∧ a.urole = role ∧ a.mustChangePassword = false

/-- The commit takes the pending account of the token. -/
def Takes (token : String) (user : PendingUser) (e : AccountCommit) : Prop :=
  ∃ entry, e.before (.pendingUser token) = some entry ∧ entry.value = user ∧
    entry.live e.start = true ∧ e.after = Function.update e.before (.pendingUser token) none

/-- An account that registers itself. -/
def RbUser.registered (email pass : String) : RbUser := { email, pass }

/-- An account that the staff creates. -/
def RbUser.created (req : UserWriteRequest) (pass : String) : RbUser where
  email := req.email
  pass
  nickname := req.nickname
  bio := req.bio
  urole := .ofCode req.role
  mustChangePassword := true

/-- A registration that is let in. -/
structure Registers (cfg : Config) (r : Registration) (byEmail : Bool) (pass : String) : Prop where
  isOpen : r.settings.registrationOpen = true
  byEmail : r.byEmail = byEmail
  hash : cfg.hash r.salt (r.req.normalized cfg).password = .ok pass

/-- **Why an account is added**, by the request of session `t` after the commits `l`. -/
inductive Added (S : Setting) (t : Tid) (l : List AccountCommit) (id : Id) : RbUser → Prop
  | registered {r : Registration} {pass : String} (hcall : S.calls t = .register r)
      (hid : r.newId = id) (hr : Registers S.cfg r false pass) :
      Added S t l id (.registered (r.req.normalized S.cfg).email pass)
  | verified {token : String} {user : PendingUser} {e : AccountCommit}
      (hcall : S.calls t = .verify token id) (he : e ∈ l) (htid : e.tid = t)
      (htakes : Takes token user e) : Added S t l id (.registered user.email user.pass)
  | created {actor : Id} {salt : ℕ} {password pass : String} {req : UserWriteRequest}
      {role : RbUserRole} (hcall : S.calls t = .create actor salt id password req)
      (hwas : Was S.origin l (HasRole actor role)) (hadmin : role.ge .admin = true)
      (hrole : role.canChangeRole none (.ofCode req.role) = true)
      (hpass : S.cfg.hash salt password = .ok pass) :
      Added S t l id (.created (req.normalized S.cfg) pass)
  | root {salt : ℕ} {password pass : String} (hcall : S.calls t = .ensureRoot salt (some password))
      (hid : id = rootId) (hpass : S.cfg.hash salt password = .ok pass) :
      Added S t l id (rootUser pass)

/-- **Why an account is changed**, by the request of session `t` after the commits `l`. -/
inductive Changed (S : Setting) (t : Tid) (l : List AccountCommit) (id : Id) (u : RbUser) :
    RbUser → Prop
  | profile {req : UserProfileUpdateRequest} (hcall : S.calls t = .updateInfo id req) :
      Changed S t l id u
        (u.withProfile (trim req.nickname) (trimmedText req.bio) req.avatarProvider)
  | password {salt : ℕ} {req : UserPasswordUpdateRequest} {pass : String}
      (hcall : S.calls t = .updatePassword id salt req)
      (hcurrent : acceptsCurrent S.cfg u req.currentPassword = .ok true)
      (hnew : S.cfg.verify req.newPassword u.pass = .ok false)
      (hpass : S.cfg.hash salt req.newPassword = .ok pass) :
      Changed S t l id u (u.withPassword pass false)
  | rewritten {actor : Id} {req : UserWriteRequest} {role : RbUserRole}
      (hcall : S.calls t = .update actor id req) (hwas : Was S.origin l (HasRole actor role))
      (hadmin : role.ge .admin = true) (hself : actor = id → u.urole = .ofCode req.role)
      (hrole : role.canChangeRole (some u.urole) (.ofCode req.role) = true)
      (hemail : eqIgnoreAsciiCase u.email (req.normalized S.cfg).email = true ∨
        role.canManageCredentials u.urole = true) :
      Changed S t l id u (u.rewritten (req.normalized S.cfg))
  | reset {actor : Id} {salt : ℕ} {password pass : String} {role : RbUserRole}
      (hcall : S.calls t = .resetPassword actor salt id password)
      (hwas : Was S.origin l (HasRole actor role)) (hadmin : role.ge .admin = true)
      (hrole : role.canManageCredentials u.urole = true)
      (hpass : S.cfg.hash salt password = .ok pass) :
      Changed S t l id u (u.withPassword pass true)

/-- **What a commit does**, after the commits `l`. -/
inductive Deed (S : Setting) (l : List AccountCommit) (e : AccountCommit) : Prop
  | kept (h : e.after = e.before)
  | pending {r : Registration} {pass : String} (hcall : S.calls e.tid = .register r)
      (hr : Registers S.cfg r true pass)
      (h : e.after = Function.update e.before (.pendingUser r.token)
        (some (pendingFor e.start ⟨(r.req.normalized S.cfg).email, pass⟩)))
  | listed {email : String} {x : Option (Entry String)}
      (h : e.after = Function.update e.before (.pendingEmail email) x)
  | took {token : String} {newId : Id} {user : PendingUser}
      (hcall : S.calls e.tid = .verify token newId) (htakes : Takes token user e)
  | added {id : Id} {u : RbUser} (hnone : e.before (.user id) = none)
      (hfree : e.before (.email u.email) = none) (how : Added S e.tid l id u)
      (h : ∃ now, e.after = applyPuts (insertPuts id (u.inserted id now)) e.before)
  | changed {id : Id} {u u' : RbUser} (hrow : e.before (.user id) = some u)
      (hfree : u'.email = u.email ∨ e.before (.email u'.email) = none)
      (how : Changed S e.tid l id u u') (h : e.after = applyPuts (updatePuts id u u') e.before)

/-! ## Parts of a transaction -/

/-- What the other requests of the pool do. -/
abbrev Among (S : Setting) (t : Tid) : Store → Store → Prop := (chronicle (Deed S) S.origin).Others t

/-- What holds where an action is taken. -/
def Admitted (S : Setting) (_ : Unit) (d : Store) : Prop := Chronicled (Deed S) S.origin d

/-- A part of the transaction of a request. -/
abbrev Part {α : Type} (S : Setting) (t : Tid) (M : Draft Val EventLogInput → Prop) (p : Call α)
    (N : α → Draft Val EventLogInput → Prop) : Prop :=
  Draws (Among S t) (Admitted S) (Contract.none Val) t (fun _ => True) M p N fun _ => True

/-- The transaction has just begun, or has taken locks only. -/
abbrev Begun (t : Tid) (dr : Draft Val EventLogInput) : Prop := Wrote t [] [] (fun _ => True) dr

/-- The transaction holds the row of the account, and has written nothing. -/
abbrev Locked (t : Tid) (id : Id) (u : RbUser) (dr : Draft Val EventLogInput) : Prop :=
  Wrote t [.user id] [] (fun v => v (.user id) = some u) dr

/-- The transaction has added the account. -/
structure Inserted (t : Tid) (id : Id) (u : RbUser) (dr : Draft Val EventLogInput) : Prop where
  tid : dr.tid = t
  fresh : dr.before (.user id) = none
  free : dr.before (.email u.email) = none
  after : ∃ now, dr.after = applyPuts (insertPuts id (u.inserted id now)) dr.before

/-- The transaction has changed the row of the account. -/
structure Rewritten (t : Tid) (id : Id) (u u' : RbUser) (dr : Draft Val EventLogInput) : Prop where
  tid : dr.tid = t
  row : dr.before (.user id) = some u
  free : u'.email = u.email ∨ dr.before (.email u'.email) = none
  after : dr.after = applyPuts (updatePuts id u u') dr.before

section Parts

variable {S : Setting} {t : Tid} {id : Id} {u : RbUser} {M : Draft Val EventLogInput → Prop}

/-- A statement that writes rows or locks them. -/
lemma Part.query {β : Type} {stmt : Statement β} {N : β → Draft Val EventLogInput → Prop}
    (hN : ∀ dr₀ dr eff, M dr₀ → M dr → stmt dr₀.after dr₀.start = .ok eff →
      dr₀.Later (Contract.none Val) eff.keys dr → N eff.val (dr.add eff)) :
    Part S t M (Tx.query t () stmt) N :=
  Draws.query (fun _ => True) (fun _ _ => trivial) (fun _ _ => trivial)
    fun dr₀ dr eff h₀ h _ _ _ => hN dr₀ dr eff h₀ h

/-- A statement that reads. -/
lemma Part.read {β : Type} {f : View → ℤ → Except String β} :
    Part S t M (Tx.query t () (Stmt.read f)) fun _ => M :=
  Draws.read (fun _ _ => trivial) fun _ _ _ _ h _ _ _ _ => h

lemma Part.throw {β : Type} {e : String} {N : β → Draft Val EventLogInput → Prop} :
    Part S t M (throw e) N := Draws.throw fun _ _ _ => trivial

/-- A part that returns what is not to be committed. -/
lemma refused_part {α : Type} {N : Draft Val EventLogInput → Prop} {a : α} :
    Part S t M (return (false, a)) fun r dr => r.1 = true → N dr :=
  Draws.pure fun _ _ _ h => by cases h

lemma fetchOne_part {α : Type} {M : α → Draft Val EventLogInput → Prop} {a : Option α} :
    Part S t (fun dr => ∀ b, a = some b → M b dr) (fetchOne a) M := by
  cases a with
  | none => exact Part.throw
  | some a => exact Draws.pure fun _ _ h => h a rfl

/-- The row of the account is locked, if there is one. -/
lemma selectForUpdate_part :
    Part S t (Begun t) (Tx.query t () (selectForUpdate id))
      fun r dr => ∀ u, r = some u → Locked t id u dr := by
  refine Part.query fun dr₀ dr eff h₀ h he hlater u hu => ?_
  unfold selectForUpdate at he
  split at he
  · obtain rfl := Except.ok.inj he
    cases hu
  · rename_i u₁ hrow
    obtain rfl := Except.ok.inj he
    obtain rfl := Option.some.inj hu
    obtain ⟨hb, ha⟩ := h.later_eq hlater (k := .user id) (.inl (by simp [Effect.keys]))
    refine (h.lock (ha.trans hrow).symm).know ?_
    show dr.before (.user id) = some u₁
    rw [hb, ← hrow, h₀.after_eq]

/-- The draft after the row that is held has been changed. -/
lemma rewritten_of_updateUser {f : RbUser → RbUser} {dr₀ dr : Draft Val EventLogInput}
    {eff : Effect Val EventLogInput (Option RbUser)} (h₀ : Locked t id u dr₀) (h : Locked t id u dr)
    (he : updateUser id f dr₀.after dr₀.start = .ok eff)
    (hlater : dr₀.Later (Contract.none Val) eff.keys dr) :
    eff.val = some (f u) ∧ Rewritten t id u (f u) (dr.add eff) := by
  have hrow : dr₀.after (.user id) = some u := by rw [h₀.after_eq, h₀.facts]
  unfold updateUser at he
  rw [hrow] at he
  dsimp only at he
  split_ifs at he with hfits hemail
  obtain rfl := Except.ok.inj he
  refine ⟨rfl, h.tid, h.facts, ?_, ?_⟩
  · by_cases hsame : (f u).email = u.email
    · exact .inl hsame
    · have hkey : Key.email (f u).email ∈ (updatePuts id u (f u)).map (·.1) := by
        simp [updatePuts, hsame]
      have hnone : dr₀.after (.email (f u).email) = none := by
        have hnot : ¬ (dr₀.after (.email (f u).email)).isSome = true := fun h => hemail ⟨hsame, h⟩
        simpa using hnot
      refine .inr ?_
      show dr.before (.email (f u).email) = none
      rw [(h.later_eq hlater (.inl hkey)).1, ← hnone, h₀.after_eq]
  · show applyPuts (updatePuts id u (f u)) dr.after = applyPuts (updatePuts id u (f u)) dr.before
    rw [h.after_eq]

/-- The row that is held is changed. -/
lemma updateUser_part {f : RbUser → RbUser} :
    Part S t (Locked t id u) (Tx.query t () (updateUser id f))
      fun r dr => r = some (f u) ∧ Rewritten t id u (f u) dr :=
  Part.query fun _ _ _ h₀ h he hlater => rewritten_of_updateUser h₀ h he hlater

/-- The row that is held is changed, where no other account has the email. -/
lemma adminUpdateRow_part {req : UserWriteRequest} :
    Part S t (Locked t id u) (Tx.query t () (adminUpdateRow id req))
      fun r dr => ∀ user, r = some user → Rewritten t id u (u.rewritten req) dr := by
  refine Part.query fun dr₀ dr eff h₀ h he hlater user hu => ?_
  unfold adminUpdateRow at he
  split_ifs at he
  · obtain rfl := Except.ok.inj he
    cases hu
  · exact (rewritten_of_updateUser h₀ h he hlater).2

/-- The account is added. -/
lemma insertUser_part :
    Part S t (Begun t) (Tx.query t () (insertUser id u false)) fun _ => Inserted t id u := by
  refine Part.query fun dr₀ dr eff h₀ h he hlater => ?_
  unfold insertUser at he
  split_ifs at he with hfits hemail hskip hid
  · cases hskip
  · obtain rfl := Except.ok.inj he
    have hnone : dr₀.after (.user id) = none := by simpa using hid
    have hfree : dr₀.after (.email u.email) = none := by simpa using hemail
    refine ⟨h.tid, ?_, ?_, dr₀.start, ?_⟩
    · show dr.before (.user id) = none
      rw [(h.later_eq hlater (.inl (by simp [Effect.keys, insertPuts]))).1, ← hnone, h₀.after_eq]
    · show dr.before (.email u.email) = none
      rw [(h.later_eq hlater (.inl (by simp [Effect.keys, insertPuts, RbUser.inserted]))).1,
        ← hfree, h₀.after_eq]
    · show applyPuts _ dr.after = applyPuts _ dr.before
      rw [h.after_eq]

/-- An event, where inserting one changes nothing. -/
lemma insertEvent_part {event : EventLogInput}
    (hM : ∀ dr (inserts : List EventLogInput), M dr →
      M (dr.add ({ val := (), inserts := inserts } : Effect Val EventLogInput Unit))) :
    Part S t M (Tx.query t () (insertEvent event)) fun _ => M := by
  refine Part.query fun dr₀ dr eff _ h he _ => ?_
  unfold insertEvent at he
  split_ifs at he
  obtain rfl := Except.ok.inj he
  exact hM dr _ h

lemma lockRoot_part : Part S t (Begun t) (Tx.query t () lockRoot) fun _ => Begun t := by
  refine Part.query fun dr₀ dr eff _ h he _ => ?_
  obtain rfl := Except.ok.inj he
  have hlock := h.lock (b := ()) (x := dr₀.after .rootLock) rfl
  exact ⟨hlock.tid, by simp, hlock.after, trivial⟩

/-- **The transaction of `change_password`.** -/
lemma changePasswordBody_part {salt : ℕ} {req : UserPasswordUpdateRequest} :
    Part S t (Begun t) (changePasswordBody S.cfg t id salt req) fun r dr => r.1 = true →
      ∃ u pass, Rewritten t id u (u.withPassword pass false) dr ∧
        acceptsCurrent S.cfg u req.currentPassword = .ok true ∧
        S.cfg.verify req.newPassword u.pass = .ok false ∧
        S.cfg.hash salt req.newPassword = .ok pass := by
  refine Draws.bind selectForUpdate_part fun current => Draws.bind fetchOne_part fun u => ?_
  split
  · exact Part.throw
  · exact refused_part
  · rename_i haccepts
    split
    · exact Part.throw
    · exact refused_part
    · rename_i hnew
      split
      · exact Part.throw
      · rename_i pass hpass
        refine Draws.bind updateUser_part fun updated => Draws.pure fun dr _ h _ => ?_
        exact ⟨u, pass, h.2, haccepts, hnew, hpass⟩

/-- **The transaction of `admin_update`.** -/
lemma adminUpdateBody_part {actor : Id} {role : RbUserRole} {req : UserWriteRequest} :
    Part S t (Begun t) (adminUpdateBody t actor role id req) fun r dr => r.1 = true →
      ∃ u, Rewritten t id u (u.rewritten req) dr ∧
        (actor = id → u.urole = .ofCode req.role) ∧
        role.canChangeRole (some u.urole) (.ofCode req.role) = true ∧
        (eqIgnoreAsciiCase u.email req.email = true ∨
          role.canManageCredentials u.urole = true) := by
  refine Draws.bind selectForUpdate_part fun current => ?_
  cases current with
  | none => exact refused_part
  | some u =>
    dsimp only
    split_ifs with hself hrole hemail
    · exact refused_part
    · exact refused_part
    · exact refused_part
    · refine Draws.bind (N := fun r dr => ∀ user, r = some user →
        Rewritten t id u (u.rewritten req) dr) (Draws.conseq (adminUpdateRow_part (u := u))
          (fun dr _ h => h u rfl) (fun _ _ _ h => h) fun _ _ h => h) fun updated => ?_
      cases updated with
      | none => exact refused_part
      | some user =>
        refine Draws.pure fun dr _ h _ => ⟨u, h user rfl, fun hid => ?_, ?_, ?_⟩
        · exact not_not.1 fun hne => hself ⟨hid, hne⟩
        · simpa using hrole
        · simpa [or_iff_not_imp_left] using hemail

/-- **The transaction of `admin_reset_password`.** -/
lemma adminResetBody_part {role : RbUserRole} {salt : ℕ} {password : String} :
    Part S t (Begun t) (adminResetBody S.cfg t role salt id password) fun r dr => r.1 = true →
      ∃ u pass, Rewritten t id u (u.withPassword pass true) dr ∧
        role.canManageCredentials u.urole = true ∧ S.cfg.hash salt password = .ok pass := by
  refine Draws.bind selectForUpdate_part fun target => ?_
  cases target with
  | none => exact refused_part
  | some u =>
    dsimp only
    split_ifs with hrole
    · split
      · exact Part.throw
      · rename_i pass hpass
        refine Draws.bind (Draws.conseq (updateUser_part (u := u)) (fun dr _ h => h u rfl)
          (fun _ _ _ h => h) fun _ _ h => h) fun updated => Draws.pure fun dr _ h _ => ?_
        exact ⟨u, pass, h.2, hrole, hpass⟩
    · exact refused_part

/-- What `ensure_root` drafts: nothing, or the account of the root. -/
def MakesRoot (S : Setting) (t : Tid) (salt : ℕ) (password : Option String)
    (dr : Draft Val EventLogInput) : Prop :=
  dr.after = dr.before ∨ ∃ given pass, password = some given ∧ S.cfg.hash salt given = .ok pass ∧
    Inserted t rootId (rootUser pass) dr

lemma makeRoot_part {salt : ℕ} {password : Option String} :
    Part S t (Begun t) (makeRoot S.cfg t salt password) fun r dr => r.1 = true →
      MakesRoot S t salt password dr := by
  cases password with
  | none => exact Part.throw
  | some given =>
    unfold makeRoot
    dsimp only
    split_ifs
    · refine Draws.bind (Part.read (M := Begun t)) fun owner => ?_
      cases owner with
      | some _ => exact Part.throw
      | none =>
        dsimp only
        split
        · exact Part.throw
        · rename_i pass hpass
          refine Draws.bind insertUser_part fun inserted => Draws.bind (insertEvent_part
            fun dr inserts h => ?_) fun _ => Draws.pure fun dr _ h _ => ?_
          · exact ⟨h.tid, h.fresh, h.free, h.after⟩
          · exact .inr ⟨given, pass, rfl, hpass, h⟩
    · exact Part.throw

/-- **The transaction of `ensure_root`.** -/
lemma ensureRootBody_part {salt : ℕ} {password : Option String} :
    Part S t (Begun t) (ensureRootBody S.cfg t salt password) fun r dr => r.1 = true →
      MakesRoot S t salt password dr := by
  refine Draws.bind lockRoot_part fun _ => Draws.bind (Part.read (M := Begun t)) fun existing => ?_
  cases existing with
  | none => exact makeRoot_part
  | some existing =>
    dsimp only
    split_ifs
    · exact Draws.pure fun dr _ h _ => .inl h.after_eq
    · exact Part.throw

end Parts

/-! ## Parts of a request -/

/-- Between transactions: what the session knows of the past. -/
def At (t : Tid) (q : List AccountCommit → Prop) (d : Store) : Prop := NoTx t d ∧ Known q d

section Stages

variable {S : Setting} {t : Tid} {α β : Type} {q : List AccountCommit → Prop}
  {B : α → List AccountCommit → Prop}

/-- A part of a request, outside its transaction. -/
abbrev Stage (S : Setting) (t : Tid) (q : List AccountCommit → Prop) (p : Call α)
    (B : α → List AccountCommit → Prop) : Prop :=
  Prog.Triple (Among S t) (Admitted S) ((chronicle (Deed S) S.origin).Guarantee t) (At t q) p.run
    (Post (fun a => At t (B a)) fun _ => NoTx t)

/-- Whatever is returned. -/
abbrev Anything : α → List AccountCommit → Prop := fun _ _ => True

lemma stable_at : Stable (Among S t) (At t q) := stable_noTx.and stable_known

lemma Stage.pure {a : α} (h : ∀ l, q l → B a l) : Stage S t q (Pure.pure a) B :=
  Fallible.pure_triple stable_at fun _ hd => ⟨hd.1, hd.2.imp fun l hl => ⟨hl.1, h l hl.2⟩⟩

lemma Stage.throw {e : String} : Stage S t q (MonadExcept.throw e : Call α) B :=
  Fallible.throw_triple stable_at fun _ hd => hd.1

/-- Composition: an error ends the request. -/
lemma Stage.bind {C : β → List AccountCommit → Prop} {p : Call β} {k : β → Call α}
    (hp : Stage S t q p C) (hk : ∀ b, Stage S t (C b) (k b) B) : Stage S t q (p >>= k) B :=
  Fallible.bind_triple hp (fun _ _ _ _ h => h) (IsRely.refl t)
    (fun _ d d' h hr => stable_noTx d d' h hr) hk

lemma checked_stage {r : Except String α} (h : ∀ a, r = .ok a → ∀ l, q l → B a l) :
    Stage S t q (checked r) B := by
  cases r with
  | ok a => exact Stage.pure (h a rfl)
  | error e => exact Stage.throw

lemma fetchOne_stage {a : Option α} (h : ∀ b, a = some b → ∀ l, q l → B b l) :
    Stage S t q (fetchOne a) B := by
  cases a with
  | none => exact Stage.throw
  | some a => exact Stage.pure (h a rfl)

/-- Where nothing is to be told. -/
lemma Stage.done {a : α} : Stage S t q (Pure.pure a) Anything := Stage.pure fun _ _ => trivial

/-- What does not depend on the past holds. -/
lemma Stage.const {P : Prop} {p : Call α} (h : P → Stage S t (fun _ => P) p B) :
    Stage S t (fun _ => P) p B := by
  rintro d ⟨hd, l, hl, hP⟩
  exact h hP d ⟨hd, l, hl, hP⟩

/-- A read, of what was committed once. -/
lemma Stage.read {f : View → ℤ → Except String α}
    (h : ∀ v now l a, f v now = .ok a → Linked S.origin l v → B a l) :
    Stage S t q (Tx.pool t () (Stmt.read f)) B := by
  refine Tx.pool_read_triple stable_at (fun _ => stable_at) (fun _ => stable_noTx)
    (fun d a hd ho he => ⟨hd.1, d.journal, List.prefix_rfl, ?_⟩) fun d e hd _ _ => hd.1
  exact h d.committed d.now d.journal a he ho.linked

/-- A read whose result does not matter. -/
lemma Stage.skip {f : View → ℤ → Except String α} :
    Stage S t q (Tx.pool t () (Stmt.read f)) Anything := Stage.read fun _ _ _ _ _ _ => trivial

/-- **A statement that is a transaction of its own.** -/
lemma Stage.pool {stmt : Statement α}
    (hread : ∀ l v now eff, q l → stmt v now = .ok eff → eff.puts = [] → B eff.val l)
    (hwrite : ∀ l l' v now eff, l <+: l' → q l → stmt v now = .ok eff →
      Deed S l' ⟨t, now, v, applyPuts eff.puts v, eff.inserts⟩ ∧
        B eff.val (l' ++ [⟨t, now, v, applyPuts eff.puts v, eff.inserts⟩])) :
    Stage S t q (Tx.pool t () stmt) B := by
  refine (Tx.pool_records_triple (A := At t q) (Q := Post (fun a => At t (B a)) fun _ => NoTx t)
    stable_at (fun r => stable_post (fun _ => stable_at) (fun _ => stable_noTx) r) (fun _ h => h.1)
    (fun d eff hd _ he hputs _ => ?_) (fun d d' eff hd _ he _ hrec => ?_) fun d e hd _ _ => hd.1)
  · exact ⟨hd.1, hd.2.imp fun l hl => ⟨hl.1, hread l _ _ eff hl.2 he hputs⟩⟩
  · obtain ⟨l, hl, hq⟩ := hd.2
    obtain ⟨hdeed, hB⟩ := hwrite l d.journal d.committed d.now eff hl hq he
    exact ⟨hdeed, hrec.noTx, d'.journal, List.prefix_rfl, by rwa [hrec.journal]⟩

/-- An event. -/
lemma insertEvent_stage {event : EventLogInput} :
    Stage S t q (Tx.pool t () (insertEvent event)) Anything := by
  refine Stage.pool (fun _ _ _ _ _ _ _ => trivial) fun l l' v now eff _ _ he => ⟨.kept ?_, trivial⟩
  unfold insertEvent at he
  split_ifs at he
  obtain rfl := Except.ok.inj he
  rfl

/-- **A transaction**, from what it has drafted where it commits. -/
lemma Stage.transaction {body : Call (Bool × α)} {N : Draft Val EventLogInput → Prop}
    (hbody : Part S t (Begun t) body fun r dr => r.1 = true → N dr)
    (hN : ∀ l l' (dr : Draft Val EventLogInput), l <+: l' → q l → dr.tid = t → N dr →
      Deed S l' dr.toCommit) :
    Stage S t q (Tx.transaction t () body) Anything := by
  have hbegun : Draws (Among S t) (Admitted S) (Contract.none Val) t (fun _ => True)
      (fun dr => True ∧ dr = .begun t dr.start dr.before) body
      (fun r dr => r.1 = true → N dr) fun _ => True :=
    hbody.conseq (fun _ _ h => h.2 ▸ Wrote.begun) (fun _ _ _ h => h) fun _ _ _ => trivial
  refine hbegun.transaction_triple (S := fun _ => True) (P := fun d e => Deed S d.journal e)
    (A := Known q) (fun d h => h.wf) (fun _ _ => trivial) stable_known
    (fun d d' hj _ _ h => h.journal (hj ▸ List.prefix_rfl)) (fun _ _ _ => trivial)
    (stable_post (fun _ => stable_at) fun _ => stable_noTx) ?_ ?_ ?_
  · rintro d d' a dr ⟨l, hl, hq⟩ _ _ hrec hdr
    exact ⟨hN l d.journal dr hl hq hrec.tid (hdr rfl), hrec.noTx, d'.journal, List.prefix_rfl, trivial⟩
  · exact fun d d' a _ _ hdrop _ => ⟨hdrop.noTx, d'.journal, List.prefix_rfl, trivial⟩
  · exact fun d d' e _ _ hdrop => hdrop.noTx

/-! ## The requests -/

/-- The registration that a `SETEX` keeps. -/
lemma setPendingUser_stage {r : Registration} {pass : String} (hcall : S.calls t = .register r)
    (hr : Registers S.cfg r true pass) :
    Stage S t q (Tx.pool t () (setPendingUser r.token ⟨(r.req.normalized S.cfg).email, pass⟩))
      Anything := by
  refine Stage.pool (fun _ _ _ _ _ _ _ => trivial) fun l l' v now eff _ _ he => ⟨?_, trivial⟩
  obtain rfl := Except.ok.inj he
  exact .pending hcall hr rfl

lemma setPendingEmail_stage {email token : String} :
    Stage S t q (Tx.pool t () (setPendingEmail email token)) Anything := by
  refine Stage.pool (fun _ _ _ _ _ _ _ => trivial) fun l l' v now eff _ _ he => ⟨?_, trivial⟩
  obtain rfl := Except.ok.inj he
  exact .listed rfl

lemma deletePendingEmail_stage {email : String} :
    Stage S t q (Tx.pool t () (deletePendingEmail email)) Anything := by
  refine Stage.pool (fun _ _ _ _ _ _ _ => trivial) fun l l' v now eff _ _ he => ⟨?_, trivial⟩
  obtain rfl := Except.ok.inj he
  exact .listed rfl

/-- A `GETDEL` by a request to verify: the session has taken what it returns. -/
lemma takePendingUser_stage {token : String} {newId : Id} (hcall : S.calls t = .verify token newId) :
    Stage S t q (Tx.pool t () (takePendingUser token)) fun r l =>
      ∀ user, r = some user → ∃ e ∈ l, e.tid = t ∧ Takes token user e := by
  refine Stage.pool (fun l v now eff _ he hputs user hu => ?_) fun l l' v now eff _ _ he => ?_
  · unfold takePendingUser at he
    split at he
    · obtain rfl := Except.ok.inj he
      cases hu
    · obtain rfl := Except.ok.inj he
      cases hputs
  · unfold takePendingUser at he
    split at he
    · obtain rfl := Except.ok.inj he
      exact ⟨.kept rfl, fun user hu => by cases hu⟩
    · rename_i entry hentry
      obtain rfl := Except.ok.inj he
      obtain ⟨hentry, hlive⟩ := Option.filter_eq_some_iff.1 hentry
      have htakes : Takes token entry.value ⟨t, now, v,
          Function.update v (.pendingUser token) none, []⟩ := ⟨entry, hentry, rfl, hlive, rfl⟩
      refine ⟨.took hcall htakes, fun user hu => ⟨_, List.mem_append_right _
        (List.mem_singleton_self _), rfl, ?_⟩⟩
      obtain rfl := Option.some.inj hu
      exact htakes

/-- An `INSERT`, for a reason that is known. -/
lemma insertUser_stage {id : Id} {u : RbUser} {skip : Bool}
    (hadded : ∀ l l', l <+: l' → q l → Added S t l' id u) :
    Stage S t q (Tx.pool t () (insertUser id u skip)) Anything := by
  refine Stage.pool (fun _ _ _ _ _ _ _ => trivial) fun l l' v now eff hl hq he => ⟨?_, trivial⟩
  unfold insertUser at he
  split_ifs at he with hfits hemail hskip hid
  · obtain rfl := Except.ok.inj he
    exact .kept rfl
  · obtain rfl := Except.ok.inj he
    exact .added (by simpa using hid) (by simpa using hemail) (hadded l l' hl hq) ⟨now, rfl⟩

/-- An `UPDATE`, for a reason that is known. -/
lemma updateUser_stage {id : Id} {f : RbUser → RbUser}
    (hchanged : ∀ l l' u, l <+: l' → q l → Changed S t l' id u (f u)) :
    Stage S t q (Tx.pool t () (updateUser id f)) Anything := by
  refine Stage.pool (fun _ _ _ _ _ _ _ => trivial) fun l l' v now eff hl hq he => ⟨?_, trivial⟩
  unfold updateUser at he
  split at he
  · obtain rfl := Except.ok.inj he
    exact .kept rfl
  · rename_i u hrow
    split_ifs at he with hfits hemail
    obtain rfl := Except.ok.inj he
    refine .changed hrow ?_ (hchanged l l' u hl hq) rfl
    by_cases hsame : (f u).email = u.email
    · exact .inl hsame
    · refine .inr ?_
      have hnot : ¬ (v (.email (f u).email)).isSome = true := fun h => hemail ⟨hsame, h⟩
      simpa using hnot

/-- The draft of a change is a deed. -/
lemma Rewritten.deed {id : Id} {u u' : RbUser} {l : List AccountCommit}
    {dr : Draft Val EventLogInput} (h : Rewritten t id u u' dr) (how : Changed S dr.tid l id u u') :
    Deed S l dr.toCommit := .changed h.row h.free how h.after

lemma registerByEmail_stage {r : Registration} (hcall : S.calls t = .register r)
    (hopen : r.settings.registrationOpen = true) (hby : r.byEmail = true) :
    Stage S t q (registerByEmail S.cfg t r (r.req.normalized S.cfg)) Anything := by
  refine Stage.bind (C := Anything) Stage.skip fun pending => ?_
  cases pending with
  | true => exact Stage.done
  | false =>
    refine Stage.bind (C := Anything) (Stage.bind (C := fun pass _ => Registers S.cfg r true pass)
      (checked_stage fun pass hpass _ _ => ⟨hopen, hby, hpass⟩) fun pass => ?_) fun _ => ?_
    · refine Stage.const fun hr => Stage.bind (setPendingUser_stage hcall hr) fun _ =>
        Stage.bind setPendingEmail_stage fun _ => Stage.done
    · cases r.sent with
      | false => exact Stage.throw
      | true => exact Stage.bind insertEvent_stage fun _ => Stage.done

lemma registerAtOnce_stage {r : Registration} (hcall : S.calls t = .register r)
    (hopen : r.settings.registrationOpen = true) (hby : r.byEmail = false) :
    Stage S t q (registerAtOnce S.cfg t r (r.req.normalized S.cfg)) Anything := by
  refine Stage.bind (C := Anything) (Stage.bind (C := fun pass _ => Registers S.cfg r false pass)
    (checked_stage fun pass hpass _ _ => ⟨hopen, hby, hpass⟩) fun pass => ?_) fun uid =>
      Stage.bind insertEvent_stage fun _ => Stage.done
  exact Stage.bind (insertUser_stage fun l l' _ hr => .registered hcall rfl hr) fun inserted =>
    fetchOne_stage fun _ _ _ _ => trivial

/-- **Registering.** -/
lemma register_stage {r : Registration} (hcall : S.calls t = .register r) :
    Stage S t q (register S.cfg t r) Anything := by
  unfold register
  split_ifs with hopen hvalid hby
  · refine Stage.bind (C := Anything) Stage.skip fun found => ?_
    cases found with
    | true => exact Stage.done
    | false => exact registerByEmail_stage hcall hopen hby
  · refine Stage.bind (C := Anything) Stage.skip fun found => ?_
    cases found with
    | true => exact Stage.done
    | false => exact registerAtOnce_stage hcall hopen (by simpa using hby)
  · exact Stage.done
  · exact Stage.done

/-- **Verifying an email.** -/
lemma verify_stage {token : String} {newId : Id} (hcall : S.calls t = .verify token newId) :
    Stage S t q (verify t token newId) Anything := by
  refine Stage.bind (C := Anything) (Stage.bind (takePendingUser_stage hcall) fun taken => ?_)
    fun result => ?_
  · cases taken with
    | none => exact Stage.done
    | some user =>
      refine Stage.bind (C := Anything) (Stage.bind (insertUser_stage fun l l' hl h => ?_)
        fun inserted => fetchOne_stage fun _ _ _ _ => trivial) fun _ =>
          Stage.bind deletePendingEmail_stage fun _ => Stage.done
      obtain ⟨e, he, htid, htakes⟩ := h user rfl
      exact .verified hcall (hl.subset he) htid htakes
  · cases result with
    | none => exact Stage.done
    | some uid => exact Stage.bind insertEvent_stage fun _ => Stage.done

/-- **The middleware**: a handler knows that the account had its role once. -/
lemma privileged_stage {required : RbUserRole} {passwordRoute : Bool} {uid : Id}
    {handler : RbUserRole → Call Reply}
    (h : ∀ role, role.ge required = true → Stage S t
      (fun l => passwordRoute = false → Was S.origin l (HasRole uid role)) (handler role) Anything) :
    Stage S t q (privileged t required passwordRoute uid handler) Anything := by
  refine Stage.bind (C := fun auth l => ∀ u, auth = some u → u.mustChangePassword = false →
    Was S.origin l (HasRole uid u.urole)) (Stage.read fun v now l a he hl u hu hmust => ?_)
      fun auth => ?_
  · obtain rfl := Except.ok.inj he
    exact hl.was ⟨u, hu, rfl, hmust⟩
  · cases auth with
    | none => exact Stage.done
    | some u =>
      dsimp only
      split_ifs with hmust hrole
      · exact Stage.done
      · refine (h u.urole hrole).conseq (fun d hd => ⟨hd.1, hd.2.imp fun l hl => ⟨hl.1, fun hno => ?_⟩⟩)
          fun _ _ h => h
        refine hl.2 u rfl ?_
        simpa [hno] using hmust
      · exact Stage.done

/-- **Changing one's profile.** -/
lemma updateInfo_stage {uid : Id} {req : UserProfileUpdateRequest}
    (hcall : S.calls t = .updateInfo uid req) : Stage S t q (updateInfo t uid req) Anything := by
  unfold updateInfo
  split_ifs
  · exact Stage.done
  · refine Stage.bind (updateUser_stage fun l l' u _ _ => .profile hcall) fun updated =>
      Stage.bind (C := Anything) (fetchOne_stage fun _ _ _ _ => trivial) fun _ =>
        Stage.bind insertEvent_stage fun _ => Stage.done

/-- **Changing one's password.** -/
lemma updatePassword_stage {uid : Id} {salt : ℕ} {req : UserPasswordUpdateRequest}
    (hcall : S.calls t = .updatePassword uid salt req) :
    Stage S t q (updatePassword S.cfg t uid salt req) Anything := by
  unfold updatePassword
  split_ifs
  · exact Stage.done
  · refine Stage.bind (Stage.transaction changePasswordBody_part fun l l' dr _ _ _ h => ?_)
      fun result => ?_
    · obtain ⟨u, pass, hdr, haccepts, hnew, hpass⟩ := h
      exact hdr.deed (.password (hdr.tid ▸ hcall) haccepts hnew hpass)
    · split
      · exact Stage.bind insertEvent_stage fun _ => Stage.done
      · exact Stage.done

/-- **Creating an account.** -/
lemma create_stage {actor newId : Id} {salt : ℕ} {password : String} {req : UserWriteRequest}
    {role : RbUserRole} (hcall : S.calls t = .create actor salt newId password req)
    (hadmin : role.ge .admin = true) (hq : ∀ l, q l → Was S.origin l (HasRole actor role)) :
    Stage S t q (create S.cfg t actor salt newId password req role) Anything := by
  unfold create
  split_ifs with hvalid hrole
  · refine Stage.bind (C := Anything) (Stage.bind (C := fun pass l =>
      S.cfg.hash salt password = .ok pass ∧ Was S.origin l (HasRole actor role))
        (checked_stage fun pass hpass l hl => ⟨hpass, hq l hl⟩) fun pass => ?_) fun inserted => ?_
    · exact insertUser_stage fun l l' hl h =>
        .created hcall (h.2.extend hl) hadmin hrole h.1
    · cases inserted with
      | none => exact Stage.done
      | some userId =>
        exact Stage.bind insertEvent_stage fun _ => Stage.bind (C := Anything) Stage.skip fun user =>
          Stage.bind (C := Anything) (fetchOne_stage fun _ _ _ _ => trivial) fun _ => Stage.done
  · exact Stage.done
  · exact Stage.done

/-- **Changing an account.** -/
lemma update_stage {actor userId : Id} {req : UserWriteRequest} {role : RbUserRole}
    (hcall : S.calls t = .update actor userId req) (hadmin : role.ge .admin = true)
    (hq : ∀ l, q l → Was S.origin l (HasRole actor role)) :
    Stage S t q (update S.cfg t actor userId req role) Anything := by
  unfold update
  split_ifs
  · refine Stage.bind (Stage.transaction adminUpdateBody_part fun l l' dr hl hql _ h => ?_)
      fun result => ?_
    · obtain ⟨u, hdr, hself, hrole, hemail⟩ := h
      exact hdr.deed (.rewritten (hdr.tid ▸ hcall) ((hq l hql).extend hl) hadmin hself hrole hemail)
    · split
      · refine Stage.bind insertEvent_stage fun _ => Stage.bind (C := Anything) Stage.skip fun user => ?_
        cases user with
        | none => exact Stage.done
        | some user => exact Stage.done
      · exact Stage.done
  · exact Stage.done

/-- **Resetting a password.** -/
lemma resetPassword_stage {actor userId : Id} {salt : ℕ} {password : String} {role : RbUserRole}
    (hcall : S.calls t = .resetPassword actor salt userId password) (hadmin : role.ge .admin = true)
    (hq : ∀ l, q l → Was S.origin l (HasRole actor role)) :
    Stage S t q (resetPassword S.cfg t actor salt userId password role) Anything := by
  refine Stage.bind (Stage.transaction adminResetBody_part fun l l' dr hl hql _ h => ?_)
    fun result => ?_
  · obtain ⟨u, pass, hdr, hrole, hpass⟩ := h
    exact hdr.deed (.reset (hdr.tid ▸ hcall) ((hq l hql).extend hl) hadmin hrole hpass)
  · split
    · exact Stage.bind insertEvent_stage fun _ => Stage.bind (C := Anything) Stage.skip fun user =>
        Stage.bind (C := Anything) (fetchOne_stage fun _ _ _ _ => trivial) fun _ => Stage.done
    · exact Stage.done

/-- **The start of the server.** -/
lemma ensureRoot_stage {salt : ℕ} {password : Option String}
    (hcall : S.calls t = .ensureRoot salt password) :
    Stage S t q (ensureRoot S.cfg t salt password) Anything := by
  refine Stage.bind (Stage.transaction ensureRootBody_part fun l l' dr _ _ _ h => ?_)
    fun _ => Stage.done
  rcases h with hsame | ⟨given, pass, rfl, hpass, hdr⟩
  · exact .kept hsame
  · exact .added hdr.fresh hdr.free (.root (hdr.tid ▸ hcall) rfl hpass) hdr.after

/-- **Every commit of a request is a deed.** -/
theorem run_stage (S : Setting) (t : Tid) :
    Stage S t (fun _ => True) ((S.calls t).run S.cfg t) Anything := by
  cases hcall : S.calls t with
  | register r => exact register_stage hcall
  | verify token newId => exact verify_stage hcall
  | updateInfo uid req =>
    rw [Request.run]
    exact privileged_stage fun _ _ => updateInfo_stage hcall
  | updatePassword uid salt req =>
    rw [Request.run]
    exact privileged_stage fun _ _ => updatePassword_stage hcall
  | create uid salt newId password req =>
    rw [Request.run]
    exact privileged_stage fun _ hrole => create_stage hcall hrole fun _ h => h rfl
  | update uid userId req =>
    rw [Request.run]
    exact privileged_stage fun _ hrole => update_stage hcall hrole fun _ h => h rfl
  | resetPassword uid salt userId password =>
    rw [Request.run]
    exact privileged_stage fun _ hrole => resetPassword_stage hcall hrole fun _ h => h rfl
  | ensureRoot salt password => exact ensureRoot_stage hcall

end Stages

end Accounts
