import RbphBackend.Backend.Expiring
import RbphBackend.Concurrency.Transaction
import RbphBackend.Database.Schema
import RbphBackend.Games.Settings

set_option relaxedAutoImplicit false
set_option autoImplicit false

/-!
# The store of the accounts

The rows of `rb_user` with the unique index of their emails, and the keys of Redis that hold the
registrations that wait for their emails to be verified. A command of Redis is a statement of its own.
Instants are in milliseconds.

## Main definitions

* `Accounts.RbUserRole` — the roles, and who may give them.
* `Accounts.RbUser`, `Accounts.PendingUser` — accounts and pending ones.
* `Accounts.Key`, `Accounts.Val` — the rows and keys.
* `Accounts.insertUser`, `Accounts.updateUser` and so on — the statements and commands.
-/

namespace Accounts

open Concurrency ReadCommitted Expiring Games

abbrev Id := ℕ

/-! ## Roles -/

/-- `RbUserRole`. -/
inductive RbUserRole where
  | banned
  | user
  | moderator
  | admin
  | root
  | invalid (code : ℤ)
  deriving DecidableEq

namespace RbUserRole

def ofCode (code : ℤ) : RbUserRole :=
  if code = 0 then .banned
  else if code = 1 then .user
  else if code = 2 then .moderator
  else if code = 3 then .admin
  else if code = 4 then .root
  else .invalid code

def code : RbUserRole → ℤ
  | banned => 0
  | user => 1
  | moderator => 2
  | admin => 3
  | root => 4
  | invalid code => code

def isValid : RbUserRole → Bool
  | invalid _ => false
  | _ => true

def isRoot : RbUserRole → Bool
  | root => true
  | _ => false

/-- `partial_cmp`, for `<`: what is not valid is not compared. -/
def lt (a b : RbUserRole) : Bool := a.isValid && b.isValid && decide (a.code < b.code)

/-- `partial_cmp`, for `>=`. -/
def ge (a b : RbUserRole) : Bool := a.isValid && b.isValid && decide (b.code ≤ a.code)

/-- `can_change_role`. -/
def canChangeRole (self : RbUserRole) (current : Option RbUserRole) (requested : RbUserRole) : Bool :=
  if current = some requested then true
  else if current = some root ∨ requested = root then false
  else self.isRoot || (current.all fun role => role.lt admin) && requested.lt admin

/-- `can_manage_credentials`. -/
def canManageCredentials (self target : RbUserRole) : Bool := target.lt self

variable {a b c : RbUserRole}

@[simp] lemma lt_iff : a.lt b = true ↔ a.isValid = true ∧ b.isValid = true ∧ a.code < b.code := by
  simp [lt, and_assoc]

@[simp] lemma ge_iff : a.ge b = true ↔ a.isValid = true ∧ b.isValid = true ∧ b.code ≤ a.code := by
  simp [ge, and_assoc]

lemma isRoot_iff : a.isRoot = true ↔ a = root := by
  cases a <;> simp [isRoot]

/-- No role is above the one of the root. -/
lemma code_le_of_isValid (h : a.isValid = true) : a.code ≤ 4 := by
  cases a with
  | invalid code => cases h
  | _ => decide

/-- **Who may change a role**: nobody makes a root or ends one, and only the root makes an
administrator or ends one. -/
lemma canChangeRole_iff : a.canChangeRole (some b) c = true ↔
    b = c ∨ b ≠ root ∧ c ≠ root ∧ (a = root ∨ b.lt admin = true ∧ c.lt admin = true) := by
  simp only [canChangeRole, Option.some.injEq]
  split_ifs with hsame hroot
  · exact ⟨fun _ => .inl hsame, fun _ => rfl⟩
  · simp only [false_iff, not_or, not_and]
    exact ⟨hsame, fun hb hc => absurd hroot (not_or.2 ⟨hb, hc⟩)⟩
  · simp only [not_or] at hroot
    simp [hsame, hroot, isRoot_iff, -lt_iff]

/-- A role that may be given to a new account. -/
lemma canChangeRole_none_iff : a.canChangeRole none c = true ↔
    c ≠ root ∧ (a = root ∨ c.lt admin = true) := by
  simp only [canChangeRole, reduceCtorEq, if_false, false_or, Option.all_none, Bool.true_and]
  split_ifs with hroot
  · simp [hroot]
  · simp [hroot, isRoot_iff, -lt_iff]

end RbUserRole

/-! ## Rows and keys -/

/-- A row of `rb_user`, with the defaults of its columns. -/
structure RbUser where
  email : String
  pass : String
  urole : RbUserRole := .user
  nickname : String := ""
  bio : Option String := none
  avatarProvider : AvatarProvider := .cravatar
  mustChangePassword : Bool := false
  ctimeAt : ℤ := 0
  deriving DecidableEq

/-- `PendingUser`. -/
structure PendingUser where
  email : String
  pass : String
  deriving DecidableEq

/-- The rows: an account, the entry of an email in the unique index, the two keys of a pending
registration, and the advisory lock of `ensure_root`. -/
inductive Key where
  | user (user : Id)
  | email (email : String)
  | pendingUser (token : String)
  | pendingEmail (email : String)
  | rootLock
  deriving DecidableEq

/-- What a row holds. -/
abbrev Val : Key → Type
  | .user _ => Option RbUser
  | .email _ => Option Id
  | .pendingUser _ => Option (Entry PendingUser)
  | .pendingEmail _ => Option (Entry String)
  | .rootLock => Unit

/-- What a statement sees. -/
abbrev View := (k : Key) → Val k

/-- The data of an event. -/
inductive AccountEventData where
  | empty
  | email (email : String)
  | role (role : ℤ)
  | fields (bio : Bool)
  deriving DecidableEq

/-- A record of `rb_event_log`. -/
structure EventLogInput where
  eventType : String
  eventScope : Database.EventScope := .security
  severity : Database.EventSeverity := .info
  userId : Option Id := none
  targetUserId : Option Id := none
  data : AccountEventData := .empty
  deriving DecidableEq

/-- The store. -/
abbrev Store := Db Val EventLogInput

/-- A commit of a call. -/
abbrev AccountCommit := Commit Val EventLogInput

/-- The program of a call. -/
abbrev Call (α : Type) := Tx Unit Val EventLogInput α

/-- A statement. -/
abbrev Statement (α : Type) := Stmt Val EventLogInput α

/-- Neither a row nor a key exists. -/
def noRows : View
  | .user _ | .email _ | .pendingUser _ | .pendingEmail _ => none
  | .rootLock => ()

/-! ## Statements -/

/-- The row keeps to the columns. -/
def RbUser.fits (u : RbUser) : Bool :=
  u.email.length ≤ 255 && u.pass.length ≤ 72 && u.nickname.length ≤ 60 && u.urole.isValid

/-- The row that is inserted: a trigger gives it a nickname. -/
def RbUser.inserted (u : RbUser) (id : Id) (now : ℤ) : RbUser :=
  { u with
    nickname := if u.nickname = "" then "user_" ++ toString id else u.nickname
    ctimeAt := now }

/-- What an insertion writes. -/
def insertPuts (id : Id) (u : RbUser) : List (Σ k, Val k) := [⟨.user id, some u⟩, ⟨.email u.email, some id⟩]

/-- What an update of the row `u` writes. -/
def updatePuts (id : Id) (u u' : RbUser) : List (Σ k, Val k) :=
  if u'.email = u.email then [⟨.user id, some u'⟩]
  else [⟨.user id, some u'⟩, ⟨.email u.email, none⟩, ⟨.email u'.email, some id⟩]

/-- An `INSERT`: the id of the new row, or none where there is a row of the email and `skip` says
`ON CONFLICT (email) DO NOTHING`. -/
def insertUser (id : Id) (u : RbUser) (skip : Bool) : Statement (Option Id) := fun v now =>
  if !(u.inserted id now).fits then .error "rb_user_check"
  else if (v (.email u.email)).isSome then
    if skip then .ok { val := none } else .error "rb_user_email_key"
  else if (v (.user id)).isSome then .error "rb_user_pkey"
  else .ok { val := some id, puts := insertPuts id (u.inserted id now) }

/-- An `UPDATE` of a row: the new row, if there is one. -/
def updateUser (id : Id) (f : RbUser → RbUser) : Statement (Option RbUser) := fun v _ =>
  match v (.user id) with
  | none => .ok { val := none }
  | some u =>
    if !(f u).fits then .error "rb_user_check"
    else if (f u).email ≠ u.email ∧ (v (.email (f u).email)).isSome then .error "rb_user_email_key"
    else .ok { val := some (f u), puts := updatePuts id u (f u) }

/-- A `SELECT` of a row. -/
def selectUser (id : Id) : Statement (Option RbUser) := .read fun v _ => .ok (v (.user id))

/-- A `SELECT … FOR UPDATE` of a row. -/
def selectForUpdate (id : Id) : Statement (Option RbUser) := fun v _ =>
  match v (.user id) with
  | none => .ok { val := none }
  | some u => .ok { val := some u, puts := [⟨.user id, some u⟩] }

/-- The id of the row of an email. -/
def selectByEmail (email : String) : Statement (Option Id) := .read fun v _ => .ok (v (.email email))

/-- `exists`. -/
def existsUser (email : String) : Statement Bool := .read fun v _ => .ok (v (.email email)).isSome

/-- `pg_advisory_xact_lock`. -/
def lockRoot : Statement Unit := fun v _ => .ok { val := (), puts := [⟨.rootLock, v .rootLock⟩] }

/-- `event_log::insert_pool` and `event_log::insert_conn`, with the foreign keys of the users. -/
def insertEvent (event : EventLogInput) : Statement Unit := fun v _ =>
  if event.userId.any fun id => (v (.user id)).isNone then .error "rb_event_log_user_id_fkey"
  else if event.targetUserId.any fun id => (v (.user id)).isNone then
    .error "rb_event_log_target_user_id_fkey"
  else .ok { val := (), inserts := [event] }

/-! ## Commands of Redis -/

/-- `SETEX` for 15 minutes: a key is there through the millisecond in which it expires. -/
def pendingFor {α : Type} (now : ℤ) (value : α) : Entry α := ⟨value, some (now + 15 * 60 * 1000 + 1)⟩

/-- `SETEX` of a pending account. -/
def setPendingUser (token : String) (user : PendingUser) : Statement Unit := fun _ now =>
  .ok { val := (), puts := [⟨.pendingUser token, some (pendingFor now user)⟩] }

/-- `SETEX` of the token of an email. -/
def setPendingEmail (email token : String) : Statement Unit := fun _ now =>
  .ok { val := (), puts := [⟨.pendingEmail email, some (pendingFor now token)⟩] }

/-- `GET` of the token of an email, and whether there is one. -/
def pendingExists (email : String) : Statement Bool :=
  .read fun v now => .ok ((v (.pendingEmail email)).filter (·.live now)).isSome

/-- `GETDEL` of a pending account. -/
def takePendingUser (token : String) : Statement (Option PendingUser) := fun v now =>
  match (v (.pendingUser token)).filter (·.live now) with
  | none => .ok { val := none }
  | some entry => .ok { val := some entry.value, puts := [⟨.pendingUser token, none⟩] }

/-- `DEL` of the token of an email. -/
def deletePendingEmail (email : String) : Statement Unit := fun _ _ =>
  .ok { val := (), puts := [⟨.pendingEmail email, none⟩] }

end Accounts
