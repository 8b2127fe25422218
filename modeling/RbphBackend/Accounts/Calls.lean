import RbphBackend.Accounts.Schema

set_option relaxedAutoImplicit false
set_option autoImplicit false

/-!
# The requests about accounts

Accounts are registered, at once or when their email is verified, created by the staff, or made when
the server starts, if it is the root's. A user changes his profile and his password; the staff
changes accounts and resets passwords, in transactions that hold the row of the account. A request of
a user that is signed in is let in by the role that his account has when it comes.

## Main definitions

* `Accounts.Config` — the library for passwords and what is asked of emails.
* `Accounts.privileged` — the middleware.
* `Accounts.register`, `Accounts.verify`, `Accounts.updateInfo`, `Accounts.updatePassword`,
  `Accounts.create`, `Accounts.update`, `Accounts.resetPassword`, `Accounts.ensureRoot` — the
  requests.
* `Accounts.Request.run` — the program of a request.
-/

namespace Accounts

open Concurrency ReadCommitted Expiring Games

/-- The library for passwords, lower case, and what the validator takes for an email. A hash is made
with a salt. -/
structure Config where
  hash : ℕ → String → Except String String
  verify : String → String → Except String Bool
  toLowercase : String → String
  isEmail : String → Bool

/-- How a request ends. -/
inductive Reply where
  | unauth
  | passwordChangeRequired
  | forbidden
  | notFound
  | invalid
  | registrationClosed
  | userExists
  | emailSent
  | emailAlreadySent
  | registered (uid : Id)
  | verified (uid : Id)
  | info (user : RbUser)
  | wrongCurrent
  | samePassword
  | passwordChanged
  | conflict
  | selfRole
  | roleForbidden
  | emailForbidden
  | user (user : RbUser)
  | temporary (user : RbUser) (password : String)
  | rootReady (made : Bool)
  deriving DecidableEq

/-- What a function returns that may fail. -/
def checked {α : Type} : Except String α → Call α
  | .ok a => return a
  | .error e => throw e

/-- `fetch_one`. -/
def fetchOne {α : Type} : Option α → Call α
  | some a => return a
  | none => throw "no rows returned by a query that expected to return at least one row"

/-! ## Registration -/

/-- `validate_printable` and the length of a password. -/
def validPassword (password : String) : Bool :=
  8 ≤ password.length && password.length ≤ 64 &&
    password.toList.all fun c => '!' ≤ c && c ≤ '~'

structure UserRegisterRequest where
  email : String
  password : String
  deriving DecidableEq

/-- The settings that a registration reads. -/
structure RbSystemSettings where
  registrationOpen : Bool := true
  requireEmailVerification : Bool := false
  deriving DecidableEq

/-- A registration, with the settings it finds, whether there is a mailer and whether it sends, the
salt, the token and the next id of the sequence. -/
structure Registration where
  req : UserRegisterRequest
  settings : RbSystemSettings
  mailer : Bool
  sent : Bool
  salt : ℕ
  token : String
  newId : Id
  deriving DecidableEq

section Registration

variable (cfg : Config) (t : Tid)

/-- `normalized`. -/
def UserRegisterRequest.normalized (req : UserRegisterRequest) : UserRegisterRequest where
  email := cfg.toLowercase (trim req.email)
  password := trim req.password

def UserRegisterRequest.valid (req : UserRegisterRequest) : Bool :=
  cfg.isEmail req.email && validPassword req.password

/-- The email is to be verified. -/
def Registration.byEmail (r : Registration) : Bool :=
  r.settings.requireEmailVerification && r.mailer

/-- `db::user::register`. -/
def registerUser (salt : ℕ) (id : Id) (email pass : String) : Call Id := do
  let hashed ← checked (cfg.hash salt pass)
  let inserted ← Tx.pool t () (insertUser id { email, pass := hashed } false)
  fetchOne inserted

/-- `register_pass_hashed`. -/
def registerPassHashed (id : Id) (email passHashed : String) : Call Id := do
  let inserted ← Tx.pool t () (insertUser id { email, pass := passHashed } true)
  fetchOne inserted

/-- `put_pending`. -/
def putPending (salt : ℕ) (token email pass : String) : Call String := do
  let passHashed ← checked (cfg.hash salt pass)
  Tx.pool t () (setPendingUser token ⟨email, passHashed⟩)
  Tx.pool t () (setPendingEmail email token)
  return token

/-- The part of `register` where the email is to be verified. -/
def registerByEmail (r : Registration) (req : UserRegisterRequest) : Call Reply := do
  match ← Tx.pool t () (pendingExists req.email) with
  | true => return .emailAlreadySent
  | false =>
    let _ ← putPending cfg t r.salt r.token req.email req.password
    match r.sent with
    | false => throw "the email has not been sent"
    | true =>
      Tx.pool t ()
        (insertEvent { eventType := "auth.register_requested", data := .email req.email })
      return .emailSent

/-- The part of `register` where it is not. -/
def registerAtOnce (r : Registration) (req : UserRegisterRequest) : Call Reply := do
  let uid ← registerUser cfg t r.salt r.newId req.email req.password
  Tx.pool t () (insertEvent { eventType := "auth.registered", userId := some uid })
  return .registered uid

/-- `register`. -/
def register (r : Registration) : Call Reply :=
  if r.settings.registrationOpen then
    if (r.req.normalized cfg).valid cfg then do
      match ← Tx.pool t () (existsUser (r.req.normalized cfg).email) with
      | true => return .userExists
      | false =>
        if r.byEmail then registerByEmail cfg t r (r.req.normalized cfg)
        else registerAtOnce cfg t r (r.req.normalized cfg)
    else return .invalid
  else return .registrationClosed

/-- `verify_pending`. -/
def verifyPending (token : String) (newId : Id) : Call (Option Id) := do
  match ← Tx.pool t () (takePendingUser token) with
  | none => return none
  | some user =>
    let result ← registerPassHashed t newId user.email user.pass
    Tx.pool t () (deletePendingEmail user.email)
    return some result

/-- `verify`. -/
def verify (token : String) (newId : Id) : Call Reply := do
  match ← verifyPending t token newId with
  | none => return .invalid
  | some uid =>
    Tx.pool t () (insertEvent { eventType := "auth.verified", userId := some uid })
    return .verified uid

end Registration

/-! ## Requests of users that are signed in -/

/-- `PrivilegeMiddleware`, for a session that is valid; `passwordRoute` says that the path is one that
an account may ask for whose password must be changed. -/
def privileged (t : Tid) (required : RbUserRole) (passwordRoute : Bool) (uid : Id)
    (handler : RbUserRole → Call Reply) : Call Reply := do
  match ← Tx.pool t () (selectUser uid) with
  | none => return .unauth
  | some auth =>
    if auth.mustChangePassword && !passwordRoute then return .passwordChangeRequired
    else if auth.urole.ge required then handler auth.urole
    else return .forbidden

structure UserProfileUpdateRequest where
  nickname : String
  bio : Option String
  avatarProvider : AvatarProvider
  deriving DecidableEq

structure UserPasswordUpdateRequest where
  currentPassword : Option String
  newPassword : String
  deriving DecidableEq

/-- A text without the blanks around it, if it is not empty then. -/
def trimmedText (text : Option String) : Option String :=
  (text.map trim).filter fun text => text ≠ ""

section Own

variable (cfg : Config) (t : Tid) (uid : Id)

/-- The row after `update_profile`. -/
def RbUser.withProfile (nickname : String) (bio : Option String) (avatarProvider : AvatarProvider)
    (u : RbUser) : RbUser :=
  { u with nickname, bio, avatarProvider }

def profileUpdatedEvent (bio : Bool) : EventLogInput where
  eventType := "user.profile_updated"
  eventScope := .system
  userId := some uid
  data := .fields bio

/-- `update_info`. -/
def updateInfo (req : UserProfileUpdateRequest) : Call Reply :=
  if trim req.nickname = "" ∨ 60 < (trim req.nickname).length ∨
      (trimmedText req.bio).any fun bio => 200 < bio.length then
    return .invalid
  else do
    let updated ← Tx.pool t ()
      (updateUser uid (.withProfile (trim req.nickname) (trimmedText req.bio) req.avatarProvider))
    let result ← fetchOne updated
    Tx.pool t () (insertEvent (profileUpdatedEvent uid req.bio.isSome))
    return .info result

/-- The row with another password. -/
def RbUser.withPassword (pass : String) (mustChangePassword : Bool) (u : RbUser) : RbUser :=
  { u with pass, mustChangePassword }

/-- The password that must be given before it is changed is given. -/
def acceptsCurrent (u : RbUser) (currentPassword : Option String) : Except String Bool :=
  if u.mustChangePassword then .ok true
  else
    match currentPassword with
    | none => .ok false
    | some password => cfg.verify password u.pass

/-- The transaction of `change_password`. -/
def changePasswordBody (salt : ℕ) (req : UserPasswordUpdateRequest) : Call (Bool × Reply) := do
  let current ← fetchOne (← Tx.query t () (selectForUpdate uid))
  match acceptsCurrent cfg current req.currentPassword with
  | .error e => throw e
  | .ok false => return (false, .wrongCurrent)
  | .ok true =>
    match cfg.verify req.newPassword current.pass with
    | .error e => throw e
    | .ok true => return (false, .samePassword)
    | .ok false =>
      match cfg.hash salt req.newPassword with
      | .error e => throw e
      | .ok pass =>
        let _ ← Tx.query t () (updateUser uid (.withPassword pass false))
        return (true, .passwordChanged)

/-- `update_password`. -/
def updatePassword (salt : ℕ) (req : UserPasswordUpdateRequest) : Call Reply :=
  if !validPassword req.newPassword || req.currentPassword.any fun p => !validPassword p then
    return .invalid
  else do
    match ← Tx.transaction t () (changePasswordBody cfg t uid salt req) with
    | .passwordChanged =>
      Tx.pool t () (insertEvent { eventType := "user.password_updated", userId := some uid })
      return .passwordChanged
    | refused => return refused

end Own

/-! ## Requests of the staff -/

structure UserWriteRequest where
  email : String
  nickname : String
  bio : Option String
  role : ℤ
  deriving DecidableEq

/-- `eq_ignore_ascii_case`. -/
def eqIgnoreAsciiCase (a b : String) : Bool :=
  a.toList.map Char.toLower = b.toList.map Char.toLower

section Staff

variable (cfg : Config) (t : Tid)

/-- `normalize`. -/
def UserWriteRequest.normalized (req : UserWriteRequest) : UserWriteRequest where
  email := cfg.toLowercase (trim req.email)
  nickname := trim req.nickname
  bio := trimmedText req.bio
  role := req.role

/-- `validate_request`. -/
def UserWriteRequest.valid (req : UserWriteRequest) : Bool :=
  cfg.isEmail req.email && req.email.length ≤ 255 &&
    1 ≤ req.nickname.length && req.nickname.length ≤ 60 &&
    (req.bio.all fun bio => bio.length ≤ 200) && (RbUserRole.ofCode req.role).isValid

/-- `admin_create`. -/
def adminCreate (salt : ℕ) (id : Id) (req : UserWriteRequest) (password : String) :
    Call (Option Id) := do
  let pass ← checked (cfg.hash salt password)
  Tx.pool t () (insertUser id
    { email := req.email
      pass
      nickname := req.nickname
      bio := req.bio
      urole := .ofCode req.role
      mustChangePassword := true } true)

/-- The handler `create`; `password` is the temporary one. -/
def create (actorId : Id) (salt : ℕ) (newId : Id) (password : String) (req : UserWriteRequest)
    (actorRole : RbUserRole) : Call Reply :=
  if (req.normalized cfg).valid cfg then
    if actorRole.canChangeRole none (.ofCode req.role) then do
      match ← adminCreate cfg t salt newId (req.normalized cfg) password with
      | none => return .conflict
      | some userId =>
        Tx.pool t () (insertEvent
          { eventType := "admin.user_created"
            eventScope := .admin
            userId := some actorId
            targetUserId := some userId
            data := .role req.role })
        let user ← fetchOne (← Tx.pool t () (selectUser userId))
        return .temporary user password
    else return .roleForbidden
  else return .invalid

/-- The row after `admin_update`. -/
def RbUser.rewritten (req : UserWriteRequest) (u : RbUser) : RbUser :=
  { u with
    email := req.email
    nickname := req.nickname
    bio := req.bio
    urole := .ofCode req.role }

/-- The `UPDATE` of `admin_update`: it finds no row where another one has the email. -/
def adminUpdateRow (userId : Id) (req : UserWriteRequest) : Statement (Option RbUser) := fun v now =>
  if (v (.email req.email)).any fun other => other ≠ userId then .ok { val := none }
  else updateUser userId (.rewritten req) v now

/-- The transaction of `admin_update`. -/
def adminUpdateBody (actorId : Id) (actorRole : RbUserRole) (userId : Id) (req : UserWriteRequest) :
    Call (Bool × Reply) := do
  match ← Tx.query t () (selectForUpdate userId) with
  | none => return (false, .notFound)
  | some current =>
    if actorId = userId ∧ current.urole ≠ .ofCode req.role then return (false, .selfRole)
    else if !actorRole.canChangeRole (some current.urole) (.ofCode req.role) then
      return (false, .roleForbidden)
    else if !eqIgnoreAsciiCase current.email req.email &&
        !actorRole.canManageCredentials current.urole then
      return (false, .emailForbidden)
    else
      match ← Tx.query t () (adminUpdateRow userId req) with
      | none => return (false, .conflict)
      | some user => return (true, .user user)

/-- The handler `get`. -/
def get (userId : Id) : Call Reply := do
  match ← Tx.pool t () (selectUser userId) with
  | none => return .notFound
  | some user => return .user user

/-- The handler `update`. -/
def update (actorId userId : Id) (req : UserWriteRequest) (actorRole : RbUserRole) : Call Reply :=
  if (req.normalized cfg).valid cfg then do
    match ← Tx.transaction t () (adminUpdateBody t actorId actorRole userId (req.normalized cfg)) with
    | .user _ =>
      Tx.pool t () (insertEvent
        { eventType := "admin.user_updated"
          eventScope := .admin
          userId := some actorId
          targetUserId := some userId
          data := .role req.role })
      get t userId
    | refused => return refused
  else return .invalid

/-- The transaction of `admin_reset_password`. -/
def adminResetBody (actorRole : RbUserRole) (salt : ℕ) (userId : Id) (password : String) :
    Call (Bool × Reply) := do
  match ← Tx.query t () (selectForUpdate userId) with
  | none => return (false, .notFound)
  | some target =>
    if actorRole.canManageCredentials target.urole then
      match cfg.hash salt password with
      | .error e => throw e
      | .ok pass =>
        let _ ← Tx.query t () (updateUser userId (.withPassword pass true))
        return (true, .temporary target password)
    else return (false, .roleForbidden)

/-- The handler `reset_password`; `password` is the temporary one. -/
def resetPassword (actorId : Id) (salt : ℕ) (userId : Id) (password : String)
    (actorRole : RbUserRole) : Call Reply := do
  match ← Tx.transaction t () (adminResetBody cfg t actorRole salt userId password) with
  | .temporary .. =>
    Tx.pool t () (insertEvent
      { eventType := "admin.user_password_reset"
        severity := .warning
        userId := some actorId
        targetUserId := some userId })
    let user ← fetchOne (← Tx.pool t () (selectUser userId))
    return .temporary user password
  | refused => return refused

end Staff

/-! ## The start of the server -/

section Root

variable (cfg : Config) (t : Tid)

def rootId : Id := 0
def rootEmail : String := "root@rbph.local"
def rootNickname : String := "Root"

/-- The row of the root, as it is made. -/
def rootUser (pass : String) : RbUser where
  email := rootEmail
  pass
  urole := .root
  nickname := rootNickname

/-- `validate_password` of the root. -/
def validRootPassword (password : String) : Bool := password ≠ "CHANGE_ME" && validPassword password

/-- The part of `ensure_root` where there is no account of its id; `password` is the variable of the
environment. -/
def makeRoot (salt : ℕ) (password : Option String) : Call (Bool × Bool) :=
  match password with
  | none => throw "RBPH_ROOT_PASSWORD is required to create the initial Root user"
  | some password =>
    if validRootPassword password then do
      match ← Tx.query t () (selectByEmail rootEmail) with
      | some _ => throw "Root email root@rbph.local is already used by another user"
      | none =>
        match cfg.hash salt password with
        | .error e => throw e
        | .ok pass =>
          let _ ← Tx.query t () (insertUser rootId (rootUser pass) false)
          Tx.query t () (insertEvent
            { eventType := "system.root_bootstrap", userId := some rootId, data := .email rootEmail })
          return (true, true)
    else
      throw "RBPH_ROOT_PASSWORD must be 8-64 printable ASCII characters and not CHANGE_ME"

/-- The transaction of `ensure_root`. -/
def ensureRootBody (salt : ℕ) (password : Option String) : Call (Bool × Bool) := do
  Tx.query t () lockRoot
  match ← Tx.query t () (selectUser rootId) with
  | some existing =>
    if existing.urole = .root then return (true, false)
    else throw "User id 0 exists but is not Root"
  | none => makeRoot cfg t salt password

/-- `ensure_root`. -/
def ensureRoot (salt : ℕ) (password : Option String) : Call Reply := do
  let made ← Tx.transaction t () (ensureRootBody cfg t salt password)
  return .rootReady made

end Root

/-! ## The requests of a pool -/

/-- A request, with what it draws. -/
inductive Request where
  | register (registration : Registration)
  | verify (token : String) (newId : Id)
  | updateInfo (uid : Id) (req : UserProfileUpdateRequest)
  | updatePassword (uid : Id) (salt : ℕ) (req : UserPasswordUpdateRequest)
  | create (uid : Id) (salt : ℕ) (newId : Id) (password : String) (req : UserWriteRequest)
  | update (uid userId : Id) (req : UserWriteRequest)
  | resetPassword (uid : Id) (salt : ℕ) (userId : Id) (password : String)
  | ensureRoot (salt : ℕ) (password : Option String)
  deriving DecidableEq

/-- The program of a request: those of the users come through the middleware of their scope. -/
def Request.run (cfg : Config) (t : Tid) : Request → Call Reply
  | .register registration => Accounts.register cfg t registration
  | .verify token newId => Accounts.verify t token newId
  | .updateInfo uid req => privileged t .user true uid fun _ => Accounts.updateInfo t uid req
  | .updatePassword uid salt req =>
    privileged t .user true uid fun _ => Accounts.updatePassword cfg t uid salt req
  | .create uid salt newId password req =>
    privileged t .admin false uid (Accounts.create cfg t uid salt newId password req)
  | .update uid userId req => privileged t .admin false uid (Accounts.update cfg t uid userId req)
  | .resetPassword uid salt userId password =>
    privileged t .admin false uid (Accounts.resetPassword cfg t uid salt userId password)
  | .ensureRoot salt password => Accounts.ensureRoot cfg t salt password

end Accounts
