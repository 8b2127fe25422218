import Mathlib.Data.Nat.Notation
import RbphBackend.Backend.Expiring
import RbphBackend.Concurrency.System

set_option relaxedAutoImplicit false
set_option autoImplicit false

/-!
# The limits of logins

A login counts against a limit of its address, is refused if the failures of its address and email
have come to theirs, and, if the password is wrong, counts as one more failure. The counters are keys
of Redis that expire; the test and the count of a failure are operations of their own, and the
password is verified in between.

## Main definitions

* `Auth.consume`, `Auth.blocked` — the operations on a counter.
* `Auth.Door` — the counters and the logins under way from one address with one email.
* `Auth.LoginEvent`, `Auth.step` — the system.
* `Auth.Room` — a login that passes the test leaves room for those that have passed it before.

## Main results

* `Auth.failed_le_of_leads` — in runs where there is room, at most the limit of verifications fails
  between two resets of the counter.
* `Auth.guessed_in_parallel` — a run in which more do.
-/

namespace Auth

open Concurrency Expiring

/-! ## The counters -/

structure AuthRateLimitConfig where
  loginIpEmailFailures : ℕ := 5
  loginIpAttempts : ℕ := 30
  loginWindowSeconds : ℕ := 15 * 60
  deriving DecidableEq

inductive Scope where
  | loginIp
  | loginIpEmail
  deriving DecidableEq

/-- `TTL`, in seconds; `now` is in milliseconds, and a key is there through the one in which it
expires. -/
def ttl (now : ℤ) : Option (Entry ℕ) → ℤ
  | none => -2
  | some e =>
    match e.expiresAt with
    | none => -1
    | some expiresAt => (expiresAt - 1 - now + 500) / 1000

/-- `CONSUME_SCRIPT`. -/
def consumeScript (now : ℤ) (windowSeconds : ℕ) (c : Option (Entry ℕ)) : Entry ℕ :=
  let count := (c.map (·.value)).getD 0 + 1
  if count = 1 then ⟨count, some (now + max windowSeconds 1 * 1000 + 1)⟩
  else ⟨count, c.bind (·.expiresAt)⟩

/-- `consume`: after how many seconds to retry where there were too many, and the counter. -/
def consume (now : ℤ) (limit windowSeconds : ℕ) (c : Option (Entry ℕ)) : Option ℤ × Entry ℕ :=
  let e := consumeScript now windowSeconds c
  (if limit < e.value then some (max (ttl now (some e)) 1) else none, e)

/-- The test of `blocked`; where it is, the time to retry is asked for next. -/
def blocked (limit : ℕ) (c : Option (Entry ℕ)) : Bool := !((c.map (·.value)).getD 0 < limit)

/-! ## The logins -/

inductive Reply where
  | tooManyRequests (retryAfter : ℤ)
  | captcha
  | internal
  | wrongPwd
  | ok
  deriving DecidableEq

/-- What a login does next. -/
inductive Phase where
  | consumeIp
  | getFailures
  | ttlFailures
  | validate
  | verifyCaptcha
  | getVerifyByEmail
  | verifyPassword
  | consumeFailure
  | clear
  | append
  | done (reply : Reply)
  deriving DecidableEq

namespace Phase

/-- The login has passed the test, and may come to be counted as a failure. -/
def pending : Phase → Bool
  | validate | verifyCaptcha | getVerifyByEmail | verifyPassword | consumeFailure => true
  | _ => false

/-- The login is about to be counted. -/
def counting : Phase → Bool
  | consumeFailure => true
  | _ => false

end Phase

/-- The counters and the logins. `failed` says how many verifications have failed since the counter
of failures was there last and went; no login reads it. -/
structure Door where
  now : ℤ
  keys : Scope → Option (Entry ℕ)
  logins : List Phase
  failed : ℕ

namespace Door

variable (cfg : AuthRateLimitConfig) (s : Door)

/-- Nobody has logged in. -/
def fresh (now : ℤ) : Door := ⟨now, fun _ => none, [], 0⟩

/-- `GET` of a counter. -/
def count (scope : Scope) : ℕ := ((lookup s.keys s.now scope).map (·.value)).getD 0

def setPhase (i : ℕ) (phase : Phase) : Door := { s with logins := s.logins.set i phase }

def setKey (scope : Scope) (e : Option (Entry ℕ)) : Door :=
  { s with keys := Function.update s.keys scope e }

/-- The reply to a login that is counted. -/
def refusal : Option ℤ → Reply
  | some retryAfter => .tooManyRequests retryAfter
  | none => .wrongPwd

/-- The next step of the `i`th login; `ok` is how what it asks for comes out. -/
def advance (i : ℕ) (ok : Bool) : Phase → Option Door
  | .consumeIp =>
    let (retry, e) := consume s.now cfg.loginIpAttempts cfg.loginWindowSeconds
      (lookup s.keys s.now .loginIp)
    some ((s.setKey .loginIp (some e)).setPhase i (match retry with
      | some retryAfter => .done (.tooManyRequests retryAfter)
      | none => .getFailures))
  | .getFailures =>
    some (s.setPhase i (if blocked cfg.loginIpEmailFailures (lookup s.keys s.now .loginIpEmail)
      then .ttlFailures else .validate))
  | .ttlFailures =>
    some (s.setPhase i (.done (.tooManyRequests
      (max (ttl s.now (lookup s.keys s.now .loginIpEmail)) 1))))
  | .validate => some (s.setPhase i (if ok then .verifyCaptcha else .consumeFailure))
  | .verifyCaptcha => some (s.setPhase i (if ok then .getVerifyByEmail else .done .captcha))
  | .getVerifyByEmail => some (s.setPhase i (if ok then .verifyPassword else .done .internal))
  | .verifyPassword =>
    if ok then some (s.setPhase i .clear)
    else some ({ s with failed := s.failed + 1 }.setPhase i .consumeFailure)
  | .consumeFailure =>
    let (retry, e) := consume s.now cfg.loginIpEmailFailures cfg.loginWindowSeconds
      (lookup s.keys s.now .loginIpEmail)
    some ((s.setKey .loginIpEmail (some e)).setPhase i (.done (refusal retry)))
  | .clear => some ({ s.setKey .loginIpEmail none with failed := 0 }.setPhase i .append)
  | .append => some (s.setPhase i (.done (if ok then .ok else .internal)))
  | .done _ => none

/-- Time passes; a counter of failures that expires takes its window with it. -/
def tick (n : ℕ) : Door :=
  { s with
    now := s.now + n
    failed :=
      if (lookup s.keys s.now .loginIpEmail).isSome ∧
        (lookup s.keys (s.now + n) .loginIpEmail).isNone then 0 else s.failed }

end Door

/-! ## The system -/

/-- `elsewhere` is a login from the address with another email. -/
inductive LoginEvent where
  | login
  | advance (i : ℕ) (ok : Bool)
  | elsewhere
  | tick (n : ℕ)
  deriving DecidableEq

def step (cfg : AuthRateLimitConfig) : System Door LoginEvent := fun s e =>
  match e with
  | .login => some { s with logins := s.logins ++ [.consumeIp] }
  | .advance i ok => (s.logins[i]?).bind (s.advance cfg i ok)
  | .elsewhere =>
    some (s.setKey .loginIp (some (consume s.now cfg.loginIpAttempts cfg.loginWindowSeconds
      (lookup s.keys s.now .loginIp)).2))
  | .tick n => some (s.tick n)

/-- A login that passes the test leaves room for those that have passed it and are not counted
yet. -/
def Room (cfg : AuthRateLimitConfig) (s : Door) : LoginEvent → Prop
  | .advance i _ => s.logins[i]? = some .getFailures →
    s.count .loginIpEmail < cfg.loginIpEmailFailures →
    s.count .loginIpEmail + s.logins.countP Phase.pending < cfg.loginIpEmailFailures
  | .login | .elsewhere | .tick _ => True

instance (cfg : AuthRateLimitConfig) (s : Door) : (e : LoginEvent) → Decidable (Room cfg s e)
  | .advance _ _ => inferInstanceAs (Decidable (_ → _ → _))
  | .login | .elsewhere | .tick _ => instDecidableTrue

/-! ## The counters of a door -/

namespace Door

variable {cfg : AuthRateLimitConfig} {s s' : Door} {scope scope' : Scope}

@[simp] lemma count_setPhase (i : ℕ) (phase : Phase) :
    (s.setPhase i phase).count scope = s.count scope := rfl

lemma count_setKey_of_ne (h : scope' ≠ scope) (e : Option (Entry ℕ)) :
    (s.setKey scope e).count scope' = s.count scope' := by
  simp [count, setKey, lookup, Function.update_of_ne h]

lemma live_consumeScript (now : ℤ) (windowSeconds : ℕ) (c : Option (Entry ℕ))
    (hc : ∀ e, c = some e → e.live now = true) :
    (consumeScript now windowSeconds c).live now = true := by
  simp only [consumeScript]
  split
  · simp only [Entry.live, decide_eq_true_eq]
    omega
  · cases c with
    | none => rfl
    | some e => exact hc e rfl

/-- `consume` counts one more. -/
lemma count_consume (limit windowSeconds : ℕ) :
    (s.setKey scope (some (consume s.now limit windowSeconds
      (lookup s.keys s.now scope)).2)).count scope = s.count scope + 1 := by
  have hlive := live_consumeScript s.now windowSeconds (lookup s.keys s.now scope)
    fun e he => (Option.filter_eq_some_iff.mp he).2
  have hvalue : (consumeScript s.now windowSeconds (lookup s.keys s.now scope)).value =
      s.count scope + 1 := by
    simp only [consumeScript, count]
    split <;> rfl
  have hlook := lookup_of_live (m := (s.setKey scope (some (consumeScript s.now windowSeconds
    (lookup s.keys s.now scope)))).keys) (k := scope) (Function.update_self _ _ _) hlive
  show ((lookup _ s.now scope).map (·.value)).getD 0 = _
  rw [consume, hlook]
  exact hvalue

lemma count_clear : (s.setKey scope none).count scope = 0 := by
  simp [count, setKey, lookup]

/-- A counter stays as it is or expires. -/
lemma count_tick (n : ℕ) : ((s.tick n).count scope = s.count scope ∧
      ((lookup s.keys (s.now + n) scope).isSome = true ∨ s.count scope = 0)) ∨
    (s.tick n).count scope = 0 ∧ (lookup s.keys s.now scope).isSome = true ∧
      (lookup s.keys (s.now + n) scope).isNone = true := by
  have hnow : (s.tick n).count scope = ((lookup s.keys (s.now + n) scope).map (·.value)).getD 0 :=
    rfl
  rw [hnow, count]
  cases hkey : s.keys scope with
  | none => simp [lookup, hkey]
  | some e =>
    by_cases hafter : e.live (s.now + n) = true
    · have hbefore : e.live s.now = true := Entry.live_of_le (by omega) hafter
      rw [lookup_of_live hkey hafter, lookup_of_live hkey hbefore]
      exact .inl ⟨rfl, .inl rfl⟩
    · rw [lookup_of_not_live hkey hafter]
      by_cases hbefore : e.live s.now = true
      · rw [lookup_of_live hkey hbefore]
        exact .inr ⟨rfl, rfl, rfl⟩
      · rw [lookup_of_not_live hkey hbefore]
        exact .inl ⟨rfl, .inr rfl⟩

/-! ## The invariant -/

/-- Replacing one phase of a list changes the count of those that are `f` by that one. -/
lemma countP_set {f : Phase → Bool} {l : List Phase} {i : ℕ} {phase : Phase}
    (h : l[i]? = some phase) (phase' : Phase) :
    (l.set i phase').countP f + (if f phase then 1 else 0) =
      l.countP f + if f phase' then 1 else 0 := by
  obtain ⟨hi, rfl⟩ := List.getElem?_eq_some_iff.mp h
  rw [List.countP_set hi]
  have hpos : f l[i] = true → 0 < l.countP f :=
    fun hf => List.countP_pos_iff.mpr ⟨_, List.getElem_mem hi, hf⟩
  by_cases hf : f l[i] = true
  · have := hpos hf
    simp only [hf, if_true]
    omega
  · simp [hf]

/-- The verifications that have failed are counted or about to be, and there is room for all logins
that may come to be. -/
structure Inv (cfg : AuthRateLimitConfig) (s : Door) : Prop where
  window : s.failed ≤ s.count .loginIpEmail + s.logins.countP Phase.counting
  room : s.count .loginIpEmail + s.logins.countP Phase.pending ≤ cfg.loginIpEmailFailures

lemma counting_le_pending : s.logins.countP Phase.counting ≤ s.logins.countP Phase.pending := by
  refine List.countP_mono_left fun phase _ h => ?_
  cases phase <;> simp_all [Phase.counting, Phase.pending]

lemma Inv.failed_le (h : s.Inv cfg) : s.failed ≤ cfg.loginIpEmailFailures := by
  have := h.window
  have := h.room
  have := s.counting_le_pending
  omega

/-- A step that leaves the counter of failures alone keeps the invariant if a login does not come to
be pending, and comes to be counted only with a verification that has failed or with none. -/
lemma Inv.setPhase (h : s.Inv cfg) {i : ℕ} {phase phase' : Phase} (hi : s.logins[i]? = some phase)
    (hcount : phase.counting = false) (hpending : phase'.pending = true → phase.pending = true) :
    (s.setPhase i phase').Inv cfg := by
  have hc := countP_set (f := Phase.counting) hi phase'
  have hp := countP_set (f := Phase.pending) hi phase'
  obtain ⟨hw, hr⟩ := h
  refine ⟨?_, ?_⟩ <;> simp only [count_setPhase] <;> simp only [Door.setPhase]
  · simp only [hcount] at hc
    simp at hc
    omega
  · by_cases hpend : phase'.pending = true
    · simp only [hpend, hpending hpend] at hp
      omega
    · simp only [hpend] at hp
      simp at hp
      omega

lemma Inv.setKeyIp (h : s.Inv cfg) (e : Option (Entry ℕ)) : (s.setKey .loginIp e).Inv cfg := by
  obtain ⟨hw, hr⟩ := h
  have hne : Scope.loginIpEmail ≠ .loginIp := by decide
  have hcount := s.count_setKey_of_ne hne e
  exact ⟨hcount ▸ hw, hcount ▸ hr⟩

lemma Inv.login (h : s.Inv cfg) : Inv cfg { s with logins := s.logins ++ [.consumeIp] } := by
  obtain ⟨hw, hr⟩ := h
  refine ⟨?_, ?_⟩
  · simpa [List.countP_append, Phase.counting, count] using hw
  · simpa [List.countP_append, Phase.pending, count] using hr

lemma Inv.tick (h : s.Inv cfg) (n : ℕ) : (s.tick n).Inv cfg := by
  obtain ⟨hw, hr⟩ := h
  have htick := @Door.count_tick s .loginIpEmail n
  rcases htick with ⟨hcount, hlive⟩ | ⟨hcount, hbefore, hafter⟩
  · refine ⟨?_, hcount ▸ hr⟩
    rw [hcount]
    simp only [Door.tick]
    split
    · exact Nat.zero_le _
    · exact hw
  · refine ⟨?_, ?_⟩
    · simp [Door.tick, hbefore, hafter]
    · rw [hcount]
      simp only [Door.tick]
      omega

variable {i : ℕ}

/-- The login that passes the test takes the room that is left. -/
lemma Inv.validate (h : s.Inv cfg) (hi : s.logins[i]? = some .getFailures)
    (hroom : s.count .loginIpEmail + s.logins.countP Phase.pending < cfg.loginIpEmailFailures) :
    (s.setPhase i .validate).Inv cfg := by
  have hc := countP_set (f := Phase.counting) hi .validate
  have hp := countP_set (f := Phase.pending) hi .validate
  simp only [Phase.counting, Phase.pending] at hc hp
  obtain ⟨hw, -⟩ := h
  refine ⟨?_, ?_⟩ <;> simp only [count_setPhase] <;> simp only [Door.setPhase]
  · simp at hc
    omega
  · simp at hp
    omega

/-- A verification that fails is about to be counted. -/
lemma Inv.fail (h : s.Inv cfg) (hi : s.logins[i]? = some .verifyPassword) :
    ({ s with failed := s.failed + 1 }.setPhase i .consumeFailure).Inv cfg := by
  have hc := countP_set (f := Phase.counting) hi .consumeFailure
  have hp := countP_set (f := Phase.pending) hi .consumeFailure
  simp only [Phase.counting, Phase.pending] at hc hp
  obtain ⟨hw, hr⟩ := h
  refine ⟨?_, ?_⟩ <;> simp only [count_setPhase] <;> simp only [Door.setPhase]
  · simp at hc
    show s.failed + 1 ≤ s.count .loginIpEmail + _
    omega
  · simp at hp
    show s.count .loginIpEmail + _ ≤ _
    omega

/-- A login that is counted is not pending any longer. -/
lemma Inv.consume (h : s.Inv cfg) (hi : s.logins[i]? = some .consumeFailure) {reply : Reply}
    (limit windowSeconds : ℕ) :
    ((s.setKey .loginIpEmail (some (Auth.consume s.now limit windowSeconds
      (lookup s.keys s.now .loginIpEmail)).2)).setPhase i (.done reply)).Inv cfg := by
  have hc := countP_set (f := Phase.counting) hi (.done reply)
  have hp := countP_set (f := Phase.pending) hi (.done reply)
  simp only [Phase.counting, Phase.pending] at hc hp
  obtain ⟨hw, hr⟩ := h
  refine ⟨?_, ?_⟩ <;> simp only [count_setPhase, count_consume] <;>
    simp only [Door.setPhase, Door.setKey]
  · simp at hc
    omega
  · simp at hp
    omega

/-- A login that succeeds begins anew. -/
lemma Inv.clear (h : s.Inv cfg) (hi : s.logins[i]? = some .clear) :
    ({ s.setKey .loginIpEmail none with failed := 0 }.setPhase i .append).Inv cfg := by
  have hp := countP_set (f := Phase.pending) hi .append
  simp only [Phase.pending] at hp
  have hcount : count ({ s.setKey .loginIpEmail none with failed := 0 } : Door) .loginIpEmail = 0 :=
    s.count_clear
  refine ⟨Nat.zero_le _, ?_⟩
  simp only [count_setPhase, hcount]
  simp only [Door.setPhase, Door.setKey]
  obtain ⟨-, hr⟩ := h
  simp at hp
  omega

end Door

/-! ## Runs -/

section Runs

variable {cfg : AuthRateLimitConfig} {s s' : Door}

lemma inv_of_advance {i : ℕ} {ok : Bool} {phase : Phase} (h : s.Inv cfg)
    (hroom : Room cfg s (.advance i ok)) (hi : s.logins[i]? = some phase)
    (hs : s.advance cfg i ok phase = some s') : s'.Inv cfg := by
  cases phase with
  | consumeIp =>
    obtain rfl := Option.some.inj hs
    refine (h.setKeyIp _).setPhase hi rfl ?_
    split <;> exact fun h => by cases h
  | getFailures =>
    obtain rfl := Option.some.inj hs
    split
    · exact h.setPhase hi rfl fun h => by cases h
    · rename_i hnot
      have hcount : s.count .loginIpEmail < cfg.loginIpEmailFailures := by
        simpa [blocked, Door.count] using hnot
      exact h.validate hi (hroom hi hcount)
  | ttlFailures =>
    obtain rfl := Option.some.inj hs
    exact h.setPhase hi rfl fun h => by cases h
  | validate =>
    obtain rfl := Option.some.inj hs
    exact h.setPhase hi rfl fun _ => rfl
  | verifyCaptcha =>
    obtain rfl := Option.some.inj hs
    exact h.setPhase hi rfl fun _ => rfl
  | getVerifyByEmail =>
    obtain rfl := Option.some.inj hs
    exact h.setPhase hi rfl fun _ => rfl
  | verifyPassword =>
    simp only [Door.advance] at hs
    split at hs <;> obtain rfl := Option.some.inj hs
    · exact h.setPhase hi rfl fun h => by cases h
    · exact h.fail hi
  | consumeFailure =>
    obtain rfl := Option.some.inj hs
    exact h.consume hi cfg.loginIpEmailFailures cfg.loginWindowSeconds
  | clear =>
    obtain rfl := Option.some.inj hs
    exact h.clear hi
  | append =>
    obtain rfl := Option.some.inj hs
    exact h.setPhase hi rfl fun h => by cases h
  | done reply => cases hs

lemma inv_of_step {e : LoginEvent} (h : s.Inv cfg) (hroom : Room cfg s e)
    (hs : step cfg s e = some s') : s'.Inv cfg := by
  cases e with
  | login =>
    obtain rfl := Option.some.inj hs
    exact h.login
  | advance i ok =>
    obtain ⟨phase, hi, hs⟩ := Option.bind_eq_some_iff.mp hs
    exact inv_of_advance h hroom hi hs
  | elsewhere =>
    obtain rfl := Option.some.inj hs
    exact h.setKeyIp _
  | tick n =>
    obtain rfl := Option.some.inj hs
    exact h.tick n

lemma Door.Inv.fresh (now : ℤ) : (Door.fresh now).Inv cfg := ⟨Nat.zero_le _, Nat.zero_le _⟩

/-- **At most the limit of verifications fails** between two resets of the counter, in runs where
each login that passes the test leaves room for those before it. -/
theorem failed_le_of_leads {now : ℤ} (h : (step cfg).Leads (Room cfg) (Door.fresh now) s) :
    s.failed ≤ cfg.loginIpEmailFailures := by
  have hinv : s.Inv cfg :=
    System.invariant (Door.Inv.fresh now) (fun _ _ _ hi hroom hs => inv_of_step hi hroom hs) h
  exact hinv.failed_le

end Runs

/-! ## Guesses one after the other, and in parallel -/

section Guesses

/-- The `i`th login comes to its verification, if it passes the test. -/
def arrive (i : ℕ) : List LoginEvent := .login :: List.replicate 5 (.advance i true)

/-- The password of the `i`th login is wrong. -/
def guess (i : ℕ) : List LoginEvent := [.advance i false]

/-- The first of two logins is counted before the other one passes the test. -/
theorem failed_le_of_leads_two : ∃ s, (step {}).Leads (Room {}) (Door.fresh 0) s ∧
    s.failed = 2 ∧ s.count .loginIpEmail = 1 ∧ s.failed ≤ 5 := by
  obtain ⟨s, h, hp⟩ := System.exists_leads (step {}) (Room {}) (Door.fresh 0)
    (fun s => decide (s.failed = 2) && decide (s.count .loginIpEmail = 1))
    (arrive 0 ++ guess 0 ++ [.advance 0 true] ++ arrive 1 ++ guess 1) (by decide +kernel)
  simp only [Bool.and_eq_true, decide_eq_true_eq] at hp
  exact ⟨s, h, hp.1, hp.2, failed_le_of_leads h⟩

/-- **Six guesses in parallel**: all of them pass the test before one is counted. -/
theorem guessed_in_parallel : ¬ ∀ (cfg : AuthRateLimitConfig) (s : Door),
    (step cfg).Leads System.Any (Door.fresh 0) s → s.failed ≤ cfg.loginIpEmailFailures := by
  intro hall
  obtain ⟨s, h, hp⟩ := System.exists_leads (step {}) System.Any (Door.fresh 0)
    (fun s => decide (s.failed = 6))
    (((List.range 6).flatMap arrive) ++ (List.range 6).flatMap guess) (by decide +kernel)
  have hfailed : s.failed = 6 := of_decide_eq_true hp
  have := hall {} s h
  rw [hfailed] at this
  exact absurd this (by decide)

end Guesses

end Auth
