import Mathlib.Data.Finset.Card
import Mathlib.Data.List.Sort
import RbphBackend.Backend.Expiring
import RbphBackend.Concurrency.System

set_option relaxedAutoImplicit false
set_option autoImplicit false

/-!
# The leases of connections

Redis keeps for each user a sorted set of connections, and for each connection a lease that names
its instance. Both expire. Four scripts, each of them atomic, register a connection, renew the
leases of an instance, unregister a connection and trim the set of a user to a limit.

## Main definitions

* `Sync.Leases` — the sets, the leases and the clock.
* `Sync.Leases.register`, `Sync.Leases.renew`, `Sync.Leases.unregister`, `Sync.Leases.trim` — the
  scripts, with what they return.
* `Sync.leaseStep` — the system.

## Main results

* `Sync.leased_of_leads` — every lease is listed, no user has more than the limit, and what is
  evicted stays so.
-/

namespace Sync

open Concurrency Expiring

/-! ## The scripts -/

/-- `CONNECTION_LEASE_SECONDS`. -/
def connectionLeaseSeconds : ℤ := 75

/-- What Redis holds; `now` is its clock in microseconds. Members are the scores and ids of
connections, whose ids are in the order of their texts. `owners` says for whom and by which instance
a connection has been registered; no script reads it. -/
structure Leases where
  now : ℤ
  sets : ℤ → Option (Entry (List (ℤ × ℕ)))
  leases : ℕ → Option (Entry ℕ)
  owners : ℕ → Option (ℤ × ℕ)

namespace Leases

variable (r : Leases)

/-- No key exists. -/
def fresh (now : ℤ) : Leases := ⟨now, fun _ => none, fun _ => none, fun _ => none⟩

/-- The clock by which keys expire. -/
def ms : ℤ := r.now / 1000

/-- The deadline that `EXPIRE` sets: a key is there through the millisecond in which it expires. -/
def deadline (seconds : ℤ) : ℤ := r.ms + seconds * 1000 + 1

/-- `ZRANGE key 0 -1`, with the scores. -/
def zrange (user : ℤ) : List (ℤ × ℕ) := ((lookup r.sets r.ms user).map (·.value)).getD []

/-- `EXISTS` of the lease of a connection. -/
def hasLease (id : ℕ) : Bool := (lookup r.leases r.ms id).isSome

/-- `GET` of the lease is the instance. -/
def holds (instance_ id : ℕ) : Bool := (lookup r.leases r.ms id).any fun e => e.value = instance_

/-- The order of a sorted set. -/
def before (a b : ℤ × ℕ) : Prop := a.1 < b.1 ∨ a.1 = b.1 ∧ a.2 ≤ b.2

instance : DecidableRel before := fun _ _ => inferInstanceAs (Decidable (_ ∨ _))

/-- `ZADD`. -/
def zadd (member : ℤ × ℕ) (members : List (ℤ × ℕ)) : List (ℤ × ℕ) :=
  (members.filter fun m => m.2 ≠ member.2).orderedInsert before member

/-- The set with other members; an empty one does not exist. -/
def setOf (expiresAt : Option ℤ) (members : List (ℤ × ℕ)) : Option (Entry (List (ℤ × ℕ))) :=
  if members.isEmpty then none else some ⟨members, expiresAt⟩

/-- The members that have a lease. -/
def pruned (user : ℤ) : List (ℤ × ℕ) := (r.zrange user).filter fun m => r.hasLease m.2

/-- The ids of the first members that are too many. -/
def excess (limit : ℕ) (members : List (ℤ × ℕ)) : List ℕ :=
  (members.take (members.length - limit)).map (·.2)

/-- The other members. -/
def kept (limit : ℕ) (members : List (ℤ × ℕ)) : List (ℤ × ℕ) :=
  members.drop (members.length - limit)

/-- `REGISTER_CONNECTION_SCRIPT`. -/
def register (user : ℤ) (id instance_ limit : ℕ) : List ℕ × Leases :=
  let members := zadd (r.now, id) (r.pruned user)
  let evicted := excess limit members
  (evicted, { r with
    sets := Function.update r.sets user
      (setOf (some (r.deadline (connectionLeaseSeconds * 2))) (kept limit members))
    leases := fun c =>
      if c ∈ evicted then none
      else if c = id then some ⟨instance_, some (r.deadline connectionLeaseSeconds)⟩
      else r.leases c
    owners := Function.update r.owners id (some (user, instance_)) })

/-- `RENEW_CONNECTIONS_SCRIPT`. -/
def renew (user : ℤ) (instance_ : ℕ) (ids : List ℕ) : List ℕ × Leases :=
  (ids.filter fun c => !r.holds instance_ c, { r with
    sets := Function.update r.sets user ((lookup r.sets r.ms user).map fun s =>
      { s with expiresAt := some (r.deadline (connectionLeaseSeconds * 2)) })
    leases := fun c =>
      if c ∈ ids ∧ r.holds instance_ c = true then
        (r.leases c).map fun e => { e with expiresAt := some (r.deadline connectionLeaseSeconds) }
      else r.leases c })

/-- `UNREGISTER_CONNECTION_SCRIPT`. -/
def unregister (user : ℤ) (id instance_ : ℕ) : Leases :=
  { r with
    sets := Function.update r.sets user ((lookup r.sets r.ms user).bind fun s =>
      setOf s.expiresAt (s.value.filter fun m => m.2 ≠ id))
    leases := fun c => if c = id ∧ r.holds instance_ id = true then none else r.leases c }

/-- `TRIM_CONNECTIONS_SCRIPT`. -/
def trim (user : ℤ) (limit : ℕ) : List ℕ × Leases :=
  let members := r.pruned user
  let evicted := excess limit members
  (evicted, { r with
    sets := Function.update r.sets user ((lookup r.sets r.ms user).bind fun s =>
      setOf s.expiresAt (kept limit members))
    leases := fun c => if c ∈ evicted then none else r.leases c })

end Leases

/-! ## The system -/

inductive LeaseEvent where
  | register (user : ℤ) (id instance_ limit : ℕ)
  | renew (user : ℤ) (instance_ : ℕ) (ids : List ℕ)
  | unregister (user : ℤ) (id instance_ : ℕ)
  | trim (user : ℤ) (limit : ℕ)
  | tick (n : ℕ)
  deriving DecidableEq

/-- An id is registered once, and an instance speaks of its own connections only. -/
def leaseStep : System Leases LeaseEvent := fun r e =>
  match e with
  | .register user id instance_ limit =>
    if (r.owners id).isNone then some (r.register user id instance_ limit).2 else none
  | .renew user instance_ ids =>
    if ∀ id ∈ ids, (r.owners id).all (· = (user, instance_)) then
      some (r.renew user instance_ ids).2
    else none
  | .unregister user id instance_ =>
    if (r.owners id).all (· = (user, instance_)) then some (r.unregister user id instance_) else none
  | .trim user limit => some (r.trim user limit).2
  | .tick n => some { r with now := r.now + n }

/-! ## What the scripts see -/

namespace Leases

/-- The unexpired lease `id` is one of the user's. -/
def leased (r : Leases) (user : ℤ) (id : ℕ) : Bool :=
  r.hasLease id && (r.owners id).any (·.1 = user)

/-- The set of the user lasts at least until `t` and lists the connection. -/
def Listed (r : Leases) (user : ℤ) (t : ℤ) (c : ℕ) : Prop :=
  ∃ s t', r.sets user = some s ∧ s.expiresAt = some t' ∧ t ≤ t' ∧ c ∈ s.value.map (·.2)

/-- What holds between the scripts: a lease is that of a registered connection, has a deadline not
later than a new one would, and until then the set of its user lists it. -/
def Inv (r : Leases) : Prop :=
  ∀ c e, r.leases c = some e → ∃ user t, r.owners c = some (user, e.value) ∧
    e.expiresAt = some t ∧ t ≤ r.deadline connectionLeaseSeconds ∧
    (r.ms < t → r.Listed user t c)

variable {r : Leases} {user : ℤ} {c id instance_ limit : ℕ} {members : List (ℤ × ℕ)}

lemma hasLease_iff : r.hasLease c = true ↔ ∃ e, r.leases c = some e ∧ e.live r.ms = true := by
  cases h : r.leases c <;> simp [hasLease, lookup, h]

lemma holds_iff :
    r.holds instance_ c = true ↔
      ∃ e, r.leases c = some e ∧ e.live r.ms = true ∧ e.value = instance_ := by
  cases h : r.leases c <;> simp [holds, lookup, h]

lemma holds_of_leases_eq_none (h : r.leases c = none) : r.holds instance_ c = false := by
  simp [holds, lookup, h]

/-- A set that lists a connection until `t` is there before. -/
lemma Listed.lookup_eq {t : ℤ} (h : r.Listed user t c) (ht : r.ms < t) :
    ∃ s t', lookup r.sets r.ms user = some s ∧ s.expiresAt = some t' ∧ t ≤ t' ∧
      r.zrange user = s.value ∧ c ∈ s.value.map (·.2) := by
  obtain ⟨s, t', hs, hexp, hle, hc⟩ := h
  have hlook : lookup r.sets r.ms user = some s := by
    simp only [lookup, hs, Option.filter_eq_some_iff, true_and, Entry.live, hexp]
    exact decide_eq_true (by omega)
  exact ⟨s, t', hlook, hexp, hle, by simp [zrange, hlook], hc⟩

lemma live_of_lt {e : Entry ℕ} {t : ℤ} (hexp : e.expiresAt = some t) (ht : r.ms < t) :
    e.live r.ms = true := by
  simpa [Entry.live, hexp] using ht

lemma hasLease_of_lt {e : Entry ℕ} {t : ℤ} (he : r.leases c = some e)
    (hexp : e.expiresAt = some t) (ht : r.ms < t) : r.hasLease c = true :=
  hasLease_iff.mpr ⟨e, he, live_of_lt hexp ht⟩

lemma mem_zadd {m : ℤ × ℕ} :
    c ∈ (zadd m members).map (·.2) ↔ c = m.2 ∨ c ∈ members.map (·.2) := by
  simp only [zadd, List.mem_map, List.mem_orderedInsert, List.mem_filter]
  constructor
  · rintro ⟨x, rfl | ⟨hx, -⟩, rfl⟩
    · exact .inl rfl
    · exact .inr ⟨x, hx, rfl⟩
  · rintro (rfl | ⟨x, hx, rfl⟩)
    · exact ⟨m, .inl rfl, rfl⟩
    · by_cases hm : x.2 = m.2
      · exact ⟨m, .inl rfl, hm.symm⟩
      · exact ⟨x, .inr ⟨hx, by simpa using hm⟩, rfl⟩

lemma mem_pruned :
    c ∈ (r.pruned user).map (·.2) ↔ c ∈ (r.zrange user).map (·.2) ∧ r.hasLease c = true := by
  simp only [pruned, List.mem_map, List.mem_filter]
  constructor
  · rintro ⟨x, ⟨hx, hl⟩, rfl⟩
    exact ⟨⟨x, hx, rfl⟩, hl⟩
  · rintro ⟨⟨x, hx, rfl⟩, hl⟩
    exact ⟨x, ⟨hx, hl⟩, rfl⟩

/-- A member is evicted or kept. -/
lemma mem_kept (h : c ∈ members.map (·.2)) (hc : c ∉ excess limit members) :
    c ∈ (kept limit members).map (·.2) := by
  rw [← List.take_append_drop (members.length - limit) members, List.map_append,
    List.mem_append] at h
  exact h.resolve_left hc

lemma mem_of_mem_excess (h : c ∈ excess limit members) : c ∈ members.map (·.2) :=
  List.map_subset _ (List.take_subset _ _) h

lemma length_kept_le : (kept limit members).length ≤ limit := by
  rw [kept, List.length_drop]
  omega

lemma setOf_of_mem {x : Option ℤ} (h : c ∈ members.map (·.2)) :
    setOf x members = some ⟨members, x⟩ := by
  cases members with
  | nil => simp at h
  | cons m ms => rfl

lemma length_le_of_setOf {x : Option ℤ} {s : Entry (List (ℤ × ℕ))} (h : setOf x members = some s) :
    s.value.length ≤ members.length := by
  cases members with
  | nil => cases h
  | cons m ms =>
    obtain rfl := Option.some.inj h
    exact Nat.le_refl _

/-! ## The scripts keep the invariant -/

/-- A set is given twice the time of a lease. -/
lemma deadline_le (r : Leases) :
    r.deadline connectionLeaseSeconds ≤ r.deadline (connectionLeaseSeconds * 2) := by
  simp only [deadline, connectionLeaseSeconds]
  omega

lemma Inv.fresh (now : ℤ) : (fresh now).Inv := by
  intro c e h
  cases h

/-- **A lease that lasts is listed.** -/
lemma Inv.mem_zrange (h : r.Inv) (hl : r.leased user c = true) :
    c ∈ (r.zrange user).map (·.2) := by
  obtain ⟨hhas, hu⟩ := (Bool.and_eq_true _ _).mp hl
  obtain ⟨e, he, hlive⟩ := hasLease_iff.mp hhas
  obtain ⟨user', t, hown, hexp, -, hlist⟩ := h c e he
  obtain rfl : user' = user := by simpa [hown] using hu
  have ht : r.ms < t := by simpa [Entry.live, hexp] using hlive
  obtain ⟨s, t', -, -, -, hz, hc⟩ := (hlist ht).lookup_eq ht
  rwa [hz]

lemma Inv.owners_ne_none (h : r.Inv) (hl : r.hasLease c = true) : r.owners c ≠ none := by
  obtain ⟨e, he, -⟩ := hasLease_iff.mp hl
  obtain ⟨user, t, hown, -⟩ := h c e he
  simp [hown]

lemma Inv.register (h : r.Inv) (hnone : r.owners id = none) :
    (r.register user id instance_ limit).2.Inv := by
  intro c e he
  simp only [Leases.register] at he ⊢
  split at he
  · cases he
  rename_i hev
  split at he
  · rename_i hid
    subst hid
    obtain rfl := Option.some.inj he
    have hmem := mem_kept (mem_zadd.mpr (.inl rfl)) hev
    exact ⟨user, _, by simp, rfl, Int.le_refl _, fun _ =>
      ⟨_, _, (Function.update_self _ _ _).trans (setOf_of_mem hmem), rfl, r.deadline_le, hmem⟩⟩
  · rename_i hid
    obtain ⟨user', t, hown, hexp, hle, hlist⟩ := h c e he
    refine ⟨user', t, by simpa [Function.update_of_ne hid] using hown, hexp, hle, fun ht => ?_⟩
    by_cases hu : user' = user
    · subst hu
      obtain ⟨s, t', -, -, -, hz, hmem⟩ := (hlist ht).lookup_eq ht
      have hlive : r.hasLease c = true := hasLease_of_lt he hexp ht
      have hkept := mem_kept (mem_zadd.mpr (.inr (mem_pruned.mpr ⟨hz ▸ hmem, hlive⟩))) hev
      exact ⟨_, _, (Function.update_self _ _ _).trans (setOf_of_mem hkept), rfl,
        hle.trans r.deadline_le, hkept⟩
    · obtain ⟨s, t', hs, hrest⟩ := hlist ht
      exact ⟨s, t', by simpa [Function.update_of_ne hu] using hs, hrest⟩

lemma Inv.trim (h : r.Inv) : (r.trim user limit).2.Inv := by
  intro c e he
  simp only [Leases.trim] at he ⊢
  split at he
  · cases he
  rename_i hev
  obtain ⟨user', t, hown, hexp, hle, hlist⟩ := h c e he
  refine ⟨user', t, hown, hexp, hle, fun ht => ?_⟩
  by_cases hu : user' = user
  · subst hu
    obtain ⟨s, t', hlook, hexp', hle', hz, hmem⟩ := (hlist ht).lookup_eq ht
    have hlive : r.hasLease c = true := hasLease_of_lt he hexp ht
    have hkept := mem_kept (mem_pruned.mpr ⟨hz ▸ hmem, hlive⟩) hev
    exact ⟨⟨kept limit (r.pruned user'), s.expiresAt⟩, t', by simp [hlook, setOf_of_mem hkept],
      hexp', hle', hkept⟩
  · obtain ⟨s, t', hs, hrest⟩ := hlist ht
    exact ⟨s, t', by simpa [Function.update_of_ne hu] using hs, hrest⟩

/-- Only its owner unregisters a connection, so its lease goes with its membership. -/
lemma Inv.unregister (h : r.Inv) (hown : (r.owners id).all (· = (user, instance_)) = true) :
    (r.unregister user id instance_).Inv := by
  intro c e he
  simp only [Leases.unregister] at he ⊢
  split at he
  · cases he
  rename_i hno
  obtain ⟨user', t, howner, hexp, hle, hlist⟩ := h c e he
  refine ⟨user', t, howner, hexp, hle, fun ht => ?_⟩
  by_cases hu : user' = user
  · subst hu
    have hc : c ≠ id := by
      rintro rfl
      have hval : e.value = instance_ := by simpa [howner] using hown
      exact hno ⟨rfl, holds_iff.mpr ⟨e, he, live_of_lt hexp ht, hval⟩⟩
    obtain ⟨s, t', hlook, hexp', hle', -, hmem⟩ := (hlist ht).lookup_eq ht
    obtain ⟨x, hx, rfl⟩ := List.mem_map.mp hmem
    have hfil : x.2 ∈ (s.value.filter fun m => m.2 ≠ id).map (·.2) :=
      List.mem_map.mpr ⟨x, List.mem_filter.mpr ⟨hx, by simpa using hc⟩, rfl⟩
    exact ⟨⟨s.value.filter fun m => m.2 ≠ id, s.expiresAt⟩, t',
      by simp only [Function.update_self, hlook, Option.bind_some, setOf_of_mem hfil],
      hexp', hle', hfil⟩
  · obtain ⟨s, t', hs, hrest⟩ := hlist ht
    exact ⟨s, t', by simpa [Function.update_of_ne hu] using hs, hrest⟩

/-- The leases renewed are those of the user whose set is renewed with them. -/
lemma Inv.renew {ids : List ℕ} (h : r.Inv)
    (hown : ∀ id ∈ ids, (r.owners id).all (· = (user, instance_)) = true) :
    (r.renew user instance_ ids).2.Inv := by
  -- a set that lists a connection until `t` does so until any deadline that is not too late
  have hlisted : ∀ {user' t t' c}, r.Listed user' t c → r.ms < t →
      t' ≤ t ∨ user' = user → t' ≤ r.deadline connectionLeaseSeconds →
      (r.renew user instance_ ids).2.Listed user' t' c := by
    intro user' t t' c hl ht hor hle
    by_cases hu : user' = user
    · subst hu
      obtain ⟨s, -, hlook, -, -, -, hmem⟩ := hl.lookup_eq ht
      exact ⟨⟨s.value, some (r.deadline (connectionLeaseSeconds * 2))⟩, _,
        by simp [Leases.renew, hlook], rfl, hle.trans r.deadline_le, hmem⟩
    · obtain ⟨s, t'', hs, hexp, hle', hmem⟩ := hl
      exact ⟨s, t'', by simpa [Leases.renew, Function.update_of_ne hu] using hs, hexp,
        (hor.resolve_right hu).trans hle', hmem⟩
  intro c e he
  simp only [Leases.renew] at he
  split at he
  · rename_i hc
    obtain ⟨e', he', rfl⟩ := Option.map_eq_some_iff.mp he
    obtain ⟨user', t, howner, hexp, hle, hlist⟩ := h c e' he'
    have hpair : user' = user ∧ e'.value = instance_ := by simpa [howner] using hown c hc.1
    obtain ⟨rfl, -⟩ := hpair
    obtain ⟨e'', he'', hlive, -⟩ := holds_iff.mp hc.2
    obtain rfl := Option.some.inj (he'.symm.trans he'')
    have ht : r.ms < t := by simpa [Entry.live, hexp] using hlive
    exact ⟨user', _, howner, rfl, Int.le_refl _, fun _ =>
      hlisted (hlist ht) ht (.inr rfl) (Int.le_refl _)⟩
  · obtain ⟨user', t, howner, hexp, hle, hlist⟩ := h c e he
    exact ⟨user', t, howner, hexp, hle, fun ht =>
      hlisted (hlist ht) ht (.inl (Int.le_refl _)) hle⟩

lemma Inv.tick (h : r.Inv) (n : ℕ) : Inv { r with now := r.now + n } := by
  intro c e he
  obtain ⟨user, t, hown, hexp, hle, hlist⟩ := h c e he
  have hms : r.ms ≤ ms { r with now := r.now + n } := by
    simp only [ms]
    omega
  refine ⟨user, t, hown, hexp, ?_, fun ht => hlist (by omega)⟩
  simp only [deadline] at hle ⊢
  omega

/-! ## Evicted for good -/

/-- The connection has been registered and has no lease. -/
def Gone (r : Leases) (c : ℕ) : Prop := r.owners c ≠ none ∧ r.leases c = none

lemma Gone.hasLease (h : r.Gone c) : r.hasLease c = false := by
  simp [Leases.hasLease, lookup, h.2]

lemma Gone.mem_renew (h : r.Gone c) {ids : List ℕ} (hc : c ∈ ids) :
    c ∈ (r.renew user instance_ ids).1 :=
  List.mem_filter.mpr ⟨hc, by simp [holds_of_leases_eq_none h.2]⟩

/-- Only a registration creates a lease. -/
lemma Gone.leaseStep {r' : Leases} {e : LeaseEvent} (h : r.Gone c)
    (hs : leaseStep r e = some r') : r'.Gone c := by
  obtain ⟨hown, hnone⟩ := h
  cases e <;> simp only [Sync.leaseStep, Option.ite_none_right_eq_some, Option.some.injEq] at hs
  case register user id instance_ limit =>
    obtain ⟨hfree, rfl⟩ := hs
    have hc : c ≠ id := by
      rintro rfl
      exact hown (Option.isNone_iff_eq_none.mp hfree)
    exact ⟨by simpa [Leases.register, Function.update_of_ne hc] using hown,
      by simp [Leases.register, hc, hnone]⟩
  case renew user instance_ ids =>
    obtain ⟨-, rfl⟩ := hs
    exact ⟨hown, by simp [Leases.renew, hnone]⟩
  case unregister user id instance_ =>
    obtain ⟨-, rfl⟩ := hs
    exact ⟨hown, by simp [Leases.unregister, hnone]⟩
  case trim user limit =>
    subst hs
    exact ⟨hown, by simp [Leases.trim, hnone]⟩
  case tick n =>
    subst hs
    exact ⟨hown, hnone⟩

lemma Gone.of_leads {r' : Leases} (h : r.Gone c)
    (hr : Sync.leaseStep.Leads System.Any r r') : r'.Gone c :=
  @System.invariant _ _ _ _ r r' (Gone · c) h (fun _ _ _ h' _ hs => h'.leaseStep hs) hr

lemma Inv.gone_of_mem_register (h : r.Inv)
    (hc : c ∈ (r.register user id instance_ limit).1) :
    (r.register user id instance_ limit).2.Gone c := by
  refine ⟨?_, by simp only [Leases.register] at hc ⊢; exact if_pos hc⟩
  by_cases hid : c = id
  · simp [Leases.register, hid]
  · have hmem := (mem_zadd.mp (mem_of_mem_excess hc)).resolve_left hid
    simpa [Leases.register, Function.update_of_ne hid] using
      h.owners_ne_none (mem_pruned.mp hmem).2

lemma Inv.gone_of_mem_trim (h : r.Inv) (hc : c ∈ (r.trim user limit).1) :
    (r.trim user limit).2.Gone c :=
  ⟨h.owners_ne_none (mem_pruned.mp (mem_of_mem_excess hc)).2,
    by simp only [Leases.trim] at hc ⊢; exact if_pos hc⟩

/-! ## The limit -/

lemma length_zrange_le (h : ∀ s, r.sets user = some s → s.value.length ≤ limit) :
    (r.zrange user).length ≤ limit := by
  rw [zrange]
  cases hs : lookup r.sets r.ms user with
  | none => exact Nat.zero_le _
  | some s => exact h s (Option.filter_eq_some_iff.mp hs).1

lemma length_zrange_register_le :
    ((r.register user id instance_ limit).2.zrange user).length ≤ limit := by
  refine length_zrange_le fun s hs => ?_
  simp only [Leases.register, Function.update_self] at hs
  exact (length_le_of_setOf hs).trans length_kept_le

lemma length_zrange_trim_le : ((r.trim user limit).2.zrange user).length ≤ limit := by
  refine length_zrange_le fun s hs => ?_
  simp only [Leases.trim, Function.update_self] at hs
  obtain ⟨s', -, hs'⟩ := Option.bind_eq_some_iff.mp hs
  exact (length_le_of_setOf hs').trans length_kept_le

/-- Leases are listed, so there are no more of them than the set has members. -/
lemma Inv.card_le (h : r.Inv) (hz : (r.zrange user).length ≤ limit) (ids : Finset ℕ)
    (hids : ∀ c ∈ ids, r.leased user c = true) : ids.card ≤ limit := by
  have hsub : ids ⊆ ((r.zrange user).map (·.2)).toFinset := by
    intro c hc
    exact List.mem_toFinset.mpr (h.mem_zrange (hids c hc))
  calc ids.card ≤ ((r.zrange user).map (·.2)).toFinset.card := Finset.card_le_card hsub
    _ ≤ ((r.zrange user).map (·.2)).length := List.toFinset_card_le _
    _ = (r.zrange user).length := List.length_map _
    _ ≤ limit := hz

/-- What a script with a limit leaves: the user has no more leases than that, and whatever happens
next, a connection that it evicts has no lease and is reported by its renewals. -/
def Limited (user : ℤ) (limit : ℕ) (out : List ℕ × Leases) : Prop :=
  (∀ ids : Finset ℕ, (∀ c ∈ ids, out.2.leased user c = true) → ids.card ≤ limit) ∧
  ∀ c ∈ out.1, ∀ r', Sync.leaseStep.Leads System.Any out.2 r' → r'.hasLease c = false ∧
    ∀ user' instance_ ids, c ∈ ids → c ∈ (r'.renew user' instance_ ids).1

end Leases

/-- Every event keeps the invariant. -/
lemma inv_of_leaseStep (r : Leases) (e : LeaseEvent) (r' : Leases) (h : r.Inv)
    (hs : leaseStep r e = some r') : r'.Inv := by
  cases e <;> simp only [leaseStep, Option.ite_none_right_eq_some, Option.some.injEq] at hs
  case register user id instance_ limit =>
    obtain ⟨hnone, rfl⟩ := hs
    exact h.register (Option.isNone_iff_eq_none.mp hnone)
  case renew user instance_ ids =>
    obtain ⟨hown, rfl⟩ := hs
    exact h.renew hown
  case unregister user id instance_ =>
    obtain ⟨hown, rfl⟩ := hs
    exact h.unregister hown
  case trim user limit =>
    subst hs
    exact h.trim
  case tick n =>
    subst hs
    exact h.tick n

/-- **Leases are listed and limited**, and what is evicted stays so: in whatever order the scripts
run, connections are registered and time passes. -/
theorem leased_of_leads {now : ℤ} {r : Leases}
    (h : leaseStep.Leads System.Any (Leases.fresh now) r) :
    (∀ user c, r.leased user c = true → c ∈ (r.zrange user).map (·.2)) ∧
    (∀ user id instance_ limit, r.owners id = none →
      Leases.Limited user limit (r.register user id instance_ limit)) ∧
    ∀ user limit, Leases.Limited user limit (r.trim user limit) := by
  have hinv : r.Inv :=
    System.invariant (Leases.Inv.fresh now) (fun s e s' hi _ hs => inv_of_leaseStep s e s' hi hs) h
  refine ⟨fun user c => hinv.mem_zrange, fun user id instance_ limit hnone => ⟨?_, ?_⟩,
    fun user limit => ⟨?_, ?_⟩⟩
  · exact (hinv.register hnone).card_le Leases.length_zrange_register_le
  · intro c hc r' hr
    have hgone := (hinv.gone_of_mem_register hc).of_leads hr
    exact ⟨hgone.hasLease, fun _ _ _ => hgone.mem_renew⟩
  · exact hinv.trim.card_le Leases.length_zrange_trim_le
  · intro c hc r' hr
    have hgone := (hinv.gone_of_mem_trim hc).of_leads hr
    exact ⟨hgone.hasLease, fun _ _ _ => hgone.mem_renew⟩

/-- Of three connections under a limit of two the first is evicted. -/
theorem leased_of_leads_three :
    ∃ r, leaseStep.Leads System.Any (Leases.fresh 0) r ∧ 10 ∈ (r.zrange 1).map (·.2) ∧
      (r.register 1 12 0 2).1 = [10] ∧ Leases.Limited 1 2 (r.register 1 12 0 2) := by
  obtain ⟨r, h, hp⟩ := System.exists_leads leaseStep System.Any (Leases.fresh 0)
    (fun r => r.leased 1 10 && decide ((r.register 1 12 0 2).1 = [10]) && (r.owners 12).isNone)
    [.register 1 10 0 2, .tick 60000000, .register 1 11 0 2, .renew 1 0 [10, 11], .tick 30000000]
    (by decide +kernel)
  simp only [Bool.and_eq_true, decide_eq_true_eq, Option.isNone_iff_eq_none] at hp
  obtain ⟨⟨hl, hev⟩, hnone⟩ := hp
  obtain ⟨hlisted, hreg, -⟩ := leased_of_leads h
  exact ⟨r, h, hlisted 1 10 hl, hev, hreg 1 12 0 2 hnone⟩

end Sync
