import RbphBackend.Backend.KeyValue

set_option relaxedAutoImplicit false
set_option autoImplicit false

/-!
# Versions of the key-value store

The clients' statements come in any order, each atomic: a call is its first statement, and where
that has written nothing a read of the row follows it as a statement of its own. A client compares
and sets with a version it was shown.

## Main definitions

* `Backend.KvCall.statement`, `Backend.KvEvent.run` — the statements, with the row they show.
* `Backend.after` — the rows that statements leave.
* `Backend.Unmodified` — the key keeps its row from one statement to another.
* `Backend.Removes` — a delete that finds the row of the key.

## Main results

* `Backend.execRow_eq_statement` — a call is its statement and the read that may follow.
* `Backend.unmodified_iff_not_removes` — what stands between a read and the comparison with its
  version that is applied.
-/

namespace Backend

open Numeric

/-! ## Statements -/

section Statement

variable {D : Doubles} (now : ℤ) (old : Option KvRow)

/-- The first statement of a call on the row of its key: the row it shows the client, if any, and
the row it leaves. -/
def KvCall.statement : KvCall D → Except String (Option KvRow × Option KvRow)
  | .get _ => .ok (none, old)
  | .getEntry _ => .ok (getKvEntry now old, old)
  | .set key value expiry => do
    let row ← setKv now key old value expiry
    return (some row, some row)
  | .increment key amount expiry => do
    let row ← incrementKv now key old D amount expiry
    return (some row, some row)
  | .setIfAbsent key value ttlMs => do
    let row ← setKvIfAbsent now key old value ttlMs
    return (row, row.or old)
  | .compareAndSet _ expectedVersion value expiry => do
    let row ← compareAndSetKv now old expectedVersion value expiry
    return (row, row.or old)
  | .delete _ => .ok (none, none)

/-- What a call replies after its statement, with what is read of the row that is left. -/
def KvCall.reply (server : ℤ) (shown reread : Option KvRow) : KvCall D → KvReply
  | .get _ => .value ((getKvEntry now old).map (·.value))
  | .getEntry _ => .entry shown
  | .set .. | .increment .. | .setIfAbsent .. | .compareAndSet .. =>
    .mutation ⟨shown.isSome, shown.or reread, server⟩
  | .delete _ => .deleted (deleteKv old)

end Statement

section Execute

variable {D : Doubles} {at_ : Instants} {old : Option KvRow}

/-- **A call is its statement and the read that may follow**: nothing is shown to it that is not
the row its statement wrote or the row another statement reads. -/
theorem execRow_eq_statement (call : KvCall D) :
    execRow at_ old call = (call.statement at_.statement old).map fun r =>
      (call.reply at_.statement old at_.server r.1 (getKvEntry at_.reread old), r.2) := by
  cases call with
  | get key => rfl
  | getEntry key => rfl
  | set key value expiry =>
    simp only [execRow, KvCall.statement]
    cases setKv at_.statement key old value expiry <;> rfl
  | increment key amount expiry =>
    simp only [execRow, KvCall.statement]
    cases incrementKv at_.statement key old D amount expiry <;> rfl
  | setIfAbsent key value ttlMs =>
    simp only [execRow, KvCall.statement]
    cases setKvIfAbsent at_.statement key old value ttlMs <;> rfl
  | compareAndSet key expectedVersion value expiry =>
    simp only [execRow, KvCall.statement]
    cases compareAndSetKv at_.statement old expectedVersion value expiry <;> rfl
  | delete key => rfl

end Execute

/-! ## One statement -/

section Row

variable {D : Doubles} {now : ℤ} {old left shown : Option KvRow} {call : KvCall D}

lemma version_upsert (value : String) (expiresAt : Option ℤ) :
    (upsert old value expiresAt).version = nextVersion old := rfl

lemma setKv_version {key : KvKey} {value : String} {expiry : PuzzleBackendKvExpiry} {row : KvRow}
    (h : setKv now key old value expiry = .ok row) : row.version = nextVersion old := by
  obtain ⟨u, -, h⟩ := bind_eq_ok.mp h
  obtain ⟨excluded, -, h⟩ := bind_eq_ok.mp h
  obtain rfl := pure_eq_ok.mp h
  exact version_upsert _ _

lemma incrementKv_version {key : KvKey} {amount : D.Double} {expiry : PuzzleBackendKvExpiry}
    {row : KvRow} (h : incrementKv now key old D amount expiry = .ok row) :
    row.version = nextVersion old := by
  unfold incrementKv at h
  dsimp only at h
  split at h
  · obtain ⟨u, -, h⟩ := bind_eq_ok.mp h
    obtain ⟨excluded, -, h⟩ := bind_eq_ok.mp h
    split at h
    · obtain rfl := pure_eq_ok.mp h
      exact version_upsert _ _
    · split at h
      · split at h
        · cases h
        · obtain rfl := pure_eq_ok.mp h
          exact version_upsert _ _
      · obtain rfl := pure_eq_ok.mp h
        exact version_upsert _ _
  · cases h

lemma setKvIfAbsent_version {key : KvKey} {value : String} {ttlMs : Option ℤ} {row : KvRow}
    (h : setKvIfAbsent now key old value ttlMs = .ok (some row)) :
    row.version = nextVersion old := by
  obtain ⟨u, -, h⟩ := bind_eq_ok.mp h
  obtain ⟨excluded, -, h⟩ := bind_eq_ok.mp h
  split at h
  · obtain rfl := Option.some.inj (pure_eq_ok.mp h)
    exact version_upsert _ _
  · exact absurd (pure_eq_ok.mp h) (by simp)

/-- What a comparison that is applied has found. -/
lemma compareAndSetKv_eq_some {expectedVersion : ℤ} {value : String}
    {expiry : PuzzleBackendKvExpiry} {row : KvRow}
    (h : compareAndSetKv now old expectedVersion value expiry = .ok (some row)) :
    (∃ found, old = some found ∧ found.version = expectedVersion) ∧
      row.version = nextVersion old := by
  unfold compareAndSetKv at h
  dsimp only at h
  split at h
  · cases h
  · rename_i found
    split at h
    · rename_i hfound
      obtain ⟨excluded, -, h⟩ := bind_eq_ok.mp h
      obtain rfl := Option.some.inj (pure_eq_ok.mp h)
      exact ⟨⟨found, rfl, hfound.1⟩, version_upsert _ _⟩
    · cases h

/-- **What a statement leaves**: the row it found, a row with the next version, or, where it is a
delete, none. -/
lemma statement_left (h : call.statement now old = .ok (shown, left)) :
    left = old ∨ (∃ row, left = some row ∧ row.version = nextVersion old) ∨
      ∃ key, call = .delete key := by
  cases call with
  | get key =>
    obtain ⟨-, rfl⟩ := Prod.mk.inj (Except.ok.inj h)
    exact .inl rfl
  | getEntry key =>
    obtain ⟨-, rfl⟩ := Prod.mk.inj (Except.ok.inj h)
    exact .inl rfl
  | set key value expiry =>
    obtain ⟨row, hrow, h⟩ := bind_eq_ok.mp h
    obtain ⟨-, rfl⟩ := Prod.mk.inj (pure_eq_ok.mp h)
    exact .inr (.inl ⟨row, rfl, setKv_version hrow⟩)
  | increment key amount expiry =>
    obtain ⟨row, hrow, h⟩ := bind_eq_ok.mp h
    obtain ⟨-, rfl⟩ := Prod.mk.inj (pure_eq_ok.mp h)
    exact .inr (.inl ⟨row, rfl, incrementKv_version hrow⟩)
  | setIfAbsent key value ttlMs =>
    obtain ⟨row, hrow, h⟩ := bind_eq_ok.mp h
    obtain ⟨-, rfl⟩ := Prod.mk.inj (pure_eq_ok.mp h)
    cases row with
    | none => exact .inl rfl
    | some row => exact .inr (.inl ⟨row, rfl, setKvIfAbsent_version hrow⟩)
  | compareAndSet key expectedVersion value expiry =>
    obtain ⟨row, hrow, h⟩ := bind_eq_ok.mp h
    obtain ⟨-, rfl⟩ := Prod.mk.inj (pure_eq_ok.mp h)
    cases row with
    | none => exact .inl rfl
    | some row => exact .inr (.inl ⟨row, rfl, (compareAndSetKv_eq_some hrow).2⟩)
  | delete key => exact .inr (.inr ⟨key, rfl⟩)

/-- A statement that shows a row leaves it. -/
lemma statement_shown {row : KvRow} (h : call.statement now old = .ok (some row, left)) :
    left = some row := by
  cases call with
  | get key => exact absurd (Except.ok.inj h) (by simp)
  | getEntry key =>
    obtain ⟨hrow, rfl⟩ := Prod.mk.inj (Except.ok.inj h)
    exact Option.eq_some_of_filter_eq_some hrow
  | set key value expiry =>
    obtain ⟨row', -, h⟩ := bind_eq_ok.mp h
    obtain ⟨hrow, rfl⟩ := Prod.mk.inj (pure_eq_ok.mp h)
    exact hrow
  | increment key amount expiry =>
    obtain ⟨row', -, h⟩ := bind_eq_ok.mp h
    obtain ⟨hrow, rfl⟩ := Prod.mk.inj (pure_eq_ok.mp h)
    exact hrow
  | setIfAbsent key value ttlMs =>
    obtain ⟨row', -, h⟩ := bind_eq_ok.mp h
    obtain ⟨rfl, rfl⟩ := Prod.mk.inj (pure_eq_ok.mp h)
    rfl
  | compareAndSet key expectedVersion value expiry =>
    obtain ⟨row', -, h⟩ := bind_eq_ok.mp h
    obtain ⟨rfl, rfl⟩ := Prod.mk.inj (pure_eq_ok.mp h)
    rfl
  | delete key => exact absurd (Except.ok.inj h) (by simp)

end Row

/-! ## Any order of statements -/

/-- A statement of a client at an instant. -/
structure KvEvent (D : Doubles) where
  client : ℕ
  now : ℤ
  call : KvCall D

section Events

variable {D : Doubles} (inGame : Id → BackendScope → Bool)

/-- The statement on the table. One that fails shows nothing and changes nothing. -/
def KvEvent.run (e : KvEvent D) (rows : Rows) : Option KvRow × Rows :=
  if inGame e.call.key.gameId e.call.key.scope then
    match e.call.statement e.now (rows e.call.key) with
    | .error _ => (none, rows)
    | .ok (shown, row) => (shown, Function.update rows e.call.key row)
  else (none, rows)

/-- The rows that the statements leave. -/
def after (rows : Rows) (es : List (KvEvent D)) : Rows :=
  es.foldl (fun rows e => (e.run inGame rows).2) rows

/-- From `rows` on, the key keeps its row through all the statements. -/
def Unmodified (rows : Rows) (key : KvKey) (es : List (KvEvent D)) : Prop :=
  ∀ l, l <+: es → after inGame rows l key = rows key

/-- A delete that finds the row of the key. -/
def Removes (rows : Rows) (key : KvKey) (e : KvEvent D) : Prop :=
  (∃ k, e.call = .delete k) ∧ e.call.key = key ∧ inGame key.gameId key.scope = true ∧
    rows key ≠ none

end Events

section Runs

variable {D : Doubles} {inGame : Id → BackendScope → Bool} {rows : Rows} {key : KvKey}
  {e : KvEvent D} {es l : List (KvEvent D)} {row row' : KvRow}

@[simp] lemma after_nil : after inGame rows ([] : List (KvEvent D)) = rows := rfl

@[simp] lemma after_cons :
    after inGame rows (e :: es) = after inGame (e.run inGame rows).2 es := rfl

lemma after_append : after inGame rows (es ++ l) = after inGame (after inGame rows es) l :=
  List.foldl_append

/-- What a statement leaves of the row of a key. -/
lemma run_key (hrow : rows key = some row) :
    (e.run inGame rows).2 key = some row ∨
      (∃ row', (e.run inGame rows).2 key = some row' ∧ row'.version = row.version + 1) ∨
        Removes inGame rows key e ∧ (e.run inGame rows).2 key = none := by
  unfold KvEvent.run
  split
  · rename_i hgame
    cases hs : e.call.statement e.now (rows e.call.key) with
    | error _ => exact .inl hrow
    | ok r =>
      obtain ⟨shown, left⟩ := r
      dsimp only
      by_cases hk : e.call.key = key
      · subst hk
        rw [Function.update_self]
        rcases statement_left hs with hleft | ⟨row', hleft, hversion⟩ | ⟨k, hk⟩
        · exact .inl (hleft.trans hrow)
        · exact .inr (.inl ⟨row', hleft, by rw [hversion, hrow]; rfl⟩)
        · refine .inr (.inr ⟨⟨⟨k, hk⟩, rfl, hgame, by simp [hrow]⟩, ?_⟩)
          rw [hk] at hs
          exact (Prod.mk.inj (Except.ok.inj hs)).2.symm
      · rw [Function.update_of_ne (Ne.symm hk)]
        exact .inl hrow
  · exact .inl hrow

/-- A delete that finds the row leaves none. -/
lemma run_of_removes (h : Removes inGame rows key e) : (e.run inGame rows).2 key = none := by
  obtain ⟨⟨k, hk⟩, hkey, hgame, -⟩ := h
  subst hkey
  rw [KvEvent.run, if_pos hgame, hk]
  exact Function.update_self _ _ _

/-- A row that is shown is the row of the key. -/
lemma run_shown (h : (e.run inGame rows).1 = some row) :
    (e.run inGame rows).2 e.call.key = some row := by
  unfold KvEvent.run at h ⊢
  split at h
  · rename_i hgame
    rw [if_pos hgame]
    cases hs : e.call.statement e.now (rows e.call.key) with
    | error _ =>
      rw [hs] at h
      cases h
    | ok r =>
      obtain ⟨shown, left⟩ := r
      rw [hs] at h
      obtain rfl : shown = some row := h
      dsimp only
      rw [Function.update_self]
      exact statement_shown hs
  · cases h

/-- What a comparison that is applied has found. -/
lemma found_of_applied {expectedVersion : ℤ} {value : String} {expiry : PuzzleBackendKvExpiry}
    (hcall : e.call = .compareAndSet key expectedVersion value expiry)
    (h : (e.run inGame rows).1 = some row) :
    ∃ found, rows key = some found ∧ found.version = expectedVersion := by
  have hkey : e.call.key = key := by rw [hcall]; rfl
  unfold KvEvent.run at h
  split at h
  · rw [hkey, hcall] at h
    cases hs : (KvCall.compareAndSet key expectedVersion value expiry : KvCall D).statement e.now
        (rows key) with
    | error _ =>
      rw [hs] at h
      cases h
    | ok r =>
      obtain ⟨shown, left⟩ := r
      rw [hs] at h
      obtain rfl : shown = some row := h
      obtain ⟨row', hrow, hs⟩ := bind_eq_ok.mp hs
      obtain ⟨rfl, -⟩ := Prod.mk.inj (pure_eq_ok.mp hs)
      exact (compareAndSetKv_eq_some hrow).1
  · cases h

/-- No delete finds the row of the key when it comes. -/
def NoRemoval (inGame : Id → BackendScope → Bool) (rows : Rows) (key : KvKey)
    (es : List (KvEvent D)) : Prop :=
  ∀ l e l', es = l ++ e :: l' → ¬ Removes inGame (after inGame rows l) key e

lemma NoRemoval.tail (h : NoRemoval inGame rows key (e :: es)) :
    NoRemoval inGame (e.run inGame rows).2 key es :=
  fun l e' l' hl => h (e :: l) e' l' (by rw [hl]; rfl)

/-- **The version counts the writes** of a row that is not removed, by induction on the
statements. -/
lemma version_le_of_noRemoval (hrow : rows key = some row) (h : NoRemoval inGame rows key es) :
    ∃ row', after inGame rows es key = some row' ∧ row.version ≤ row'.version ∧
      (row'.version = row.version → row' = row) := by
  induction es generalizing rows row with
  | nil => exact ⟨row, hrow, le_refl _, fun _ => rfl⟩
  | cons e es ih =>
    rcases run_key (e := e) hrow with hkept | ⟨row₁, hrow₁, hversion⟩ | ⟨hremoves, -⟩
    · exact ih hkept h.tail
    · obtain ⟨row', hafter, hle, -⟩ := ih hrow₁ h.tail
      exact ⟨row', hafter, by omega, fun heq => by omega⟩
    · exact absurd hremoves (h [] e es rfl)

/-- A key that keeps its row loses it to no delete. -/
lemma Unmodified.noRemoval (h : Unmodified inGame rows key es) (hrow : rows key = some row) :
    NoRemoval inGame rows key es := by
  intro l e l' hl hremoves
  have hnone := run_of_removes hremoves
  have hkept := h (l ++ [e]) ⟨l', by rw [hl]; simp⟩
  rw [after_append, after_cons, after_nil, hnone, hrow] at hkept
  cases hkept

/-- **A version stands for one row only while the row is not deleted**: a client is shown a row,
and a comparison with its version is applied later. The key has kept that row from the read to the
comparison just if no delete in between has found it. -/
theorem unmodified_iff_not_removes {l₁ l₂ : List (KvEvent D)} {r w : KvEvent D} {value : String}
    {expiry : PuzzleBackendKvExpiry} (hread : (r.run inGame (after inGame rows l₁)).1 = some row)
    (hcall : w.call = .compareAndSet r.call.key row.version value expiry)
    (happlied : (w.run inGame (after inGame rows (l₁ ++ r :: l₂))).1 = some row') :
    Unmodified inGame (after inGame rows (l₁ ++ [r])) r.call.key l₂ ↔
      NoRemoval inGame (after inGame rows (l₁ ++ [r])) r.call.key l₂ := by
  have hstart : after inGame rows (l₁ ++ [r]) r.call.key = some row := by
    rw [after_append, after_cons, after_nil]
    exact run_shown hread
  have hsplit : after inGame rows (l₁ ++ r :: l₂) =
      after inGame (after inGame rows (l₁ ++ [r])) l₂ := by
    rw [← after_append]
    simp
  constructor
  · intro h
    exact h.noRemoval hstart
  · rintro h l ⟨l', rfl⟩
    -- the version grows up to the comparison, which finds it where the read has seen it
    have hl : NoRemoval inGame (after inGame rows (l₁ ++ [r])) r.call.key l :=
      fun l₃ e l₄ he => h l₃ e (l₄ ++ l') (by rw [he]; simp)
    have hl' : NoRemoval inGame (after inGame (after inGame rows (l₁ ++ [r])) l) r.call.key l' := by
      intro l₃ e l₄ he
      rw [← after_append]
      exact h (l ++ l₃) e l₄ (by rw [he]; simp)
    obtain ⟨row₁, hrow₁, hle₁, heq₁⟩ := version_le_of_noRemoval hstart hl
    obtain ⟨row₂, hrow₂, hle₂, -⟩ := version_le_of_noRemoval hrow₁ hl'
    obtain ⟨found, hfound, hversion⟩ := found_of_applied hcall happlied
    rw [hsplit, after_append, hrow₂] at hfound
    obtain rfl := Option.some.inj hfound
    have hrow : row₁ = row := heq₁ (by omega)
    rw [hrow₁, hstart, hrow]

end Runs

/-- A client sets the key. -/
def claimSet : KvEvent integers := ⟨1, 0, .set claimKey "1" .permanent⟩

/-- It compares with the version it was shown then. -/
def claimCompare : KvEvent integers := ⟨1, 5, .compareAndSet claimKey 1 "3" .permanent⟩

/-- Statements of another client that leave the key as it is. -/
def lookOn : List (KvEvent integers) :=
  [⟨2, 1, .getEntry claimKey⟩, ⟨2, 2, .setIfAbsent claimKey "2" none⟩]

/-- Nobody has touched the row the comparison finds. -/
theorem unmodified_iff_not_removes_lookOn :
    Unmodified (fun _ _ => true) (after (fun _ _ => true) (fun _ => none) [claimSet]) claimKey
        lookOn ↔
      NoRemoval (fun _ _ => true) (after (fun _ _ => true) (fun _ => none) [claimSet]) claimKey
        lookOn := by
  have hread : (claimSet.run (fun _ _ => true) (after (fun _ _ => true) (fun _ => none)
      ([] : List (KvEvent integers)))).1 =
      some ⟨"1", 1, none⟩ := by decide +kernel
  have happlied : (claimCompare.run (fun _ _ => true)
      (after (fun _ _ => true) (fun _ => none) ([] ++ claimSet :: lookOn))).1 =
        some ⟨"3", 2, none⟩ := by decide +kernel
  exact unmodified_iff_not_removes hread rfl happlied

/-- Statements of another client that delete the row and set the key anew. -/
def setOver : List (KvEvent integers) :=
  [⟨2, 1, .delete claimKey⟩, ⟨2, 2, .set claimKey "2" .permanent⟩]

/-- **A version is given twice**: the row of a key that was deleted starts from the first version
again, and a comparison with what was read of the old row overwrites the new one. -/
theorem version_reused :
    (claimSet.run (fun _ _ => true) (after (fun _ _ => true) (fun _ => none)
      ([] : List (KvEvent integers)))).1 =
        some ⟨"1", 1, none⟩ ∧
      (claimCompare.run (fun _ _ => true)
        (after (fun _ _ => true) (fun _ => none) ([] ++ claimSet :: setOver))).1 =
          some ⟨"3", 2, none⟩ ∧
      ¬ Unmodified (fun _ _ => true) (after (fun _ _ => true) (fun _ => none) [claimSet]) claimKey
        setOver := by
  refine ⟨by decide +kernel, by decide +kernel, ?_⟩
  intro h
  have hkept := h setOver (List.prefix_refl _)
  revert hkept
  decide +kernel

end Backend
