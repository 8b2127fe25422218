import Mathlib.Logic.Function.Basic
import RbphBackend.Concurrency.System
import RbphBackend.Gate.Meaning
import RbphBackend.Hints.Validation

set_option relaxedAutoImplicit false
set_option autoImplicit false

/-!
# Requests that create and edit hints

A request validates what it is to write with queries of its own, and writes in a statement of its
own. An edit is validated against the row as it has read it, and updates the row as it is then.

## Main definitions

* `Hints.Desk` — the tables and the requests under way.
* `Hints.HintEvent`, `Hints.step` — the system: requests arrive, take their next step, and the other
  tables change.
* `Hints.Calm` — the next step is not an update that is disturbed.

## Main results

* `Hints.founded_of_leads` — in runs of calm steps every hint has what its cooldown rests on.
* `Hints.cleared_while_edited` — two edits that break the rule.
-/

namespace Hints

open Concurrency

/-! ## The requests -/

/-- What a request is to write, after the first part of its validation. -/
inductive Write where
  | create (data : RbHintCreateData)
  | update (hintId : Id) (current : RbHintAdminData) (data : RbHintUpdateData)
  deriving DecidableEq

namespace Write

def puzzleId : Write → Id
  | create data => data.puzzleId
  | update _ current data => data.puzzleId.getD current.puzzleId

def costId : Write → Option Id
  | create data => data.costId
  | update _ current data => data.costId.getD current.costId

/-- The request is accepted without a currency. -/
def free : Write → Bool
  | create data => data.costAmount = 0
  | update _ _ _ => true

end Write

inductive Reply where
  | invalid
  | notFound
  | internalError
  | ok (hint : RbHintAdminData)
  deriving DecidableEq

/-- What a request does next: read the row it edits, ask for the game of the puzzle, ask whether the
currency is one of the game's, write. -/
inductive Task where
  | read (hintId : Id) (data : RbHintUpdateData)
  | getHintGame (w : Write)
  | currencyBelongsToGame (w : Write) (gameId costId : Id)
  | write (w : Write)
  | done (reply : Reply)
  deriving DecidableEq

/-- The tables, as far as the requests read them, and the requests. `puzzles` and `currencies` say
the game of each. -/
structure Desk where
  hints : Id → Option RbHintAdminData
  puzzles : Id → Option Id
  currencies : Id → Option Id
  nextId : Id
  tasks : ℕ → Option Task

namespace Desk

variable (s : Desk)

def setTask (tid : ℕ) (task : Task) : Desk :=
  { s with tasks := Function.update s.tasks tid (some task) }

def setHint (id : Id) (row : Option RbHintAdminData) : Desk :=
  { s with hints := Function.update s.hints id row }

/-- The constraints of `rb_hint` that the statements can violate. -/
def constraints (h : RbHintAdminData) : Bool :=
  (h.costId.all fun costId => (s.currencies costId).isSome) &&
    0 ≤ h.cooldownOrigin && h.cooldownOrigin ≤ 3

/-- `admin_create_hint`, and how the request ends. -/
def adminCreateHint (tid : ℕ) (data : RbHintCreateData) (now : ℤ) : Desk :=
  let h := data.row s.nextId now
  if s.puzzles data.puzzleId = none then s.setTask tid (.done .notFound)
  else if !s.constraints h then s.setTask tid (.done .invalid)
  else if (s.hints s.nextId).isSome then s.setTask tid (.done .internalError)
  else { s.setHint s.nextId (some h) with nextId := s.nextId + 1 }.setTask tid (.done (.ok h))

/-- The statement of an update finds no such row, or no such puzzle. -/
def misses (hintId : Id) (data : RbHintUpdateData) : Bool :=
  (s.hints hintId).isNone || data.puzzleId.any fun puzzleId => (s.puzzles puzzleId).isNone

/-- `admin_update_hint`, and how the request ends. -/
def adminUpdateHint (tid : ℕ) (hintId : Id) (data : RbHintUpdateData) : Desk :=
  match s.hints hintId with
  | none => s.setTask tid (.done .notFound)
  | some h =>
    if s.misses hintId data then s.setTask tid (.done .notFound)
    else if !s.constraints (h.update data) then s.setTask tid (.done .invalid)
    else (s.setHint hintId (some (h.update data))).setTask tid (.done (.ok (h.update data)))

/-- The next step of a request. -/
def advance (tid : ℕ) (now : ℤ) : Task → Option Desk
  | .read hintId data =>
    match s.hints hintId with
    | none => some (s.setTask tid (.done .notFound))
    | some current =>
      if validateUpdate current data then
        some (s.setTask tid (.getHintGame (.update hintId current data)))
      else some (s.setTask tid (.done .invalid))
  | .getHintGame w =>
    match s.puzzles w.puzzleId, w.costId with
    | none, _ => some (s.setTask tid (.done .invalid))
    | some gameId, some costId =>
      if costId ≤ 0 then some (s.setTask tid (.done .invalid))
      else some (s.setTask tid (.currencyBelongsToGame w gameId costId))
    | some _, none =>
      if w.free then some (s.setTask tid (.write w)) else some (s.setTask tid (.done .invalid))
  | .currencyBelongsToGame w gameId costId =>
    if s.currencies costId = some gameId then some (s.setTask tid (.write w))
    else some (s.setTask tid (.done .invalid))
  | .write (.create data) => some (s.adminCreateHint tid data now)
  | .write (.update hintId _ data) => some (s.adminUpdateHint tid hintId data)
  | .done _ => none

/-- Puzzles and currencies change: hints go with their puzzles, and lose their currencies. -/
def change (puzzles currencies : Id → Option Id) : Desk :=
  { s with
    puzzles
    currencies
    hints := fun id => (s.hints id).bind fun h =>
      if (puzzles h.puzzleId).isSome then
        some { h with costId := h.costId.filter fun costId => (currencies costId).isSome }
      else none }

end Desk

/-! ## The system -/

inductive HintEvent where
  | append (tid : ℕ) (data : RbHintCreateData)
  | edit (tid : ℕ) (hintId : Id) (data : RbHintUpdateData)
  | advance (tid : ℕ) (now : ℤ)
  | delete (hintId : Id)
  | change (puzzles currencies : Id → Option Id)

def step : System Desk HintEvent := fun s e =>
  match e with
  | .append tid data =>
    if s.tasks tid = none then
      some (s.setTask tid (if validateCreate data then .getHintGame (.create data)
        else .done .invalid))
    else none
  | .edit tid hintId data =>
    if s.tasks tid = none then some (s.setTask tid (.read hintId data)) else none
  | .advance tid now => (s.tasks tid).bind (s.advance tid now)
  | .delete hintId => some (s.setHint hintId none)
  | .change puzzles currencies => some (s.change puzzles currencies)

/-- An update that the next step carries out is undisturbed. -/
def Calm (s : Desk) (e : HintEvent) : Prop :=
  ∀ tid now hintId current data h, e = .advance tid now →
    s.tasks tid = some (.write (.update hintId current data)) → s.hints hintId = some h →
    s.misses hintId data = false → s.constraints (h.update data) = true →
    data.Undisturbed current h

/-- Every hint has what its cooldown rests on. -/
def Desk.Founded (s : Desk) : Prop := ∀ id h, s.hints id = some h → h.Founded

/-- Nothing is under way, every hint has what its cooldown rests on, and its conditions compile. -/
structure Desk.Start (s : Desk) : Prop where
  tasks : ∀ tid, s.tasks tid = none
  hints : ∀ id h, s.hints id = some h → h.Founded ∧ h.Compiles

/-! ## The invariant -/

/-- The request has been validated. -/
def Write.Valid : Write → Prop
  | create data => validateCreate data = true
  | update _ current data => validateUpdate current data = true ∧ current.Compiles

def Task.Valid : Task → Prop
  | read _ _ => True
  | getHintGame w => w.Valid
  | currencyBelongsToGame w _ _ => w.Valid
  | write w => w.Valid
  | done _ => True

structure Desk.Inv (s : Desk) : Prop where
  hints : ∀ id h, s.hints id = some h → h.Founded ∧ h.Compiles
  tasks : ∀ tid task, s.tasks tid = some task → task.Valid

namespace Desk

variable {s s' : Desk} {tid : ℕ}

lemma Start.inv (h : s.Start) : s.Inv where
  hints := h.hints
  tasks tid task ht := by rw [h.tasks] at ht; cases ht

lemma Inv.founded (h : s.Inv) : s.Founded := fun id row hrow => (h.hints id row hrow).1

lemma Inv.setTask (h : s.Inv) {task : Task} (ht : task.Valid) : (s.setTask tid task).Inv where
  hints := h.hints
  tasks tid' task' ht' := by
    by_cases heq : tid' = tid
    · subst heq
      obtain rfl : task = task' := by simpa [Desk.setTask] using ht'
      exact ht
    · exact h.tasks tid' task' (by simpa [Desk.setTask, Function.update_of_ne heq] using ht')

lemma Inv.setHint (h : s.Inv) {id : Id} {row : Option RbHintAdminData}
    (hr : ∀ r, row = some r → r.Founded ∧ r.Compiles) : (s.setHint id row).Inv where
  hints id' r hr' := by
    by_cases heq : id' = id
    · subst heq
      exact hr r (by simpa [Desk.setHint] using hr')
    · exact h.hints id' r (by simpa [Desk.setHint, Function.update_of_ne heq] using hr')
  tasks := h.tasks

lemma Inv.adminCreateHint (h : s.Inv) {data : RbHintCreateData} {now : ℤ}
    (hv : validateCreate data = true) : (s.adminCreateHint tid data now).Inv := by
  unfold Desk.adminCreateHint
  dsimp only
  split
  · exact h.setTask trivial
  split
  · exact h.setTask trivial
  split
  · exact h.setTask trivial
  · have hset : (s.setHint s.nextId (some (data.row s.nextId now))).Inv := by
      refine h.setHint fun r hr => ?_
      obtain rfl := Option.some.inj hr
      exact founded_row hv s.nextId now
    have hnext : Inv { s.setHint s.nextId (some (data.row s.nextId now)) with
        nextId := s.nextId + 1 } := ⟨hset.hints, hset.tasks⟩
    exact hnext.setTask trivial

/-- The statement of an edit leaves the rows as they were, or updates the one it names. -/
lemma adminUpdateHint_cases (s : Desk) (tid : ℕ) (hintId : Id) (data : RbHintUpdateData) :
    (∃ reply, s.adminUpdateHint tid hintId data = s.setTask tid (.done reply) ∧
      ∀ h, s.hints hintId = some h →
        ¬(s.misses hintId data = false ∧ s.constraints (h.update data) = true)) ∨
    ∃ h, s.hints hintId = some h ∧ s.misses hintId data = false ∧
      s.constraints (h.update data) = true ∧ s.adminUpdateHint tid hintId data =
        (s.setHint hintId (some (h.update data))).setTask tid (.done (.ok (h.update data))) := by
  unfold Desk.adminUpdateHint
  cases hrow : s.hints hintId with
  | none => exact .inl ⟨_, rfl, fun h hh => by cases hh⟩
  | some h =>
    by_cases hm : s.misses hintId data = true
    · refine .inl ⟨.notFound, by simp [hm], fun _ _ hn => ?_⟩
      rw [hm] at hn
      cases hn.1
    · have hm : s.misses hintId data = false := by simpa using hm
      by_cases hc : s.constraints (h.update data) = true
      · exact .inr ⟨h, rfl, hm, hc, by simp [hm, hc]⟩
      · refine .inl ⟨.invalid, by simp [hm, hc], fun h' hh' hn => ?_⟩
        obtain rfl := Option.some.inj hh'
        exact hc hn.2

/-- The rows keep the rule and compile whatever else changes of them. -/
lemma Inv.change (h : s.Inv) (puzzles currencies : Id → Option Id) :
    (s.change puzzles currencies).Inv where
  hints id r hr := by
    obtain ⟨row, hrow, hr⟩ := Option.bind_eq_some_iff.mp hr
    split at hr
    · obtain rfl := Option.some.inj hr
      obtain ⟨hf, hc⟩ := h.hints id row hrow
      exact ⟨⟨hf.enable, hf.display, hf.titleDisplay⟩, hc⟩
    · cases hr
  tasks := h.tasks

end Desk

/-! ## The steps -/

section Steps

variable {s s' : Desk}

/-- What an undisturbed update leaves follows the rule. -/
lemma inv_of_advance {tid : ℕ} {now : ℤ} {task : Task} (hs : s.Inv)
    (hcalm : Calm s (.advance tid now)) (ht : s.tasks tid = some task)
    (h : s.advance tid now task = some s') : s'.Inv := by
  have hvalid := hs.tasks tid task ht
  cases task with
  | read hintId data =>
    simp only [Desk.advance] at h
    split at h
    · obtain rfl := Option.some.inj h
      exact hs.setTask trivial
    · rename_i current hcurrent
      split at h <;> obtain rfl := Option.some.inj h
      · exact hs.setTask ⟨‹_›, (hs.hints hintId current hcurrent).2⟩
      · exact hs.setTask trivial
  | getHintGame w =>
    simp only [Desk.advance] at h
    split at h
    · obtain rfl := Option.some.inj h
      exact hs.setTask trivial
    · split at h <;> obtain rfl := Option.some.inj h
      · exact hs.setTask trivial
      · exact hs.setTask hvalid
    · split at h <;> obtain rfl := Option.some.inj h
      · exact hs.setTask hvalid
      · exact hs.setTask trivial
  | currencyBelongsToGame w gameId costId =>
    simp only [Desk.advance] at h
    split at h <;> obtain rfl := Option.some.inj h
    · exact hs.setTask hvalid
    · exact hs.setTask trivial
  | write w =>
    cases w with
    | create data =>
      obtain rfl := Option.some.inj h
      exact hs.adminCreateHint hvalid
    | update hintId current data =>
      obtain rfl := Option.some.inj h
      obtain ⟨reply, heq, -⟩ | ⟨row, hrow, hm, hc, heq⟩ := s.adminUpdateHint_cases tid hintId data
      · rw [heq]
        exact hs.setTask trivial
      · rw [heq]
        refine (hs.setHint fun r hr => ?_).setTask trivial
        obtain rfl := Option.some.inj hr
        obtain ⟨hf, hcomp⟩ := hs.hints hintId row hrow
        have hu := hcalm tid now hintId current data row rfl ht hrow hm hc
        exact ⟨(founded_update_iff_undisturbed hvalid.1 hvalid.2 hf).mpr hu,
          compiles_update hvalid.1 hcomp⟩
  | done reply => cases h

/-- Calm steps keep the invariant. -/
lemma inv_of_step {e : HintEvent} (hs : s.Inv) (hcalm : Calm s e) (h : step s e = some s') :
    s'.Inv := by
  cases e with
  | append tid data =>
    simp only [step, Option.ite_none_right_eq_some, Option.some.injEq] at h
    obtain ⟨-, rfl⟩ := h
    split
    · exact hs.setTask ‹_›
    · exact hs.setTask trivial
  | edit tid hintId data =>
    simp only [step, Option.ite_none_right_eq_some, Option.some.injEq] at h
    obtain ⟨-, rfl⟩ := h
    exact hs.setTask trivial
  | advance tid now =>
    obtain ⟨task, ht, h⟩ := Option.bind_eq_some_iff.mp h
    exact inv_of_advance hs hcalm ht h
  | delete hintId =>
    obtain rfl := Option.some.inj h
    exact hs.setHint fun r hr => by cases hr
  | change puzzles currencies =>
    obtain rfl := Option.some.inj h
    exact hs.change puzzles currencies

/-- A step that keeps the rule is calm. -/
lemma calm_of_founded {e : HintEvent} (hs : s.Inv) (h : step s e = some s') (hf : s'.Founded) :
    Calm s e := by
  rintro tid now hintId current data row rfl ht hrow hm hc
  simp only [step, ht, Option.bind_some, Desk.advance, Option.some.injEq] at h
  obtain ⟨reply, -, hno⟩ | ⟨row', hrow', -, -, heq⟩ := s.adminUpdateHint_cases tid hintId data
  · exact absurd ⟨hm, hc⟩ (hno row hrow)
  · obtain rfl := Option.some.inj (hrow.symm.trans hrow')
    obtain ⟨hv, hcomp⟩ := hs.tasks tid _ ht
    have hfounded : (row.update data).Founded := by
      refine hf hintId _ ?_
      rw [← h, heq]
      simp [Desk.setTask, Desk.setHint]
    exact (founded_update_iff_undisturbed hv hcomp (hs.hints hintId row hrow).1).mp hfounded

/-- **Every hint has what its cooldown rests on**, in runs whose updates are undisturbed; a step
that follows breaks that exactly if it is an update that is disturbed. -/
theorem founded_of_leads (h₀ : s.Start) (h : step.Leads Calm s s') :
    s'.Founded ∧ ∀ e s'', step s' e = some s'' → (s''.Founded ↔ Calm s' e) := by
  have hinv : s'.Inv := System.invariant h₀.inv (fun _ _ _ hs hcalm hn => inv_of_step hs hcalm hn) h
  refine ⟨hinv.founded, fun e s'' hn => ⟨calm_of_founded hinv hn, fun hcalm => ?_⟩⟩
  exact (inv_of_step hinv hcalm hn).founded

end Steps

/-! ## Two edits -/

section Race

/-- The text of a condition. -/
def racedCondition : String := String.ofList (Gate.solvedText 7).print

lemma compile_racedCondition :
    Expr.compileGateExpr racedCondition = .ok (.solved (.id 7)) :=
  Gate.compileGateExpr_print (Gate.plain_solvedText 7) (Gate.compile_solvedText (by decide))

/-- A hint that is enabled by a condition; its cooldown does not count from there. -/
def racedHint : RbHintAdminData where
  id := 1
  sort := 0
  title := "hint"
  hiddenTitle := none
  content := ""
  contentType := 0
  cooldown := 60
  titleDisplayCondition := none
  displayCondition := none
  enableCond := some racedCondition
  cooldownOrigin := 0
  costId := none
  costAmount := 0
  backendFunction := none
  triggers := []
  puzzleId := 1
  ctimeAt := 0

def racedDesk : Desk where
  hints id := if id = 1 then some racedHint else none
  puzzles id := if id = 1 then some 1 else none
  currencies _ := none
  nextId := 2
  tasks _ := none

/-- The cooldown is to count from the enabling. -/
def countFromEnabling : RbHintUpdateData := { cooldownOrigin := some 1 }

/-- The enabling condition is to go. -/
def clearEnabling : RbHintUpdateData := { enableCond := some none }

lemma racedDesk_start : racedDesk.Start where
  tasks _ := rfl
  hints id h hh := by
    simp only [racedDesk, Option.ite_none_right_eq_some, Option.some.injEq] at hh
    obtain ⟨rfl, rfl⟩ := hh
    refine ⟨⟨?_, ?_, ?_⟩, rfl, rfl⟩ <;> intro ho <;> cases ho

lemma validateUpdate_countFromEnabling : validateUpdate racedHint countFromEnabling = true := by
  simp [validateUpdate, validateBasic, validateConditions, validateEnableCondition, racedHint,
    countFromEnabling, expectedCooldownOrigin, compile_racedCondition]

lemma validateUpdate_clearEnabling : validateUpdate racedHint clearEnabling = true := by
  decide +kernel

/-- Both edits have been validated. -/
def racedTasks : Desk :=
  (racedDesk.setTask 0 (.write (.update 1 racedHint countFromEnabling))).setTask 1
    (.write (.update 1 racedHint clearEnabling))

/-- The condition has been cleared. -/
def clearedDesk : Desk := racedTasks.adminUpdateHint 1 1 clearEnabling

lemma calm_of_not_write {s : Desk} {tid : ℕ} {now : ℤ} {task : Task} (ht : s.tasks tid = some task)
    (hw : ∀ w, task ≠ .write w) : Calm s (.advance tid now) := by
  rintro tid' now' hintId current data row heq ht'
  obtain ⟨rfl, -⟩ := HintEvent.advance.inj heq
  exact absurd (Option.some.inj (ht.symm.trans ht')) (hw _)

/-- An edit that is validated without a currency comes to its statement. -/
lemma leads_write {s : Desk} {tid : ℕ} {hintId gameId : Id} {current : RbHintAdminData}
    {data : RbHintUpdateData} (hfree : s.tasks tid = none) (hrow : s.hints hintId = some current)
    (hv : validateUpdate current data = true)
    (hp : s.puzzles (data.puzzleId.getD current.puzzleId) = some gameId)
    (hc : data.costId.getD current.costId = none) :
    step.Leads Calm s (s.setTask tid (.write (.update hintId current data))) := by
  have hread : step s (.edit tid hintId data) = some (s.setTask tid (.read hintId data)) := by
    simp [step, hfree]
  have hgame : step (s.setTask tid (.read hintId data)) (.advance tid 0) =
      some (s.setTask tid (.getHintGame (.update hintId current data))) := by
    simp [step, Desk.advance, Desk.setTask, hrow, hv]
  have hwrite : step (s.setTask tid (.getHintGame (.update hintId current data)))
      (.advance tid 0) = some (s.setTask tid (.write (.update hintId current data))) := by
    simp [step, Desk.advance, Desk.setTask, Write.puzzleId, Write.costId, Write.free, hp, hc]
  refine .tail (.tail (.single ⟨_, ?_, hread⟩) ⟨_, ?_, hgame⟩) ⟨_, ?_, hwrite⟩
  · intro tid' now' hintId' current' data' row heq
    cases heq
  · exact calm_of_not_write (Function.update_self _ _ _) fun w hw => by cases hw
  · exact calm_of_not_write (Function.update_self _ _ _) fun w hw => by cases hw

lemma leads_racedTasks : step.Leads Calm racedDesk racedTasks :=
  (leads_write rfl rfl validateUpdate_countFromEnabling rfl rfl).trans
    (leads_write rfl rfl validateUpdate_clearEnabling rfl rfl)

/-- The row is as the edit that clears the condition has read it. -/
lemma leads_clearedDesk : step.Leads Calm racedDesk clearedDesk := by
  refine leads_racedTasks.tail ⟨.advance 1 0, ?_, rfl⟩
  rintro tid now hintId current data row heq ht hrow - -
  obtain ⟨rfl, -⟩ := HintEvent.advance.inj heq
  obtain ⟨⟨rfl, rfl, rfl⟩⟩ : Write.update 1 racedHint clearEnabling =
    .update hintId current data := by simpa [racedTasks, Desk.setTask] using ht
  obtain rfl : racedHint = row := Option.some.inj hrow
  exact ⟨fun _ _ _ => rfl, fun _ _ _ => Iff.rfl⟩

/-- The other edit then counts the cooldown from an enabling that never comes. -/
lemma not_founded_after_clearedDesk :
    ∃ s, step clearedDesk (.advance 0 0) = some s ∧ ¬ s.Founded := by
  refine ⟨_, rfl, fun hf => ?_⟩
  have hrow := hf 1 ((racedHint.update clearEnabling).update countFromEnabling) (by decide +kernel)
  exact hrow.enable (by decide) (by decide)

/-- The rule holds until then, and the next step, of the other edit, is not calm. -/
theorem founded_of_leads_clearedDesk : clearedDesk.Founded ∧ ¬ Calm clearedDesk (.advance 0 0) := by
  obtain ⟨hfounded, hiff⟩ := founded_of_leads racedDesk_start leads_clearedDesk
  obtain ⟨s, hs, hnot⟩ := not_founded_after_clearedDesk
  exact ⟨hfounded, fun hcalm => hnot ((hiff _ _ hs).mpr hcalm)⟩

/-- **Two edits break the rule**: one lets the cooldown count from the enabling while the other
clears the condition. -/
theorem cleared_while_edited :
    ¬ ∀ s₀ s, s₀.Start → step.Leads System.Any s₀ s → s.Founded := by
  intro h
  obtain ⟨s, hs, hnot⟩ := not_founded_after_clearedDesk
  have hleads := System.leads_any leads_clearedDesk
  exact hnot (h racedDesk s racedDesk_start (hleads.tail ⟨_, trivial, hs⟩))

end Race

end Hints
