import RbphBackend.Games.Settings
import RbphBackend.Play.Config

set_option relaxedAutoImplicit false
set_option autoImplicit false

/-!
# The actions that backends decide on

A backend function names the action of an answer in two ways: as the action of a submission that it
hands to the host, and as the action of what it returns as a judge. Each is decoded by a function of
its own. The host takes the low 16 bits of a number; the other takes the numbers of 16 bits.

## Main definitions

* `Play.submissionAction` — the action of a submission that is handed to the host.
* `Play.deserializeJudgeAction` — the action that a judge function returns.
* `Play.DecodersAgree` — both reject a value, or decode it to one action.

## Main results

* `Play.submissionAction_int`, `Play.deserializeJudgeAction_int` — what numbers are decoded to.
-/

namespace Play

open Games (Value)

/-! ## The decoders -/

inductive HostErrorKind where
  | invalidArgument
  | forbidden
  | notFound
  | limitExceeded
  | timeout
  | unavailable
  | internal
  deriving DecidableEq

structure HostError where
  kind : HostErrorKind
  message : String
  deriving DecidableEq

def HostError.invalid (message : String) : HostError := ⟨.invalidArgument, message⟩

/-- The cast `as i16`. -/
def asI16 (n : ℤ) : ℤ := n.bmod 65536

/-- `HostDispatcher::submission_action`. -/
def submissionAction (value : Value) : Except HostError RbJudgeAction :=
  match value.asStr with
  | some action => .ok <|
    match action with
    | "fail" => .fail
    | "correct" => .correct
    | "milestone" => .milestone
    | "startGame" => .startGame
    | "easterEgg" => .easterEgg
    | "finishGame" => .finishGame
    | _ => .error
  | none =>
    match value.asI64 with
    | some action => .ok <|
      match asI16 action with
      | -2 => .error
      | -1 => .pending
      | 0 => .fail
      | 1 => .correct
      | 2 => .milestone
      | 3 => .startGame
      | 4 => .easterEgg
      | 5 => .finishGame
      | _ => .invalid
    | none => .error (.invalid "submission action must be a string")

/-- The variants that the action of a judge function is read as. -/
inductive RawAction where
  | string (value : String)
  | number (value : ℤ)
  | null
  deriving DecidableEq

/-- The first variant that fits. -/
def RawAction.deserialize : Value → Option RawAction
  | .string value => some (.string value)
  | .int value => if -32768 ≤ value ∧ value ≤ 32767 then some (.number value) else none
  | .null => some .null
  | _ => none

/-- `From<i16>`: the action with this code. -/
def RbJudgeAction.ofCode : ℤ → RbJudgeAction
  | -2 => error
  | -1 => pending
  | 0 => fail
  | 1 => correct
  | 2 => milestone
  | 3 => startGame
  | 4 => easterEgg
  | 5 => finishGame
  | _ => invalid

def deserializeJudgeAction (value : Value) : Except String (Option RbJudgeAction) :=
  if value.isNull then .ok none
  else
    match RawAction.deserialize value with
    | some (.string value) => .ok <| some <|
      match value with
      | "fail" => .fail
      | "correct" => .correct
      | "milestone" => .milestone
      | "startGame" => .startGame
      | "easterEgg" => .easterEgg
      | "finishGame" => .finishGame
      | _ => .error
    | some (.number value) => .ok (some (.ofCode value))
    | some .null => .ok none
    | none => .error "data did not match any variant of untagged enum RawAction"

/-! ## Numbers -/

lemma asI16_of_fits {n : ℤ} (hlo : -32768 ≤ n) (hhi : n ≤ 32767) : asI16 n = n := by
  rw [asI16, Int.bmod_def]
  split
  · omega
  · omega

/-- The host decodes a number of 64 bits by its low 16 bits, and rejects the others. -/
lemma submissionAction_int (n : ℤ) : submissionAction (.int n) =
    if -9223372036854775808 ≤ n ∧ n ≤ 9223372036854775807 then .ok (.ofCode (asI16 n))
    else .error (.invalid "submission action must be a string") := by
  have hstr : (Value.int n).asStr = none := rfl
  by_cases h : -9223372036854775808 ≤ n ∧ n ≤ 9223372036854775807
  · have hint : (Value.int n).asI64 = some n := if_pos h
    rw [submissionAction, hstr, hint, if_pos h]
    rfl
  · have hint : (Value.int n).asI64 = none := if_neg h
    rw [submissionAction, hstr, hint, if_neg h]

/-- The action of a judge function is decoded from a number of 16 bits. -/
lemma deserializeJudgeAction_int (n : ℤ) : deserializeJudgeAction (.int n) =
    if -32768 ≤ n ∧ n ≤ 32767 then .ok (some (.ofCode n))
    else .error "data did not match any variant of untagged enum RawAction" := by
  have hnull : ¬ (Value.int n).isNull = true := Bool.false_ne_true
  by_cases h : -32768 ≤ n ∧ n ≤ 32767
  · have hraw : RawAction.deserialize (.int n) = some (.number n) := if_pos h
    rw [deserializeJudgeAction, if_neg hnull, hraw, if_pos h]
  · have hraw : RawAction.deserialize (.int n) = none := if_neg h
    rw [deserializeJudgeAction, if_neg hnull, hraw, if_neg h]

/-- An action with a side effect has one code. -/
lemma RbJudgeAction.code_of_ofCode {n : ℤ} (h : (ofCode n).sideEffect = true) :
    (ofCode n).code = n := by
  unfold ofCode at h ⊢
  split at h
  all_goals first | rfl | cases h

/-! ## Agreement -/

/-- Both decoders reject the value, or both give one action; and an action with a side effect comes
from its name or from its own code. -/
structure DecodersAgree (value : Value) : Prop where
  same : (∃ action, submissionAction value = .ok action ∧
      deserializeJudgeAction value = .ok (some action)) ∨
    ∃ e e', submissionAction value = .error e ∧ deserializeJudgeAction value = .error e'
  ownCode : ∀ action, action.sideEffect = true →
    (submissionAction value = .ok action ∨ deserializeJudgeAction value = .ok (some action)) →
    (∃ s, value = .string s) ∨ value = .int action.code

/-- A number that the host narrows to another one. -/
def Narrowed (value : Value) : Prop :=
  ∃ n, value = .int n ∧ -9223372036854775808 ≤ n ∧ n ≤ 9223372036854775807 ∧
    ¬ (-32768 ≤ n ∧ n ≤ 32767)

lemma decodersAgree_of_error {value : Value} {e : HostError} {e' : String}
    (h : submissionAction value = .error e) (h' : deserializeJudgeAction value = .error e') :
    DecodersAgree value where
  same := .inr ⟨e, e', h, h'⟩
  ownCode := by
    rintro action - (hok | hok)
    · rw [h] at hok
      cases hok
    · rw [h'] at hok
      cases hok

lemma decodersAgree_int {n : ℤ} (h : ¬ Narrowed (.int n)) : DecodersAgree (.int n) := by
  by_cases hfits : -32768 ≤ n ∧ n ≤ 32767
  · have hsub : submissionAction (.int n) = .ok (.ofCode n) := by
      rw [submissionAction_int, if_pos (by omega), asI16_of_fits hfits.1 hfits.2]
    have hjudge : deserializeJudgeAction (.int n) = .ok (some (.ofCode n)) := by
      rw [deserializeJudgeAction_int, if_pos hfits]
    refine ⟨.inl ⟨_, hsub, hjudge⟩, ?_⟩
    rintro action heffect hok
    have haction : RbJudgeAction.ofCode n = action := by
      rcases hok with hok | hok
      · rw [hsub] at hok
        cases hok
        rfl
      · rw [hjudge] at hok
        cases hok
        rfl
    subst haction
    rw [RbJudgeAction.code_of_ofCode heffect]
    exact .inr rfl
  · have hout : ¬ (-9223372036854775808 ≤ n ∧ n ≤ 9223372036854775807) := by
      rintro ⟨hlo, hhi⟩
      exact h ⟨n, rfl, hlo, hhi, hfits⟩
    have hsub : submissionAction (.int n) =
        .error (.invalid "submission action must be a string") := by
      rw [submissionAction_int, if_neg hout]
    have hjudge : deserializeJudgeAction (.int n) =
        .error "data did not match any variant of untagged enum RawAction" := by
      rw [deserializeJudgeAction_int, if_neg hfits]
    exact decodersAgree_of_error hsub hjudge

/-- **The two decoders agree** on an action that is not null exactly where the host does not narrow
it. -/
theorem decodersAgree_iff {value : Value} (h : value.isNull = false) :
    DecodersAgree value ↔ ¬ Narrowed value := by
  constructor
  · rintro hagree ⟨n, rfl, hlo, hhi, hfits⟩
    have hsub := submissionAction_int n
    rw [if_pos ⟨hlo, hhi⟩] at hsub
    have hjudge := deserializeJudgeAction_int n
    rw [if_neg hfits] at hjudge
    rcases hagree.same with ⟨action, _, hok⟩ | ⟨e, _, herror, _⟩
    · rw [hjudge] at hok
      cases hok
    · rw [hsub] at herror
      cases herror
  · intro hnarrowed
    cases value with
    | null => cases h
    | int n => exact decodersAgree_int hnarrowed
    | string s => exact ⟨.inl ⟨_, rfl, rfl⟩, fun _ _ _ => .inl ⟨s, rfl⟩⟩
    | bool b => exact decodersAgree_of_error rfl rfl
    | float text => exact decodersAgree_of_error rfl rfl
    | array items => exact decodersAgree_of_error rfl rfl
    | object fields => exact decodersAgree_of_error rfl rfl

theorem decodersAgree_iff_finishGame : DecodersAgree (.int 5) := by
  refine (decodersAgree_iff rfl).2 ?_
  rintro ⟨n, heq, _, _, hfits⟩
  cases heq
  exact hfits (by decide)

/-- A number that is the code of no action is one that the host takes for a correct answer. -/
theorem not_decodersAgree : submissionAction (.int 65537) = .ok .correct ∧
    ¬ DecodersAgree (.int 65537) := by
  have hok : submissionAction (.int 65537) = .ok .correct := rfl
  refine ⟨hok, ?_⟩
  intro h
  rcases h.ownCode .correct rfl (.inl hok) with ⟨s, heq⟩ | heq
  · cases heq
  · cases heq

end Play
