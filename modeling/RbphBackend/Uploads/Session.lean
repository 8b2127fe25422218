import Mathlib.Data.Int.Notation
import Mathlib.Order.Lattice
import RbphBackend.Concurrency.System

set_option relaxedAutoImplicit false
set_option autoImplicit false

/-!
# Upload sessions

The files of an asset group are uploaded in a session. The requests of its owner and the worker take
the session's advisory lock, read its row, and write the whole copy back. The worker registers the
group of a confirmed session in a transaction of its own, which also sets the row's state. When the
call of `COMMIT` reports an error, the transaction may still be undecided: it holds the row's lock
until it has been committed or rolled back.

## Main definitions

* `Uploads.Session` — the row, the holder of the advisory lock, the last registration.
* `Uploads.UploadEvent`, `Uploads.step` — what may happen to them.
* `Uploads.InTime` — no registration is committed behind the back of a holder that has read the row.
* `Uploads.Session.Kept` — a registered session stays complete, and keeps its objects.

## Main results

* `Uploads.kept_of_leads` — it does, in every run in which commits arrive in time.
* `Uploads.late_commit_overwritten` — a run in which a commit arrives late.
-/

namespace Uploads

open Concurrency

/-! ## Sessions -/

inductive UploadState where
  | uploading
  | confirming
  | failed
  | complete
  | cancelled
  | cleaned
  deriving DecidableEq

/-- The columns of a row that the requests change, and their copy of it: `files` says which files
are complete; `expires` is in seconds. -/
structure Upload where
  state : UploadState
  expires : ℤ
  files : List Bool
  deriving DecidableEq

/-- `writable`. -/
def Upload.writable (now : ℤ) (u : Upload) : Prop := u.state = .uploading ∧ now < u.expires

instance (now : ℤ) (u : Upload) : Decidable (u.writable now) := inferInstanceAs (Decidable (_ ∧ _))

/-- Who takes the lock: a request, or the worker. -/
inductive Task where
  | complete
  | cancel
  | completeFile (file : ℕ)
  | tick
  deriving DecidableEq

/-- How far the holder of the lock has come. -/
inductive Phase where
  | locked (task : Task)
  | transferring (file : ℕ)
  | touching
  | saving
  | registering
  | committing
  | ambiguous
  | cleaning
  deriving DecidableEq

/-- The row has been read and its state is going to be written, or its objects deleted. -/
def Phase.Writing : Phase → Prop
  | .transferring _ | .touching | .saving | .cleaning => True
  | _ => False

instance : DecidablePred Phase.Writing
  | .transferring _ | .touching | .saving | .cleaning => .isTrue trivial
  | .locked _ | .registering | .committing | .ambiguous => .isFalse id

/-- The holder of the advisory lock, with its copy of the row once it has read it. -/
structure Holder where
  upload : Upload
  phase : Phase
  deriving DecidableEq

/-- What has become of a registration whose commit has been sent. -/
inductive Outcome where
  | undecided
  | committed
  | rolledBack
  deriving DecidableEq

/-- A session. `registered` says that a registration has committed, `harmed` that objects have been
deleted since. -/
structure Session where
  createdAt : ℤ
  row : Upload
  holder : Option Holder
  commit : Option Outcome
  registered : Bool
  harmed : Bool
  deriving DecidableEq

/-- A new session for some files. -/
def Session.created (now : ℤ) (files : ℕ) : Session where
  createdAt := now
  row := ⟨.uploading, now + 86400, List.replicate files false⟩
  holder := none
  commit := none
  registered := false
  harmed := false

/-! ## The tasks -/

/-- `complete`, up to its first write. -/
def complete (now : ℤ) (u : Upload) : Option Holder :=
  if u.state = .complete ∨ u.state = .confirming then none
  else
    let u := if u.state = .failed ∧ now < u.expires then { u with state := .uploading } else u
    if ¬ u.writable now ∨ u.files.any (!·) then none
    else some ⟨{ u with state := .confirming }, .touching⟩

/-- `cancel`, up to its write. -/
def cancel (u : Upload) : Option Holder :=
  if u.state = .complete ∨ u.state = .cleaned then none
  else some ⟨{ u with state := .cancelled }, .saving⟩

/-- `complete_file`, up to the transfer. -/
def completeFile (file : ℕ) (now : ℤ) (u : Upload) : Option Holder :=
  match u.files[file]? with
  | some false => if u.writable now then some ⟨u, .transferring file⟩ else none
  | _ => none

/-- `tick`, up to what it does with the session: it looks at the state again under the lock. -/
def tick (now : ℤ) (u : Upload) : Option Holder :=
  if u.state = .confirming then some ⟨u, .registering⟩
  else if u.state = .cancelled ∨ (u.state = .uploading ∨ u.state = .failed) ∧ u.expires ≤ now then
    some ⟨u, .cleaning⟩
  else none

/-- What a task does with the row that it has read; `now` is the clock of its process. -/
def Task.begin (now : ℤ) (u : Upload) : Task → Option Holder
  | .complete => Uploads.complete now u
  | .cancel => Uploads.cancel u
  | .completeFile file => Uploads.completeFile file now u
  | .tick => Uploads.tick now u

/-! ## The events -/

/-- What may happen. The holder takes the lock and reads the row; `record` saves what a transfer is
about to do; `send`, `refuse`, `acknowledge` and `lose` are a registration's commit and the errors
before it and of it; `reread` follows an error. `arrive` and `rollback` decide a registration.
`release` is any other error, after which the connection is closed. -/
inductive UploadEvent where
  | acquire (task : Task)
  | read (now : ℤ)
  | record
  | transferred
  | touch (now : ℤ)
  | save
  | send
  | refuse
  | acknowledge
  | lose
  | reread
  | arrive
  | rollback
  | delete
  | release
  deriving DecidableEq

namespace Session

variable (s : Session)

/-- Writes wait for the registration that holds the row's lock. -/
def Free : Prop := s.commit ≠ some .undecided

instance : Decidable s.Free := inferInstanceAs (Decidable (_ ≠ _))

/-- The holder goes on with its copy. -/
def goOn (u : Upload) (phase : Phase) : Session := { s with holder := some ⟨u, phase⟩ }

/-- The holder closes its connection. -/
def leave : Session := { s with holder := none }

/-- `touch`. -/
def touch (now : ℤ) : Session :=
  { s with row := { s.row with expires := min (s.createdAt + 604800) (now + 86400) } }

/-- `save`, whatever the row holds. -/
def save (u : Upload) : Session :=
  { s with row := { s.row with state := u.state, files := u.files } }

/-- The transaction of `register` is committed. -/
def arrive : Session :=
  { s with commit := some .committed, row := { s.row with state := .complete }, registered := true }

end Session

/-- What an event leaves. -/
def step : System Session UploadEvent := fun s e =>
  match e, s.holder with
  | .acquire task, none => some (s.goOn s.row (.locked task))
  | .read now, some ⟨_, .locked task⟩ => some { s with holder := task.begin now s.row }
  | .record, some ⟨u, .transferring _⟩ => if s.Free then some (s.save u) else none
  | .transferred, some ⟨u, .transferring file⟩ =>
    some (s.goOn { u with files := u.files.set file true } .touching)
  | .touch now, some ⟨u, .touching⟩ =>
    if s.Free then some ((s.touch now).goOn u .saving) else none
  | .save, some ⟨u, .saving⟩ => if s.Free then some (s.save u).leave else none
  | .send, some ⟨u, .registering⟩ =>
    if s.Free then some { s.goOn u .committing with commit := some .undecided } else none
  | .refuse, some ⟨u, .registering⟩ => some (s.goOn u .ambiguous)
  | .acknowledge, some ⟨_, .committing⟩ =>
    if s.commit = some .committed then some s.leave else none
  | .lose, some ⟨u, .committing⟩ => some (s.goOn u .ambiguous)
  | .reread, some ⟨u, .ambiguous⟩ =>
    -- Re-read after an ambiguous commit before changing state.
    if s.row.state = .complete then some s.leave
    else some (s.goOn { u with state := .failed } .saving)
  | .arrive, _ => if s.commit = some .undecided then some s.arrive else none
  | .rollback, _ =>
    if s.commit = some .undecided then some { s with commit := some .rolledBack } else none
  | .delete, some ⟨u, .cleaning⟩ =>
    some { s.goOn { u with state := .cleaned } .saving with harmed := s.harmed || s.registered }
  | .release, some _ => some s.leave
  | _, _ => none

/-- The commit of a registration comes before the holder of the lock has read the row, or after it
has written it. -/
def InTime (s : Session) (e : UploadEvent) : Prop :=
  e = .arrive → ∀ h ∈ s.holder, ¬ h.phase.Writing

instance (s : Session) (e : UploadEvent) : Decidable (InTime s e) :=
  inferInstanceAs (Decidable (e = .arrive → ∀ h ∈ s.holder, ¬ h.phase.Writing))

/-- A session whose group has been registered is complete, and its objects have been left alone. -/
def Session.Kept (s : Session) : Prop :=
  (s.registered = true → s.row.state = .complete) ∧ s.harmed = false

instance (s : Session) : Decidable s.Kept := inferInstanceAs (Decidable (_ ∧ _))

/-! ## What a task begins -/

section Begin

variable {now : ℤ} {u : Upload} {task : Task} {h : Holder}

/-- A task that goes on has not read `Complete`. -/
lemma not_complete_of_begin (hb : task.begin now u = some h) : u.state ≠ .complete := by
  intro hu
  cases task with
  | complete =>
    rw [Task.begin, complete, if_pos (.inl hu)] at hb
    cases hb
  | cancel =>
    rw [Task.begin, cancel, if_pos (.inl hu)] at hb
    cases hb
  | completeFile file =>
    rw [Task.begin, completeFile] at hb
    split at hb
    · split at hb
      · rename_i hwr
        rw [Upload.writable, hu] at hwr
        cases hwr.1
      · cases hb
    · cases hb
  | tick =>
    rw [Task.begin, tick, hu, if_neg nofun, if_neg] at hb
    · cases hb
    · rintro (hc | ⟨hc | hc, -⟩) <;> cases hc

end Begin

/-! ## The invariant -/

/-- **The invariant**: the session is kept, and a holder that is going to write or to delete has
nothing registered to overwrite. -/
structure Inv (s : Session) : Prop where
  kept : s.Kept
  writing : ∀ h ∈ s.holder, h.phase.Writing → s.registered = false

namespace Inv

variable {s s' : Session}

theorem created (now : ℤ) (files : ℕ) : Inv (Session.created now files) where
  kept := ⟨nofun, rfl⟩
  writing := by intro h hh; cases hh

theorem leave (h : Inv s) : Inv s.leave where
  kept := h.kept
  writing := by intro h hh; cases hh

/-- The holder goes on to a phase in which it does not write, or it has been writing. -/
theorem goOn (h : Inv s) {u : Upload} {phase : Phase}
    (hphase : phase.Writing → s.registered = false) : Inv (s.goOn u phase) where
  kept := h.kept
  writing := by
    intro h' hh
    obtain rfl := Option.some.inj hh
    exact hphase

theorem save (h : Inv s) (u : Upload) (hreg : s.registered = false) : Inv (s.save u) where
  kept := by
    refine ⟨fun hr => ?_, h.kept.2⟩
    rw [show s.registered = true from hr] at hreg
    cases hreg
  writing := h.writing

theorem touch (h : Inv s) (now : ℤ) : Inv (s.touch now) where
  kept := h.kept
  writing := h.writing

theorem arrive (h : Inv s) (hin : InTime s .arrive) : Inv s.arrive where
  kept := ⟨fun _ => rfl, h.kept.2⟩
  writing := by
    intro h' hh hw
    exact absurd hw (hin rfl h' hh)

/-- Nothing else depends on the outcome of a registration. -/
theorem outcome (h : Inv s) (commit : Option Outcome) : Inv { s with commit := commit } where
  kept := h.kept
  writing := h.writing

theorem begin (h : Inv s) (task : Task) (now : ℤ) :
    Inv { s with holder := task.begin now s.row } where
  kept := h.kept
  writing := by
    intro h' hh _
    exact Bool.eq_false_of_not_eq_true fun hr => not_complete_of_begin hh (h.kept.1 hr)

theorem delete (h : Inv s) (hreg : s.registered = false) :
    Inv { s with harmed := s.harmed || s.registered } where
  kept := by
    refine ⟨h.kept.1, ?_⟩
    show (s.harmed || s.registered) = false
    rw [h.kept.2, hreg]
    rfl
  writing := h.writing

/-- **One step**, as long as commits arrive in time. -/
theorem next {e : UploadEvent} (h : Inv s) (hin : InTime s e) (hs : step s e = some s') :
    Inv s' := by
  have hwriting : ∀ u phase, s.holder = some ⟨u, phase⟩ → phase.Writing → s.registered = false :=
    fun u phase hh => h.writing ⟨u, phase⟩ hh
  rw [step.eq_def] at hs
  split at hs
  · obtain rfl := Option.some.inj hs
    exact h.goOn False.elim
  · obtain rfl := Option.some.inj hs
    exact h.begin _ _
  · rename_i hh
    split_ifs at hs
    obtain rfl := Option.some.inj hs
    exact h.save _ (hwriting _ _ hh trivial)
  · rename_i hh
    obtain rfl := Option.some.inj hs
    exact h.goOn fun _ => hwriting _ _ hh trivial
  · rename_i hh
    split_ifs at hs
    obtain rfl := Option.some.inj hs
    exact (h.touch _).goOn fun _ => hwriting _ _ hh trivial
  · rename_i hh
    split_ifs at hs
    obtain rfl := Option.some.inj hs
    exact (h.save _ (hwriting _ _ hh trivial)).leave
  · split_ifs at hs
    obtain rfl := Option.some.inj hs
    exact (h.goOn False.elim).outcome _
  · obtain rfl := Option.some.inj hs
    exact h.goOn False.elim
  · split_ifs at hs
    obtain rfl := Option.some.inj hs
    exact h.leave
  · obtain rfl := Option.some.inj hs
    exact h.goOn False.elim
  · split_ifs at hs with hstate
    · obtain rfl := Option.some.inj hs
      exact h.leave
    · obtain rfl := Option.some.inj hs
      exact h.goOn fun _ => Bool.eq_false_of_not_eq_true fun hr => hstate (h.kept.1 hr)
  · split_ifs at hs
    obtain rfl := Option.some.inj hs
    exact h.arrive hin
  · split_ifs at hs
    obtain rfl := Option.some.inj hs
    exact h.outcome _
  · rename_i hh
    obtain rfl := Option.some.inj hs
    have hreg := hwriting _ _ hh trivial
    exact (h.delete hreg).goOn fun _ => hreg
  · obtain rfl := Option.some.inj hs
    exact h.leave
  · cases hs

end Inv

/-- **A registered session stays complete and keeps its objects**, in every run in which no
registration is committed between the read and the write of a holder of the lock. -/
theorem kept_of_leads {now : ℤ} {files : ℕ} {s : Session}
    (h : step.Leads InTime (.created now files) s) : s.Kept := by
  have hs : Inv s :=
    System.invariant (Inv.created now files) (fun _ _ _ hinv hin hs => hinv.next hin hs) h
  exact hs.kept

/-- The requests and the worker up to the commit of the registration. -/
def confirmed : List UploadEvent :=
  [.acquire (.completeFile 0), .read 10, .record, .transferred, .touch 20, .save,
    .acquire .complete, .read 30, .touch 30, .save, .acquire .tick, .read 40, .send]

/-- A commit whose call reports an error arrives before the state is read again. -/
theorem kept_of_leads_confirmed : ∃ s, step.Leads InTime (.created 0 1) s ∧
    s.registered = true ∧ s.holder = none ∧ s.Kept := by
  obtain ⟨s, hs, hp⟩ := System.exists_leads step InTime (.created 0 1)
    (fun s => s.registered = true ∧ s.holder = none)
    (confirmed ++ [.lose, .arrive, .reread]) (by decide +kernel)
  obtain ⟨hreg, hholder⟩ := of_decide_eq_true hp
  exact ⟨s, hs, hreg, hholder, kept_of_leads hs⟩

/-- **A late commit is overwritten**: the worker has read the row again when the commit arrives, and
its write, which has been waiting for the row's lock, sets the state to `Failed`. Once the session
has expired, the worker deletes the objects of the group. -/
theorem late_commit_overwritten : ∃ s, step.Leads System.Any (.created 0 1) s ∧
    s.registered = true ∧ s.row.state = .cleaned ∧ s.harmed = true ∧ ¬ s.Kept := by
  obtain ⟨s, hs, hp⟩ := System.exists_leads step System.Any (.created 0 1)
    (fun s => s.registered = true ∧ s.row.state = .cleaned ∧ s.harmed = true)
    (confirmed ++ [.lose, .reread, .arrive, .save, .acquire .tick, .read 90000, .delete, .save])
    (by decide +kernel)
  obtain ⟨hreg, hstate, hharmed⟩ := of_decide_eq_true hp
  refine ⟨s, hs, hreg, hstate, hharmed, fun hk => ?_⟩
  rw [hk.2] at hharmed
  cases hharmed

end Uploads
