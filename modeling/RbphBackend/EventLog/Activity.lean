import Mathlib.Algebra.BigOperators.Group.List.Basic
import Mathlib.Algebra.Ring.Int.Defs
import RbphBackend.EventLog.Table
import RbphBackend.Paging.Feed
import RbphBackend.Threads.Items

set_option relaxedAutoImplicit false
set_option autoImplicit false

/-!
# The activity of a team

A team reads what it has done and what was done to it page by page, the latest first: all events but
penalties, or those of one currency. The events of a puzzle are not shown before its release. Where
the game has a staff identity, players see it in place of the staff, in the events whose data say
`staff`.

## Main definitions

* `EventLog.listTeamActivity`, `EventLog.getSelfActivity` — a page.
* `EventLog.Reads` — the pages that a team gets, while others write.
* `EventLog.Db.withUsers` — the same events, done by others.

## Main results

* `EventLog.reads_activity` — what a team has read in the end.
* `EventLog.getSelfActivity_withUsers_iff` — when players can tell who has done it.
-/

namespace EventLog

open Games Numeric Threads

/-! ## Data -/

/-- `||` of two objects. -/
def concat (fields : Fields) (others : Fields) : Fields :=
  others.foldl (fun fields p => insertKey p.1 p.2 fields) fields

/-- `jsonb_set` of the submission, where there is one, without `ignored`. -/
def withoutIgnored (data : Fields) : Fields :=
  match data.lookup "submission" with
  | some (.object submission) =>
    insertKey "submission" (.object (removeKey "ignored" submission)) data
  | _ => data

/-- `jsonb_build_object` of a user, where there is one. -/
def userField (key : String) (user : Option (Id × String)) : Fields :=
  match user with
  | some (id, nickname) => [(key, .object [("id", .int id), ("nickname", .string nickname)])]
  | none => []

/-- The data say that it was done as staff. -/
def EventLogData.isStaff (e : EventLogData) : Bool :=
  match e.data.lookup "staff" with
  | some (.bool staff) => staff
  | _ => false

/-- `EventLogData::anonymize_staff`. -/
def EventLogData.anonymizeStaff (identity : RbGameStaffIdentity) (e : EventLogData) :
    EventLogData :=
  if e.isStaff = false then e
  else
    match e.userId with
    | some _ =>
      { e with
        userId := some staffAliasUserId
        data := insertKey "user" (.object [("id", .int staffAliasUserId),
          ("nickname", .string identity.nickname)]) e.data }
    | none => e

/-! ## Pages -/

section Pages

variable (db : Db) (now : ℤ) (team : Id) (currency : Option Id)

/-- `i64::clamp` of the number of events to 1 and 100. -/
def clampLimit (limit : ℤ) : ℕ := (max 1 (min limit 100)).toNat

/-- The puzzle of an event, if there is one. -/
def Db.puzzleOf (r : EventLogData) : Option (Option ℤ) := r.puzzleId.bind db.puzzle

/-- There is no puzzle, or it is released. -/
def Db.released (r : EventLogData) : Bool :=
  (db.puzzleOf r).all fun releaseAt => releaseAt.any fun releaseAt => decide (releaseAt ≤ now)

/-- The condition of `list_team_activity`, but for the page. -/
def Db.selects (r : EventLogData) : Bool :=
  decide (r.teamId = some team ∧ r.scope = 1) &&
    (match currency with
    | none => decide (r.eventType ≠ "currency.penalty")
    | some currency => decide (r.currencyId = some currency)) &&
    db.released now r

/-- The user, with the nickname. -/
def Db.userOf (user : Option Id) : Option (Id × String) :=
  user.bind fun id => (db.nickname id).map fun nickname => (id, nickname)

/-- What `list_team_activity` shows of an event. -/
def Db.shown (r : EventLogData) : EventLogData :=
  { r with
    data := concat (concat (withoutIgnored (removeKey "target_user" (removeKey "user" r.data)))
      (userField "user" (db.userOf r.userId))) (userField "target_user" (db.userOf r.targetUserId))
    ctimeAt := (db.puzzleOf r).elim r.ctimeAt fun releaseAt =>
      releaseAt.elim r.ctimeAt fun releaseAt => max r.ctimeAt releaseAt }

/-- The events that `list_team_activity` takes its page of. -/
def Db.activity : List EventLogData := db.rows.filter (db.selects now team currency)

/-- `list_team_activity`. -/
def listTeamActivity (before : Option ℕ) (limit : ℤ) : List EventLogData :=
  (Paging.Feed.page EventLogData.id (clampLimit limit) (db.activity now team currency) before).map
    db.shown

/-- What a member of the team sees of a listed event: players see the staff identity of the game. -/
def EventLogData.seen (identity : Option RbGameStaffIdentity) (isModerator : Bool)
    (e : EventLogData) : EventLogData :=
  if isModerator then e else identity.elim e fun identity => e.anonymizeStaff identity

/-- `get_self_activity`. -/
def getSelfActivity (identity : Option RbGameStaffIdentity) (isModerator : Bool)
    (before : Option ℕ) (limit : Option ℤ) : List EventLogData :=
  (listTeamActivity db now team currency before (limit.getD 30)).map (.seen identity isModerator)

/-- The delta of an event, where it has one. -/
def EventLogData.delta (e : EventLogData) : ℤ := e.deltaAmount.elim 0 BigInt.val

/-- `logged_delta` of `get_currency_activity_summary`, before it is cast. -/
def loggedDelta (db : Db) (team currency : Id) : ℤ :=
  ((db.rows.filter fun r => decide (r.teamId = some team ∧ r.currencyId = some currency)).map
    EventLogData.delta).sum

/-- The events of the currency that `get_currency_activity_summary` counts and a page never
shows. -/
def Db.withheld (now : ℤ) (team currency : Id) : List EventLogData :=
  db.rows.filter fun r => !(decide (r.scope = 1) && db.released now r) &&
    decide (r.teamId = some team ∧ r.currencyId = some currency)

end Pages

/-- The pages that a team gets, each with the rows and the instant that it is taken at: it asks for
the next page with the id of the last event, until a page is not full; between the pages anything is
written. -/
inductive Reads (identity : Option RbGameStaffIdentity) (isModerator : Bool) (team : Id)
    (currency : Option Id) (limit : Option ℤ) : Db → ℤ → Option ℕ → List Write → List (Db × ℤ) →
    List (List EventLogData) → Prop
  | last {db : Db} {now : ℤ} {before : Option ℕ} :
      (getSelfActivity db now team currency identity isModerator before limit).length <
        clampLimit (limit.getD 30) →
      Reads identity isModerator team currency limit db now before [] [(db, now)]
        [getSelfActivity db now team currency identity isModerator before limit]
  | more {db : Db} {now later : ℤ} {before : Option ℕ} {e : EventLogData}
      {writes others : List Write} {found : List (Db × ℤ)} {pages : List (List EventLogData)} :
      (getSelfActivity db now team currency identity isModerator before limit).length =
        clampLimit (limit.getD 30) →
      (getSelfActivity db now team currency identity isModerator before limit).getLast? = some e →
      now ≤ later →
      Reads identity isModerator team currency limit (db.run writes) later (some e.id) others found
        pages →
      Reads identity isModerator team currency limit db now before (writes ++ others)
        ((db, now) :: found)
        (getSelfActivity db now team currency identity isModerator before limit :: pages)

/-! ## What stays shown -/

/-- After the write, an event of the activity may be shown no more. -/
def Write.Hides (now : ℤ) (team : Id) (currency : Option Id) (r : EventLogData) : Write → Prop
  | .deleteGame game => r.gameId = some game
  | .delete .team id => id = team
  | .delete .currency id => currency = some id
  | .release puzzle releaseAt => r.puzzleId = some puzzle ∧ ∀ at₀ ∈ releaseAt, now < at₀
  | _ => False

section Shown

variable {db : Db} {now later : ℤ} {team : Id} {currency : Option Id} {r : EventLogData} {w : Write}
  {writes : List Write}

lemma Db.selects_iff : db.selects now team currency r = true ↔
    (r.teamId = some team ∧ r.scope = 1) ∧
    (currency = none ∧ r.eventType ≠ "currency.penalty" ∨
      ∃ c, currency = some c ∧ r.currencyId = some c) ∧
    db.released now r = true := by
  cases currency <;> simp [Db.selects, and_assoc]

lemma Db.released_iff : db.released now r = true ↔
    ∀ p releaseAt, r.puzzleId = some p → db.puzzle p = some releaseAt →
      ∃ at₀, releaseAt = some at₀ ∧ at₀ ≤ now := by
  simp only [Db.released, Db.puzzleOf, Option.all_eq_true, Option.any_eq_true,
    Option.bind_eq_some_iff, decide_eq_true_eq]
  exact ⟨fun h p releaseAt hp hr => h releaseAt ⟨p, hp, hr⟩,
    fun h releaseAt ⟨p, hp, hr⟩ => h p releaseAt hp hr⟩

lemma Db.released_mono (h : db.released now r = true) (hle : now ≤ later) :
    db.released later r = true := by
  refine Db.released_iff.2 fun p releaseAt hp hr => ?_
  obtain ⟨at₀, heq, hat⟩ := Db.released_iff.1 h p releaseAt hp hr
  exact ⟨at₀, heq, hat.trans hle⟩

lemma Db.released_write (h : db.released now r = true) (hw : ¬ w.Hides now team currency r) :
    (db.write w).released now (r.after w) = true := by
  rw [Db.released_iff] at h ⊢
  intro p releaseAt hp hr
  cases w with
  | insert e =>
    refine h p releaseAt hp ?_
    simp only [Db.write, Db.insert] at hr
    split_ifs at hr <;> exact hr
  | deleteGame _ | user _ _ => exact h p releaseAt hp hr
  | delete ref id =>
    cases ref with
    | puzzle =>
      obtain ⟨hp, hne⟩ := unset_eq_some_iff.1 hp
      simp only [Db.write, Db.delete, if_true, Function.update_of_ne hne] at hr
      exact h p releaseAt hp hr
    | _ => exact h p releaseAt hp hr
  | release puzzle releaseAt' =>
    rcases eq_or_ne p puzzle with rfl | hne
    · simp only [Db.write, Db.setRelease, Function.update_self, Option.some.injEq] at hr
      subst hr
      by_contra hnone
      exact hw ⟨hp, fun at₀ hat => not_le.1 fun hle => hnone ⟨at₀, hat, hle⟩⟩
    · simp only [Db.write, Db.setRelease, Function.update_of_ne hne] at hr
      exact h p releaseAt hp hr

lemma Db.selects_write (h : db.selects now team currency r = true)
    (hw : ¬ w.Hides now team currency r) :
    (db.write w).selects now team currency (r.after w) = true := by
  rw [Db.selects_iff] at h ⊢
  obtain ⟨⟨hteam, hscope⟩, htype, hreleased⟩ := h
  refine ⟨?_, ?_, Db.released_write hreleased hw⟩
  · cases w with
    | delete ref id =>
      cases ref with
      | team => exact ⟨unset_eq_some_iff.2 ⟨hteam, fun he => hw he.symm⟩, hscope⟩
      | _ => exact ⟨hteam, hscope⟩
    | _ => exact ⟨hteam, hscope⟩
  · cases w with
    | delete ref id =>
      cases ref with
      | currency =>
        refine htype.imp_right fun ⟨c, hc, hcurrency⟩ =>
          ⟨c, hc, unset_eq_some_iff.2 ⟨hcurrency, fun he => hw ?_⟩⟩
        rw [hc, he]
        rfl
      | _ => exact htype
    | _ => exact htype

/-- What hides an event after a write, or later, hides it before. -/
lemma Write.Hides.of_after {w' : Write} (h : w'.Hides later team currency (r.after w))
    (hle : now ≤ later) : w'.Hides now team currency r := by
  cases w' with
  | deleteGame game => exact after_gameId.symm.trans h
  | delete ref id => cases ref <;> exact h
  | release puzzle releaseAt =>
    refine ⟨?_, fun at₀ hat => hle.trans_lt (h.2 at₀ hat)⟩
    have hp := h.1
    cases w with
    | delete ref id =>
      cases ref with
      | puzzle => exact (unset_eq_some_iff.1 hp).1
      | _ => exact hp
    | _ => exact hp
  | insert _ | user _ _ => exact h

/-- What stays of an event of the activity, by induction on the writes. -/
lemma exists_selected_of_run (hr : r ∈ db.rows) (h : db.selects now team currency r = true)
    (hw : ∀ w ∈ writes, ¬ w.Hides now team currency r) :
    ∃ r' ∈ (db.run writes).rows, (db.run writes).selects now team currency r' = true ∧
      r'.id = r.id ∧ ∀ later (w : Write), now ≤ later → w.Hides later team currency r' →
        w.Hides now team currency r := by
  induction writes generalizing db r with
  | nil => exact ⟨r, hr, h, rfl, fun later w hle hw' => .of_after (w := .deleteGame 0) hw' hle⟩
  | cons w writes ih =>
    rw [List.forall_mem_cons] at hw
    have hmem : r.after w ∈ (db.write w).rows :=
      Db.mem_write hr fun g hg hgame => hw.1 (by rw [hg]; exact hgame)
    obtain ⟨r', hr', h', hid, hhides⟩ := ih hmem (Db.selects_write h hw.1)
      fun w' hw' hhide => hw.2 w' hw' (hhide.of_after le_rfl)
    exact ⟨r', hr', h', hid.trans after_id, fun later w' hle hw' =>
      (hhides later w' hle hw').of_after le_rfl⟩

end Shown

/-! ## Reading -/

section Reading

variable {identity : Option RbGameStaffIdentity} {isModerator : Bool} {team : Id}
  {currency : Option Id} {limit : Option ℤ} {db : Db} {now : ℤ} {before : Option ℕ}
  {writes : List Write} {found : List (Db × ℤ)} {pages : List (List EventLogData)}

lemma anonymizeStaff_id (i : RbGameStaffIdentity) (e : EventLogData) :
    (e.anonymizeStaff i).id = e.id ∧ (e.anonymizeStaff i).deltaAmount = e.deltaAmount := by
  unfold EventLogData.anonymizeStaff
  split_ifs
  · exact ⟨rfl, rfl⟩
  · cases e.userId <;> exact ⟨rfl, rfl⟩

lemma seen_shown (db : Db) (r : EventLogData) :
    ((db.shown r).seen identity isModerator).id = r.id ∧
      ((db.shown r).seen identity isModerator).deltaAmount = r.deltaAmount := by
  unfold EventLogData.seen
  split_ifs
  · exact ⟨rfl, rfl⟩
  · cases identity with
    | none => exact ⟨rfl, rfl⟩
    | some i => exact anonymizeStaff_id i _

/-- What is read of an event whatever the reader may see. -/
def EventLogData.number (e : EventLogData) : Id × Option BigInt := (e.id, e.deltaAmount)

/-- The pages are those of a feed. -/
lemma Reads.exists_walk
    (h : Reads identity isModerator team currency limit db now before writes found pages) :
    ∃ rows, Paging.Feed.Walk EventLogData.id (clampLimit (limit.getD 30)) before
        (found.map fun x => x.1.activity x.2 team currency) rows ∧
      pages.flatten.map EventLogData.number = rows.flatten.map EventLogData.number := by
  have hpage : ∀ (db : Db) (rows : List EventLogData),
      ((rows.map db.shown).map (.seen identity isModerator)).map EventLogData.number =
        rows.map EventLogData.number := fun db rows => by
    rw [List.map_map, List.map_map]
    exact List.map_congr_left fun r _ => Prod.ext (seen_shown db r).1 (seen_shown db r).2
  induction h with
  | last hshort =>
    refine ⟨_, .last (by simpa [getSelfActivity, listTeamActivity] using hshort), ?_⟩
    rw [List.flatten_cons, List.flatten_nil, List.append_nil, List.flatten_cons, List.flatten_nil,
      List.append_nil]
    exact hpage _ _
  | @more db now _ before _ _ _ _ _ hfull hlast _ _ ih =>
    obtain ⟨rows, hwalk, heq⟩ := ih
    rw [getSelfActivity, listTeamActivity, List.getLast?_map, List.getLast?_map, Option.map_map,
      Option.map_eq_some_iff] at hlast
    obtain ⟨r, hr, rfl⟩ := hlast
    refine ⟨Paging.Feed.page EventLogData.id _ (db.activity now team currency) before :: rows,
      .more (by simpa [getSelfActivity, listTeamActivity] using hfull) hr ?_, ?_⟩
    · rwa [Function.comp_apply, (seen_shown _ r).1] at hwalk
    · rw [List.flatten_cons, List.flatten_cons, List.map_append, List.map_append, heq]
      exact congrArg (· ++ _) (hpage _ _)

/-- What is shown when a team begins to read is there all the time, unless a write hides it. -/
lemma Reads.mem_found
    (h : Reads identity isModerator team currency limit db now before writes found pages)
    {r : EventLogData} (hr : r ∈ db.rows) (hsel : db.selects now team currency r = true)
    (hw : ∀ w ∈ writes, ¬ w.Hides now team currency r) :
    ∀ x ∈ found, r.id ∈ (x.1.activity x.2 team currency).map EventLogData.id := by
  induction h generalizing r with
  | last _ =>
    intro x hx
    obtain rfl := List.mem_singleton.1 hx
    exact List.mem_map_of_mem (List.mem_filter.2 ⟨hr, hsel⟩)
  | @more db now later before e writes others found pages _ _ hle _ ih =>
    rw [List.forall_mem_append] at hw
    obtain ⟨r', hr', hsel', hid, hhides⟩ := exists_selected_of_run hr hsel hw.1
    intro x hx
    rcases List.mem_cons.1 hx with rfl | hx
    · exact List.mem_map_of_mem (List.mem_filter.2 ⟨hr, hsel⟩)
    · rw [← hid]
      refine ih hr' ?_ (fun w hw' hhide => hw.2 w hw' (hhides later w hle hhide)) x hx
      rw [Db.selects_iff] at hsel' ⊢
      exact ⟨hsel'.1, hsel'.2.1, Db.released_mono hsel'.2.2 hle⟩

/-- What is read has been shown at one of the pages. -/
lemma Reads.exists_shown
    (h : Reads identity isModerator team currency limit db now before writes found pages)
    {e : EventLogData} (he : e ∈ pages.flatten) :
    ∃ x ∈ found, ∃ r ∈ x.1.activity x.2 team currency,
      e = (x.1.shown r).seen identity isModerator := by
  have hpage : ∀ {db : Db} {now : ℤ} {before : Option ℕ},
      e ∈ getSelfActivity db now team currency identity isModerator before limit →
      ∃ r ∈ db.activity now team currency, e = (db.shown r).seen identity isModerator := by
    intro db now before he
    simp only [getSelfActivity, listTeamActivity, List.map_map, List.mem_map] at he
    obtain ⟨r, hr, rfl⟩ := he
    exact ⟨r, (Paging.Feed.mem_page hr).1, rfl⟩
  induction h with
  | last _ => exact ⟨_, List.mem_singleton_self _, hpage (by simpa using he)⟩
  | more _ _ _ _ ih =>
    rw [List.flatten_cons, List.mem_append] at he
    rcases he with he | he
    · exact ⟨_, List.mem_cons_self, hpage he⟩
    · obtain ⟨x, hx, hmem⟩ := ih he
      exact ⟨x, List.mem_cons_of_mem _ hx, hmem⟩

lemma activity_nodup (db : Db) (now : ℤ) :
    ((db.activity now team currency).map EventLogData.id).Nodup :=
  db.ids.sublist (List.filter_sublist.map _)

/-- What a team has read, as a set. -/
lemma reads_mem
    (h : Reads identity isModerator team currency limit db now none writes found pages) :
    pages.flatten.Pairwise (fun a b => b.id < a.id) ∧
    ∀ r ∈ db.rows, db.selects now team currency r = true →
      (∀ w ∈ writes, ¬ w.Hides now team currency r) → r.id ∈ pages.flatten.map EventLogData.id := by
  obtain ⟨rows, hwalk, hnumbers⟩ := h.exists_walk
  have hids : pages.flatten.map EventLogData.id = rows.flatten.map EventLogData.id := by
    have hfst := congrArg (List.map Prod.fst) hnumbers
    rwa [List.map_map, List.map_map] at hfst
  have hinj : ∀ l ∈ found.map fun x => x.1.activity x.2 team currency,
      (l.map EventLogData.id).Nodup := by
    intro l hl
    obtain ⟨x, -, rfl⟩ := List.mem_map.1 hl
    exact activity_nodup x.1 x.2
  refine ⟨?_, fun r hr hsel hw => ?_⟩
  · have hpairs : (rows.flatten.map EventLogData.id).Pairwise fun a b => b < a :=
      List.pairwise_map.2 (hwalk.pairwise_flatten hinj)
    rw [← hids] at hpairs
    exact List.pairwise_map.1 hpairs
  · rw [hids]
    refine hwalk.mem_flatten hinj (fun b hb => by cases hb) fun l hl => ?_
    obtain ⟨x, hx, rfl⟩ := List.mem_map.1 hl
    exact h.mem_found hr hsel hw x hx

/-- Where nothing changes, the deltas that are read are those of the activity. -/
lemma reads_deltas
    (h : Reads identity isModerator team currency limit db now none writes found pages)
    (hsame : ∀ x ∈ found, x = (db, now)) :
    (pages.flatten.map EventLogData.delta).sum =
      ((db.activity now team currency).map EventLogData.delta).sum := by
  obtain ⟨rows, hwalk, hnumbers⟩ := h.exists_walk
  have hperm : rows.flatten.Perm (db.activity now team currency) := by
    refine hwalk.perm_flatten (activity_nodup db now) fun l hl => ?_
    obtain ⟨x, hx, rfl⟩ := List.mem_map.1 hl
    rw [hsame x hx]
  have hdeltas := congrArg (List.map fun p => p.2.elim 0 BigInt.val) hnumbers
  rw [List.map_map, List.map_map] at hdeltas
  exact (congrArg List.sum hdeltas).trans (hperm.map EventLogData.delta).sum_eq

/-- The deltas that are logged are those of the activity and those that are withheld. -/
lemma loggedDelta_eq (db : Db) (now : ℤ) (team c : Id) : loggedDelta db team c =
    ((db.activity now team (some c)).map EventLogData.delta).sum +
      ((db.withheld now team c).map EventLogData.delta).sum := by
  have hperm := List.filter_append_perm
    (fun r : EventLogData => decide (r.scope = 1) && db.released now r)
    (db.rows.filter fun r => decide (r.teamId = some team ∧ r.currencyId = some c))
  rw [loggedDelta, ← (hperm.map EventLogData.delta).sum_eq, List.map_append, List.sum_append,
    List.filter_filter, List.filter_filter]
  congr 3
  refine List.filter_congr fun r _ => ?_
  rw [Bool.eq_iff_iff, Db.selects_iff]
  simp only [Bool.and_eq_true, decide_eq_true_eq, Option.some.injEq, exists_eq_left', reduceCtorEq,
    false_and, false_or]
  tauto

/-- **What a team has read in the end**, whatever is written meanwhile: the ids fall, so that no
event is read twice; every event that was shown at the start, and that no write hides, is read; what
is read was shown at one of the pages, so that nothing is read of a puzzle before its release; and
where nothing changes, the deltas of a currency add up to what the summary counts, but for what is
withheld. -/
theorem reads_activity
    (h : Reads identity isModerator team currency limit db now none writes found pages) :
    pages.flatten.Pairwise (fun a b => b.id < a.id) ∧
    (∀ r ∈ db.rows, db.selects now team currency r = true →
      (∀ w ∈ writes, ¬ w.Hides now team currency r) → r.id ∈ pages.flatten.map EventLogData.id) ∧
    (∀ e ∈ pages.flatten, ∃ x ∈ found, ∃ r ∈ x.1.rows, x.1.selects x.2 team currency r = true ∧
      e = (x.1.shown r).seen identity isModerator) ∧
    ∀ c, currency = some c → (∀ x ∈ found, x = (db, now)) →
      (pages.flatten.map EventLogData.delta).sum +
        ((db.withheld now team c).map EventLogData.delta).sum = loggedDelta db team c := by
  refine ⟨(reads_mem h).1, (reads_mem h).2, fun e he => ?_, ?_⟩
  · obtain ⟨x, hx, r, hr, heq⟩ := h.exists_shown he
    obtain ⟨hrow, hsel⟩ := List.mem_filter.1 hr
    exact ⟨x, hx, r, hrow, hsel, heq⟩
  · rintro c rfl hsame
    rw [reads_deltas h hsame, loggedDelta_eq db now]

/-- An event of the first team, by the first user, of a puzzle. -/
def puzzleEvent (id : Id) (puzzle : Id) : EventLogData where
  id := id
  eventType := "puzzle.unlocked"
  scope := 1
  severity := 0
  gameId := some 1
  teamId := some 1
  userId := some 1
  targetUserId := none
  puzzleId := some puzzle
  roundId := none
  hintId := none
  ticketId := none
  submissionId := none
  currencyId := none
  deltaAmount := none
  data := []
  ctimeAt := 10

/-- Three events, the second of a puzzle that is released later. -/
def threeEvents : Db where
  rows := [puzzleEvent 1 1, puzzleEvent 2 2, puzzleEvent 3 1]
  nickname := fun u => if u = 1 then some "solver" else if u = 2 then some "staff" else none
  puzzle := fun p => if p = 1 then some (some 0) else if p = 2 then some (some 100) else none
  ids := by decide
  refers := by
    intro r hr
    simp only [List.mem_cons, List.not_mem_nil, or_false] at hr
    rcases hr with rfl | rfl | rfl <;> decide

/-- The first and the third event are read, page by page, while a fourth one comes. -/
theorem reads_activity_threeEvents : ∃ writes found pages,
    Reads none false 1 none (some 1) threeEvents 50 none writes found pages ∧
    3 ∈ pages.flatten.map EventLogData.id ∧ 1 ∈ pages.flatten.map EventLogData.id := by
  have h : Reads none false 1 none (some 1) threeEvents 50 none
      ([.insert (puzzleEvent 4 1)] ++ ([] ++ [])) _ _ :=
    .more rfl rfl (le_refl 50) (.more rfl rfl (le_refl 50) (.last (by decide)))
  have hall := (reads_activity h).2.1
  have hwrites : ∀ r : EventLogData, ∀ w ∈ [Write.insert (puzzleEvent 4 1)] ++ ([] ++ []),
      ¬ w.Hides 50 1 none r := by
    intro r w hw
    obtain rfl := List.mem_singleton.1 hw
    exact id
  exact ⟨_, _, _, h, hall (puzzleEvent 3 1) (by simp [threeEvents]) rfl (hwrites _),
    hall (puzzleEvent 1 1) (by simp [threeEvents]) rfl (hwrites _)⟩

end Reading

/-! ## Staff -/

/-- The same event, done by another. -/
def EventLogData.doneBy (user : Id) (r : EventLogData) : EventLogData :=
  { r with userId := r.userId.map fun _ => user }

/-- The same events, done by others: `user` says for each event who it is. -/
def Db.withUsers (db : Db) (user : Id → Id)
    (h : ∀ r ∈ db.rows, (db.nickname (user r.id)).isSome) : Db :=
  { db with
    rows := db.rows.map fun r => r.doneBy (user r.id)
    ids := by
      rw [List.map_map]
      exact db.ids
    refers := List.forall_mem_map.2 fun r hr =>
      ⟨fun u hu => by
        obtain ⟨-, -, rfl⟩ := Option.map_eq_some_iff.1 hu
        exact h r hr, (db.refers r hr).2⟩ }

section Staff

variable {db : Db} {now : ℤ} {team : Id} {currency : Option Id} {r : EventLogData} {user u : Id}
  {i : RbGameStaffIdentity} {key key' : String} {value : Value} {fields others : Fields}

lemma lookup_concat (h : ∀ p ∈ others, p.1 ≠ key) :
    (concat fields others).lookup key = fields.lookup key := by
  unfold concat
  induction others generalizing fields with
  | nil => rfl
  | cons p others ih =>
    rw [List.forall_mem_cons] at h
    rw [List.foldl_cons, ih h.2, lookup_insertKey, if_neg (Ne.symm h.1)]

lemma key_of_mem_userField {o : Option (Id × String)} {p : String × Value}
    (h : p ∈ userField key o) : p.1 = key := by
  cases o with
  | none => cases h
  | some _ =>
    rw [userField, List.mem_singleton] at h
    rw [h]

lemma lookup_withoutIgnored (h : key ≠ "submission") :
    (withoutIgnored fields).lookup key = fields.lookup key := by
  unfold withoutIgnored
  split
  · rw [lookup_insertKey, if_neg h]
  · rfl

/-- What is shown of an event says `staff` where the event does. -/
lemma isStaff_shown : (db.shown r).isStaff = r.isStaff := by
  have hlookup : (db.shown r).data.lookup "staff" = r.data.lookup "staff" := by
    rw [Db.shown, lookup_concat fun p hp => key_of_mem_userField hp ▸ by decide,
      lookup_concat fun p hp => key_of_mem_userField hp ▸ by decide,
      lookup_withoutIgnored (by decide), lookup_removeKey, if_neg (by decide), lookup_removeKey,
      if_neg (by decide)]
  rw [EventLogData.isStaff, EventLogData.isStaff, hlookup]

lemma removeKey_insertKey_self :
    removeKey key (insertKey key value fields) = removeKey key fields := by
  rw [insertKey, removeKey, List.filter_append, removeKey, List.filter_filter]
  simp

lemma removeKey_insertKey (h : key' ≠ key) :
    removeKey key (insertKey key' value fields) = insertKey key' value (removeKey key fields) := by
  rw [insertKey, insertKey, removeKey, List.filter_append, removeKey, removeKey, removeKey,
    List.filter_filter, List.filter_filter, List.filter_cons_of_pos (by simpa using h),
    List.filter_nil]
  congr 1
  exact List.filter_congr fun p _ => Bool.and_comm _ _

lemma removeKey_concat (h : ∀ p ∈ others, p.1 ≠ key) :
    removeKey key (concat fields others) = concat (removeKey key fields) others := by
  unfold concat
  induction others generalizing fields with
  | nil => rfl
  | cons p others ih =>
    rw [List.forall_mem_cons] at h
    rw [List.foldl_cons, List.foldl_cons, ih h.2, removeKey_insertKey h.1]

lemma removeKey_concat_userField {o : Option (Id × String)} :
    removeKey key (concat fields (userField key o)) = removeKey key fields := by
  cases o with
  | none => rfl
  | some _ => exact removeKey_insertKey_self

/-- What is shown of an event but for who has done it. -/
lemma removeKey_shown :
    removeKey "user" (db.shown r).data =
      concat (removeKey "user" (withoutIgnored (removeKey "target_user" (removeKey "user" r.data))))
        (userField "target_user" (db.userOf r.targetUserId)) := by
  rw [Db.shown, removeKey_concat fun p hp => key_of_mem_userField hp ▸ by decide,
    removeKey_concat_userField]

/-- Players see the same of what two of the staff have done, and who of others has. -/
lemma anonymizeStaff_shown_iff (h : r.userId = some u) :
    (db.shown (r.doneBy user)).anonymizeStaff i = (db.shown r).anonymizeStaff i ↔
      u = user ∨ r.isStaff = true := by
  have hstaff' : (db.shown (r.doneBy user)).isStaff = r.isStaff := isStaff_shown
  have huser : (db.shown r).userId = some u := h
  have huser' : (db.shown (r.doneBy user)).userId = some user := by
    change r.userId.map _ = _
    rw [h]
    rfl
  by_cases hs : r.isStaff = true
  · refine iff_of_true ?_ (.inr hs)
    rw [EventLogData.anonymizeStaff, EventLogData.anonymizeStaff, hstaff', isStaff_shown, hs,
      if_neg (by decide), if_neg (by decide), huser, huser']
    simp only [insertKey, removeKey_shown]
    rfl
  · rw [EventLogData.anonymizeStaff, EventLogData.anonymizeStaff, hstaff', isStaff_shown,
      if_pos (Bool.not_eq_true _ ▸ hs), if_pos (Bool.not_eq_true _ ▸ hs)]
    refine ⟨fun heq => .inl ?_, fun heq => ?_⟩
    · have hsame := congrArg EventLogData.userId heq
      rw [huser, huser'] at hsame
      exact (Option.some.inj hsame).symm
    · have hdone : r.doneBy user = r := by
        rw [EventLogData.doneBy, h, ← heq.resolve_right hs, Option.map_some, ← h]
      rw [hdone]

lemma activity_withUsers (f : Id → Id) (h : ∀ r ∈ db.rows, (db.nickname (f r.id)).isSome) :
    (db.withUsers f h).activity now team currency =
      (db.activity now team currency).map fun r => r.doneBy (f r.id) := by
  rw [Db.activity, Db.activity, Db.withUsers, List.filter_map]
  rfl

/-- A page of the same events, done by others. -/
lemma getSelfActivity_withUsers (f : Id → Id) (h : ∀ r ∈ db.rows, (db.nickname (f r.id)).isSome)
    (before : Option ℕ) (limit : Option ℤ) :
    getSelfActivity (db.withUsers f h) now team currency (some i) false before limit =
      (Paging.Feed.page EventLogData.id (clampLimit (limit.getD 30))
        (db.activity now team currency) before).map fun r =>
          (db.shown (r.doneBy (f r.id))).anonymizeStaff i := by
  rw [getSelfActivity, listTeamActivity, activity_withUsers,
    Paging.Feed.page_map (f := fun r : EventLogData => r.doneBy (f r.id)) fun _ => rfl,
    List.map_map, List.map_map]
  rfl

/-- **When players can tell who has done it**: where the game has a staff identity, the pages of a
team stay the same with others in place of the users exactly if those events that are shown, and are
not said to be done as staff, keep theirs. -/
theorem getSelfActivity_withUsers_iff (f : Id → Id)
    (h : ∀ r ∈ db.rows, (db.nickname (f r.id)).isSome) :
    (∀ before limit,
      getSelfActivity (db.withUsers f h) now team currency (some i) false before limit =
        getSelfActivity db now team currency (some i) false before limit) ↔
    ∀ r ∈ db.rows, db.selects now team currency r = true →
      ∀ u, r.userId = some u → u = f r.id ∨ r.isStaff = true := by
  have hpage : ∀ before limit, getSelfActivity db now team currency (some i) false before limit =
      (Paging.Feed.page EventLogData.id (clampLimit (limit.getD 30))
        (db.activity now team currency) before).map fun r => (db.shown r).anonymizeStaff i :=
    fun before limit => by
      rw [getSelfActivity, listTeamActivity, List.map_map]
      rfl
  constructor
  · intro hsame r hr hsel u hu
    have hrow : r ∈ db.activity now team currency := List.mem_filter.2 ⟨hr, hsel⟩
    -- the page of this event alone
    have hone := hsame (some (r.id + 1)) (some 1)
    rw [getSelfActivity_withUsers, hpage, show clampLimit ((some 1).getD 30) = 1 from rfl,
      Paging.Feed.page_one (activity_nodup db now) hrow] at hone
    exact (anonymizeStaff_shown_iff hu).1 (List.head_eq_of_cons_eq hone)
  · intro hkeep before limit
    rw [getSelfActivity_withUsers, hpage]
    refine List.map_congr_left fun r hr => ?_
    obtain ⟨hrow, hsel⟩ := List.mem_filter.1 (Paging.Feed.mem_page hr).1
    cases hu : r.userId with
    | none => rw [EventLogData.doneBy, hu, Option.map_none, ← hu]
    | some u => exact (anonymizeStaff_shown_iff hu).2 (hkeep r hrow hsel u hu)

/-- The events of the puzzle show who has done them. -/
theorem getSelfActivity_withUsers_iff_threeEvents : ¬ ∀ before limit,
    getSelfActivity (threeEvents.withUsers (fun _ => 2) fun _ _ => rfl) 50 1 none
        (some ⟨"team of the game", none⟩) false before limit =
      getSelfActivity threeEvents 50 1 none (some ⟨"team of the game", none⟩) false before
        limit := by
  intro hsame
  have hdone := (getSelfActivity_withUsers_iff (fun _ => 2) fun _ _ => rfl).1 hsame
    (puzzleEvent 1 1) (by simp [threeEvents]) rfl 1 rfl
  exact absurd hdone (by decide)

end Staff

end EventLog
