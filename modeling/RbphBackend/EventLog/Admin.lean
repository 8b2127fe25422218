import RbphBackend.EventLog.Activity
import RbphBackend.Paging.Offset

set_option relaxedAutoImplicit false
set_option autoImplicit false

/-!
# The log of the administrators

Administrators read the events that meet a filter page by page, the latest first. A page begins at
an offset, and a second query counts the events; between the queries, and between the pages, events
come.

## Main definitions

* `EventLog.listAdminLogs`, `EventLog.countAdminLogs` — the queries.
* `EventLog.logAdminList` — a page, with the number of the events.
* `EventLog.AdminReads` — the pages that an administrator gets.

## Main results

* `EventLog.adminReads_all` — what an administrator has read in the end.
-/

namespace EventLog

open Games

/-! ## The queries -/

/-- `AdminLogQuery` but for the page. -/
structure AdminLogFilter where
  scope : Option ℤ
  severity : Option ℤ
  eventType : Option String
  gameId : Option Id
  teamId : Option Id
  userId : Option Id
  deriving DecidableEq

section Queries

variable (db : Db) (filter : AdminLogFilter)

/-- The condition of the queries. -/
def AdminLogFilter.selects (r : EventLogData) : Bool :=
  (filter.scope.all fun scope => decide (r.scope = scope)) &&
    (filter.severity.all fun severity => decide (r.severity = severity)) &&
    (filter.eventType.all fun eventType => decide (r.eventType = eventType)) &&
    (filter.gameId.all fun game => decide (r.gameId = some game)) &&
    (filter.teamId.all fun team => decide (r.teamId = some team)) &&
    filter.userId.all fun user => decide (r.userId = some user ∨ r.targetUserId = some user)

/-- What `list_admin_logs` shows of an event. -/
def Db.adminShown (r : EventLogData) : EventLogData :=
  { r with
    data := concat (concat (removeKey "target_user" (removeKey "user" r.data))
      (userField "user" (db.userOf r.userId)))
      (userField "target_user" (db.userOf r.targetUserId)) }

/-- The events that meet the filter, the latest first. -/
def Db.adminLogs : List EventLogData :=
  Paging.Feed.preceding EventLogData.id (db.rows.filter filter.selects) none

/-- `list_admin_logs`. -/
def listAdminLogs (offset limit : ℤ) : List EventLogData :=
  (Paging.Offset.page (clampLimit limit) (db.adminLogs filter) (max offset 0).toNat).map
    db.adminShown

/-- `count_admin_logs`. -/
def countAdminLogs : ℕ := (db.rows.filter filter.selects).length

end Queries

/-! ## Pages -/

/-- `LogListQuery`. -/
structure LogListQuery where
  filter : AdminLogFilter
  limit : Option ℤ
  deriving DecidableEq

/-- The filter, with the type of the events trimmed, and without an empty one. -/
def LogListQuery.trimmed (query : LogListQuery) : AdminLogFilter :=
  { query.filter with
    eventType := (query.filter.eventType.map trim).filter fun eventType => eventType ≠ "" }

/-- The number of events of a page. -/
def LogListQuery.pageLimit (query : LogListQuery) : ℕ := clampLimit (query.limit.getD 50)

/-- `LogAdminListResponse`. -/
structure LogAdminListResponse where
  logs : List EventLogData
  total : ℕ

/-- `list` of a page; the events are counted after they are listed. -/
def logAdminList (listed counted : Db) (query : LogListQuery) (page : Option ℤ) :
    LogAdminListResponse where
  logs := listAdminLogs listed query.trimmed ((max (page.getD 1) 1 - 1) * query.pageLimit)
    query.pageLimit
  total := countAdminLogs counted query.trimmed

/-- The pages that an administrator gets, one after the other from a page on, until as many events
are counted as the pages have places; among the queries anything may be written. -/
inductive AdminReads (query : LogListQuery) : Db → ℕ → List Write → List Db →
    List LogAdminListResponse → Prop
  | last {db : Db} {page : ℕ} {writes : List Write} :
      (logAdminList db (db.run writes) query (some (page + 1))).total ≤
        (page + 1) * query.pageLimit →
      AdminReads query db page writes [db]
        [logAdminList db (db.run writes) query (some (page + 1))]
  | more {db : Db} {page : ℕ} {writes between others : List Write} {found : List Db}
      {pages : List LogAdminListResponse} :
      (page + 1) * query.pageLimit <
        (logAdminList db (db.run writes) query (some (page + 1))).total →
      AdminReads query ((db.run writes).run between) (page + 1) others found pages →
      AdminReads query db page (writes ++ between ++ others) (db :: found)
        (logAdminList db (db.run writes) query (some (page + 1)) :: pages)

/-! ## What is read -/

/-- The write takes no event away, and changes none. -/
def Write.Grows : Write → Prop
  | .deleteGame _ | .delete _ _ => False
  | .insert _ | .user _ _ | .release _ _ => True

section Reading

variable {db : Db} {filter : AdminLogFilter} {query : LogListQuery} {w : Write}
  {writes : List Write} {page : ℕ} {found : List Db} {pages : List LogAdminListResponse}

lemma rows_sublist_write (h : w.Grows) : db.rows.Sublist (db.write w).rows := by
  cases w with
  | insert r =>
    rw [Db.write, Db.insert]
    split_ifs
    · exact List.sublist_cons_self _ _
    · exact List.Sublist.refl _
  | user | release => exact List.Sublist.refl _
  | deleteGame | delete => exact h.elim

lemma rows_sublist_run (h : ∀ w ∈ writes, w.Grows) : db.rows.Sublist (db.run writes).rows := by
  induction writes generalizing db with
  | nil => exact List.Sublist.refl _
  | cons w writes ih =>
    rw [List.forall_mem_cons] at h
    exact (rows_sublist_write h.1).trans (ih h.2)

/-- Where no event is taken away, those that meet a filter stay in their order. -/
lemma adminLogs_sublist {db' : Db} (h : db.rows.Sublist db'.rows) :
    (db.adminLogs filter).Sublist (db'.adminLogs filter) :=
  Paging.Feed.preceding_sublist (db'.ids.sublist (List.filter_sublist.map _)) (h.filter _)

lemma length_adminLogs : (db.adminLogs filter).length = countAdminLogs db filter := by
  rw [Db.adminLogs, Paging.Feed.preceding, List.length_insertionSort, countAdminLogs]
  simp

lemma mem_adminLogs {r : EventLogData} :
    r ∈ db.adminLogs filter ↔ r ∈ db.rows ∧ filter.selects r = true := by
  rw [Db.adminLogs, Paging.Feed.mem_preceding, List.mem_filter]
  simp

/-- The events of a page. -/
lemma logs_logAdminList (counted : Db) :
    (logAdminList db counted query (some (page + 1))).logs =
      (Paging.Offset.page query.pageLimit (db.adminLogs query.trimmed)
        (page * query.pageLimit)).map db.adminShown := by
  have hlimit : clampLimit query.pageLimit = query.pageLimit := by
    rw [LogListQuery.pageLimit, clampLimit, clampLimit]
    omega
  have hpage : max ((page : ℤ) + 1) 1 - 1 = page := by omega
  have hle : (0 : ℤ) ≤ page * query.pageLimit := Int.natCast_nonneg (page * query.pageLimit)
  change listAdminLogs db query.trimmed ((max ((page : ℤ) + 1) 1 - 1) * query.pageLimit)
    query.pageLimit = _
  rw [listAdminLogs, hlimit, hpage, max_eq_left hle]
  rfl

/-- Where no event is taken away, the rows of a page are those of the next, and more. -/
lemma AdminReads.rows_sublist (h : AdminReads query db page writes found pages)
    (hgrows : ∀ w ∈ writes, w.Grows) :
    (∀ db' ∈ found, db.rows.Sublist db'.rows) ∧
      found.Pairwise fun d d' => d.rows.Sublist d'.rows := by
  induction h with
  | @last db =>
    refine ⟨fun db' hdb' => ?_, List.pairwise_singleton _ _⟩
    rw [List.mem_singleton.1 hdb']
  | @more db _ writes between others found _ _ _ ih =>
    rw [List.forall_mem_append, List.forall_mem_append] at hgrows
    obtain ⟨hrows, hpairs⟩ := ih hgrows.2
    have hlater : ∀ db' ∈ found, db.rows.Sublist db'.rows := fun db' hdb' =>
      ((rows_sublist_run hgrows.1.1).trans (rows_sublist_run hgrows.1.2)).trans (hrows db' hdb')
    exact ⟨List.forall_mem_cons.2 ⟨List.Sublist.refl _, hlater⟩,
      List.pairwise_cons.2 ⟨hlater, hpairs⟩⟩

/-- Where no event is taken away, the pages are those of lists that are read by offset. -/
lemma AdminReads.exists_walk (h : AdminReads query db page writes found pages)
    (hgrows : ∀ w ∈ writes, w.Grows) :
    ∃ rows, Paging.Offset.Walk query.pageLimit (page * query.pageLimit)
        (found.map fun db => db.adminLogs query.trimmed) rows ∧
      (pages.flatMap LogAdminListResponse.logs).map EventLogData.id =
        rows.flatten.map EventLogData.id ∧
      ∀ d, (∀ db' ∈ found, db' = d) →
        pages.flatMap LogAdminListResponse.logs = rows.flatten.map d.adminShown := by
  have hids : ∀ (db : Db) (rows : List EventLogData),
      (rows.map db.adminShown).map EventLogData.id = rows.map EventLogData.id := fun db rows => by
    rw [List.map_map]
    rfl
  induction h with
  | @last db page writes hlast =>
    refine ⟨_, .last ?_, ?_, fun d hsame => ?_⟩
    · have hsub : (db.adminLogs query.trimmed).Sublist ((db.run writes).adminLogs query.trimmed) :=
        adminLogs_sublist (rows_sublist_run hgrows)
      have hle := hsub.length_le
      rw [length_adminLogs, length_adminLogs] at hle
      rw [length_adminLogs, ← Nat.succ_mul]
      exact hle.trans hlast
    · rw [List.flatMap_cons, List.flatMap_nil, List.append_nil, logs_logAdminList, hids,
        List.flatten_cons, List.flatten_nil, List.append_nil]
    · obtain rfl := hsame db (List.mem_singleton_self _)
      rw [List.flatMap_cons, List.flatMap_nil, List.append_nil, logs_logAdminList,
        List.flatten_cons, List.flatten_nil, List.append_nil]
  | @more db page _ _ _ _ _ _ _ ih =>
    obtain ⟨rows, hwalk, hread, hstays⟩ := ih (List.forall_mem_append.1 hgrows).2
    rw [Nat.succ_mul] at hwalk
    refine ⟨_, .more hwalk, ?_, fun d hsame => ?_⟩
    · rw [List.flatMap_cons, List.map_append, hread, logs_logAdminList, hids, List.flatten_cons,
        List.map_append]
    · obtain rfl := hsame db List.mem_cons_self
      rw [List.flatMap_cons, hstays db fun db' hdb' => hsame db' (List.mem_cons_of_mem _ hdb'),
        logs_logAdminList, List.flatten_cons, List.map_append]

/-- Where no event is taken away, what met the filter at the start is read. -/
lemma AdminReads.mem_read (h : AdminReads query db 0 writes found pages)
    (hgrows : ∀ w ∈ writes, w.Grows) {r : EventLogData} (hr : r ∈ db.rows)
    (hsel : query.trimmed.selects r = true) :
    r.id ∈ (pages.flatMap LogAdminListResponse.logs).map EventLogData.id := by
  obtain ⟨rows, hwalk, hread, -⟩ := h.exists_walk hgrows
  obtain ⟨hrows, hpairs⟩ := h.rows_sublist hgrows
  rw [hread]
  refine hwalk.mem_flatten (List.pairwise_map.2 (hpairs.imp fun hsub =>
    (adminLogs_sublist hsub).map EventLogData.id)) fun l hl => ?_
  rw [Nat.zero_mul, List.drop_zero]
  obtain ⟨db', hdb', rfl⟩ := List.mem_map.1 (List.mem_of_mem_head? hl)
  exact List.mem_map_of_mem (mem_adminLogs.2 ⟨(hrows db' hdb').subset hr, hsel⟩)

/-- What is read has met the filter at one of the pages. -/
lemma AdminReads.exists_shown (h : AdminReads query db page writes found pages) {e : EventLogData}
    (he : e ∈ pages.flatMap LogAdminListResponse.logs) :
    ∃ db' ∈ found, ∃ r ∈ db'.rows, query.trimmed.selects r = true ∧ e = db'.adminShown r := by
  have hpage : ∀ {db counted : Db} {page : ℕ},
      e ∈ (logAdminList db counted query (some (page + 1))).logs →
      ∃ r ∈ db.rows, query.trimmed.selects r = true ∧ e = db.adminShown r := by
    intro db counted page he
    rw [logs_logAdminList, List.mem_map] at he
    obtain ⟨r, hr, rfl⟩ := he
    obtain ⟨hrow, hsel⟩ := mem_adminLogs.1 (List.mem_of_mem_drop (List.mem_of_mem_take hr))
    exact ⟨r, hrow, hsel, rfl⟩
  induction h with
  | last _ => exact ⟨_, List.mem_singleton_self _, hpage (by simpa using he)⟩
  | more _ _ ih =>
    rw [List.flatMap_cons, List.mem_append] at he
    rcases he with he | he
    · exact ⟨_, List.mem_cons_self, hpage he⟩
    · obtain ⟨db', hdb', hmem⟩ := ih he
      exact ⟨db', List.mem_cons_of_mem _ hdb', hmem⟩

/-- Where nothing is written, the rows stay, and so does the number of the events. -/
lemma AdminReads.same (h : AdminReads query db page writes found pages) (hw : writes = []) :
    (∀ db' ∈ found, db' = db) ∧ ∀ p ∈ pages, p.total = countAdminLogs db query.trimmed := by
  induction h with
  | last _ =>
    subst hw
    refine ⟨fun db' hdb' => List.mem_singleton.1 hdb', fun p hp => ?_⟩
    rw [List.mem_singleton.1 hp]
    rfl
  | more _ _ ih =>
    obtain ⟨hboth, rfl⟩ := List.append_eq_nil_iff.1 hw
    obtain ⟨rfl, rfl⟩ := List.append_eq_nil_iff.1 hboth
    obtain ⟨hfound, htotal⟩ := ih rfl
    exact ⟨List.forall_mem_cons.2 ⟨rfl, hfound⟩, List.forall_mem_cons.2 ⟨rfl, htotal⟩⟩

/-- **What an administrator has read in the end**: only events that meet the filter; all of those
that met it at the start, though perhaps twice, where no event is taken away meanwhile; and where
nothing is written they are read in their order, each once, and every page tells their number. -/
theorem adminReads_all (h : AdminReads query db 0 writes found pages) :
    (∀ e ∈ pages.flatMap LogAdminListResponse.logs,
      ∃ db' ∈ found, ∃ r ∈ db'.rows, query.trimmed.selects r = true ∧ e = db'.adminShown r) ∧
    ((∀ w ∈ writes, w.Grows) → ∀ r ∈ db.rows, query.trimmed.selects r = true →
      r.id ∈ (pages.flatMap LogAdminListResponse.logs).map EventLogData.id) ∧
    (writes = [] →
      pages.flatMap LogAdminListResponse.logs = (db.adminLogs query.trimmed).map db.adminShown ∧
      ∀ p ∈ pages, p.total = (pages.flatMap LogAdminListResponse.logs).length) := by
  refine ⟨fun e he => h.exists_shown he, fun hgrows r => h.mem_read hgrows, fun hw => ?_⟩
  obtain ⟨hfound, htotal⟩ := h.same hw
  subst hw
  obtain ⟨rows, hwalk, -, hstays⟩ := h.exists_walk fun w hw => (by cases hw)
  have hitems : rows.flatten = db.adminLogs query.trimmed := by
    rw [hwalk.flatten_eq fun l hl => ?_, Nat.zero_mul, List.drop_zero]
    obtain ⟨db', hdb', rfl⟩ := List.mem_map.1 hl
    rw [hfound db' hdb']
  rw [hstays db hfound, hitems]
  exact ⟨rfl, fun p hp => by rw [htotal p hp, List.length_map, length_adminLogs]⟩

/-- Of three events two are on a page; the first of them is read again when a fourth one has
come. -/
theorem adminReads_all_threeEvents : ∃ writes found pages,
    AdminReads ⟨⟨none, none, none, none, none, none⟩, some 2⟩ threeEvents 0 writes found pages ∧
    1 ∈ (pages.flatMap LogAdminListResponse.logs).map EventLogData.id := by
  have h : AdminReads ⟨⟨none, none, none, none, none, none⟩, some 2⟩ threeEvents 0
      ([] ++ [.insert (puzzleEvent 4 1)] ++ []) _ _ :=
    .more (by decide) (.last (by decide))
  have hgrows : ∀ w ∈ ([] ++ [Write.insert (puzzleEvent 4 1)] ++ []), w.Grows := by
    intro w hw
    obtain rfl := List.mem_singleton.1 hw
    trivial
  exact ⟨_, _, _, h, (adminReads_all h).2.1 hgrows (puzzleEvent 1 1) (by simp [threeEvents]) rfl⟩

end Reading

end EventLog
