import RbphBackend.Caching.Listed
import RbphBackend.Storage.Groups

set_option relaxedAutoImplicit false
set_option autoImplicit false

/-!
# The cache of database assets

Assets that are stored in the database are kept in memory for a while after they have been read. The
cache has a limit of bytes; entries that have not been used for half an hour are dropped, and when
there is no room for a new one, those that have been used least recently.

## Main definitions

* `Storage.DatabaseAssetCacheInner.get`, `Storage.DatabaseAssetCacheInner.insert` —
  `module/storage.rs`.
* `Storage.DatabaseAssetCacheInner.Sound` — the bytes and the order are those of the entries.
* `Storage.CacheRun` — the cache after some calls, with the keys in the order of their uses.

## Main results

* `Storage.databaseAssetCache_of_calls` — what the cache holds, returns and drops.
-/

namespace Storage

open Caching

def databaseCacheBytes : ℕ := 64 * 1024 * 1024

/-- In nanoseconds. -/
def databaseCacheIdle : ℕ := 30 * 60 * 1000000000

structure DatabaseAssetCacheEntry where
  content : Bytes
  lastUsed : ℕ

abbrev CacheEntries := AList fun _ : String => DatabaseAssetCacheEntry

structure DatabaseAssetCacheInner where
  entries : CacheEntries := ∅
  order : List String := []
  bytes : ℕ := 0

namespace DatabaseAssetCacheInner

def touch (self : DatabaseAssetCacheInner) (key : String) : DatabaseAssetCacheInner :=
  { self with order := self.order.filter (· ≠ key) ++ [key] }

/-- A key is removed from the entries, the bytes and the order. -/
def remove (self : DatabaseAssetCacheInner) (key : String) : DatabaseAssetCacheInner :=
  match self.entries.lookup key with
  | some entry =>
    { entries := self.entries.erase key
      order := self.order.filter (· ≠ key)
      bytes := self.bytes - entry.content.length }
  | none => { self with order := self.order.filter (· ≠ key) }

def removeExpired (self : DatabaseAssetCacheInner) (now : ℕ) : DatabaseAssetCacheInner :=
  let expired := self.entries.entries.filter fun entry =>
    decide (databaseCacheIdle ≤ now - entry.2.lastUsed)
  (expired.map (·.1)).foldl remove self

/-- `DatabaseAssetCache::get`, with the instants at which the clock is read. -/
def get (self : DatabaseAssetCacheInner) (key : String) (now now' : ℕ) :
    Option Bytes × DatabaseAssetCacheInner :=
  let cache := self.removeExpired now
  match cache.entries.lookup key with
  | none => (none, cache)
  | some entry =>
    let cache := { cache with entries := cache.entries.insert key { entry with lastUsed := now' } }
    (some entry.content, cache.touch key)

/-- The loop of `insert`: the oldest entries are dropped until the content fits. -/
def evict (size : ℕ) (entries : CacheEntries) (bytes : ℕ) : List String → DatabaseAssetCacheInner
  | [] => ⟨entries, [], bytes⟩
  | oldest :: rest =>
    if databaseCacheBytes < min (bytes + size) u64Max then
      match entries.lookup oldest with
      | some entry => evict size (entries.erase oldest) (bytes - entry.content.length) rest
      | none => evict size entries bytes rest
    else ⟨entries, oldest :: rest, bytes⟩

/-- `DatabaseAssetCache::insert`. -/
def insert (self : DatabaseAssetCacheInner) (key : String) (content : Bytes) (now now' : ℕ) :
    DatabaseAssetCacheInner :=
  let size := content.length
  if databaseCacheBytes < size then self
  else
    let cache := (self.removeExpired now).remove key
    let cache := evict size cache.entries cache.bytes cache.order
    { entries := cache.entries.insert key ⟨content, now'⟩
      order := cache.order ++ [key]
      bytes := min (cache.bytes + size) u64Max }

/-- The order lists the keys of the entries, the bytes are those of their contents, and they are
within the limit. -/
structure Sound (cache : DatabaseAssetCacheInner) : Prop where
  listed : Lists cache.order cache.entries
  bytes : cache.bytes = weight (fun entry => entry.content.length) cache.entries
  bounded : cache.bytes ≤ databaseCacheBytes

end DatabaseAssetCacheInner

/-! ## Calls -/

inductive CacheRequest where
  | get (key : String)
  | insert (key : String) (content : Bytes)

/-- A request, with the instants at which the clock is read while it is served. -/
structure CacheCall where
  request : CacheRequest
  now : ℕ
  now' : ℕ

namespace CacheCall

/-- What is returned by `get`, and the cache after the call. -/
def run (cache : DatabaseAssetCacheInner) (call : CacheCall) :
    Option Bytes × DatabaseAssetCacheInner :=
  match call.request with
  | .get key => cache.get key call.now call.now'
  | .insert key content => (none, cache.insert key content call.now call.now')

/-- The key the call uses: one that is found, or one that is inserted. -/
def uses (cache : DatabaseAssetCacheInner) (call : CacheCall) : Option String :=
  match call.request with
  | .get key => (cache.get key call.now call.now').1.map fun _ => key
  | .insert key content => if databaseCacheBytes < content.length then none else some key

/-- The content the call inserts under a key. -/
def inserts (key : String) (call : CacheCall) : Option Bytes :=
  match call.request with
  | .get _ => none
  | .insert key' content =>
    if key' = key ∧ content.length ≤ databaseCacheBytes then some content else none

end CacheCall

/-- The cache after some calls, and the keys they have used. -/
structure CacheRun where
  cache : DatabaseAssetCacheInner := {}
  used : List String := []

def CacheRun.step (run : CacheRun) (call : CacheCall) : CacheRun where
  cache := (call.run run.cache).2
  used := run.used ++ (call.uses run.cache).toList

def runCalls (calls : List CacheCall) : CacheRun := calls.foldl CacheRun.step {}

/-- The content that has been inserted last under a key. -/
def lastInserted (calls : List CacheCall) (key : String) : Option Bytes :=
  calls.reverse.findSome? (CacheCall.inserts key)

/-- What an insertion of content that fits does to a cache without expired entries: it is there, and
only the first keys of the order have been dropped, none of them without need. -/
structure Inserted (before after : DatabaseAssetCacheInner) (key : String) (content : Bytes) :
    Prop where
  stored : (after.entries.lookup key).map (·.content) = some content
  dropped : ∃ n, after.order = (before.order.filter (· ≠ key)).drop n ++ [key] ∧
    ∀ oldest entry, 0 < n → (before.order.filter (· ≠ key))[n - 1]? = some oldest →
      before.entries.lookup oldest = some entry →
      databaseCacheBytes < entry.content.length + after.bytes
  kept : ∀ k ∈ after.order, k ≠ key → after.entries.lookup k = before.entries.lookup k

/-! ## One call -/

namespace DatabaseAssetCacheInner

variable {cache : DatabaseAssetCacheInner} {key : String} {entry : DatabaseAssetCacheEntry}

lemma remove_eq (cache : DatabaseAssetCacheInner) (key : String) : cache.remove key =
    { entries := cache.entries.erase key
      order := cache.order.filter (· ≠ key)
      bytes := cache.bytes - ((cache.entries.lookup key).map (·.content.length)).getD 0 } := by
  unfold remove
  cases hlookup : cache.entries.lookup key with
  | some entry => rfl
  | none =>
    have herase : cache.entries.erase key = cache.entries :=
      AList.ext (List.kerase_of_notMem_keys (AList.lookup_eq_none.mp hlookup))
    rw [herase]
    rfl

/-- **A key is removed** from all three. -/
lemma Sound.remove (h : cache.Sound) (key : String) : (cache.remove key).Sound := by
  rw [remove_eq]
  have hbounded := h.bounded
  refine ⟨h.listed.erase, ?_, (Nat.sub_le _ _).trans hbounded⟩
  show cache.bytes - ((cache.entries.lookup key).map (·.content.length)).getD 0 = _
  cases hlookup : cache.entries.lookup key with
  | none =>
    rw [weight_erase_of_notMem _ (AList.lookup_eq_none.mp hlookup), ← h.bytes]
    rfl
  | some entry =>
    rw [h.bytes, weight_erase _ hlookup]
    exact Nat.add_sub_cancel_left _ _

/-- What is left of a cache, in the same order. -/
structure Within (cache before : DatabaseAssetCacheInner) : Prop where
  order : cache.order.Sublist before.order
  entries : ∀ k entry, cache.entries.lookup k = some entry → before.entries.lookup k = some entry

lemma Within.trans {c₁ c₂ c₃ : DatabaseAssetCacheInner} (h : c₁.Within c₂) (h' : c₂.Within c₃) :
    c₁.Within c₃ where
  order := h.order.trans h'.order
  entries k entry hk := h'.entries k entry (h.entries k entry hk)

lemma remove_within (cache : DatabaseAssetCacheInner) (key : String) :
    (cache.remove key).Within cache := by
  rw [remove_eq]
  refine ⟨List.filter_sublist, fun k entry hk => ?_⟩
  by_cases hne : k = key
  · rw [hne, AList.lookup_erase] at hk
    cases hk
  · rwa [AList.lookup_erase_ne hne] at hk

lemma Sound.foldl_remove (h : cache.Sound) (keys : List String) :
    (keys.foldl DatabaseAssetCacheInner.remove cache).Sound ∧
      (keys.foldl DatabaseAssetCacheInner.remove cache).Within cache := by
  induction keys generalizing cache with
  | nil => exact ⟨h, List.Sublist.refl _, fun _ _ hk => hk⟩
  | cons key keys ih =>
    obtain ⟨hsound, hwithin⟩ := ih (h.remove key)
    exact ⟨hsound, hwithin.trans (remove_within cache key)⟩

/-- Entries that have not been used for long are removed one after the other. -/
lemma Sound.removeExpired (h : cache.Sound) (now : ℕ) :
    (cache.removeExpired now).Sound ∧ (cache.removeExpired now).Within cache :=
  h.foldl_remove _

/-- **The entries that are dropped** to make room are the first of the order, and the last of them
had to go. -/
lemma evict_spec {size : ℕ} (h : cache.Sound) (hsize : size ≤ databaseCacheBytes) :
    (evict size cache.entries cache.bytes cache.order).Sound ∧
      (evict size cache.entries cache.bytes cache.order).bytes + size ≤ databaseCacheBytes ∧
      (∀ k ∈ (evict size cache.entries cache.bytes cache.order).order,
        (evict size cache.entries cache.bytes cache.order).entries.lookup k =
          cache.entries.lookup k) ∧
      ∃ n, (evict size cache.entries cache.bytes cache.order).order = cache.order.drop n ∧
        (n = 0 → (evict size cache.entries cache.bytes cache.order).bytes = cache.bytes) ∧
        ∀ oldest entry, 0 < n → cache.order[n - 1]? = some oldest →
          cache.entries.lookup oldest = some entry → databaseCacheBytes < entry.content.length +
            ((evict size cache.entries cache.bytes cache.order).bytes + size) := by
  obtain ⟨entries, order, bytes⟩ := cache
  dsimp only
  induction order generalizing entries bytes with
  | nil =>
    have hempty : bytes = 0 := by
      have hkeys : entries.entries = [] :=
        List.map_eq_nil_iff.mp (List.length_eq_zero_iff.mp h.listed.length_eq.symm)
      have hbytes : bytes = (entries.entries.map fun e => e.2.content.length).sum := h.bytes
      rw [hbytes, hkeys]
      rfl
    refine ⟨h, ?_, fun _ _ => rfl, 0, rfl, fun _ => rfl, fun _ _ hn => absurd hn (lt_irrefl 0)⟩
    show bytes + size ≤ databaseCacheBytes
    omega
  | cons oldest rest ih =>
    have hbounded : bytes ≤ databaseCacheBytes := h.bounded
    have hmem : oldest ∈ entries := (h.listed.mem oldest).mp List.mem_cons_self
    obtain ⟨entry, hentry⟩ := Option.isSome_iff_exists.mp (AList.lookup_isSome.mpr hmem)
    have hnodup := List.nodup_cons.mp h.listed.nodup
    have hlimit : databaseCacheBytes + databaseCacheBytes ≤ u64Max := by decide
    rw [evict]
    split
    · rename_i hfull
      rw [hentry]
      dsimp only
      have hbytes : bytes = entry.content.length + weight (fun e => e.content.length)
          (entries.erase oldest) := h.bytes.trans (weight_erase _ hentry)
      have hweight : bytes - entry.content.length = weight (fun e => e.content.length)
          (entries.erase oldest) := by omega
      have hrest : (⟨entries.erase oldest, rest, bytes - entry.content.length⟩ :
          DatabaseAssetCacheInner).Sound :=
        ⟨h.listed.tail, hweight, (Nat.sub_le _ _).trans hbounded⟩
      obtain ⟨hsound, hfits, hkept, n, horder, hnone, hneed⟩ := ih _ _ hrest
      have hne : ∀ k ∈ rest, k ≠ oldest := fun k hk heq => hnodup.1 (heq ▸ hk)
      refine ⟨hsound, hfits, fun k hk => ?_, n + 1, horder, fun hn => absurd hn n.succ_ne_zero,
        fun k e _ hk he => ?_⟩
      · rw [hkept k hk, AList.lookup_erase_ne (hne k (List.mem_of_mem_drop (horder ▸ hk)))]
      · rw [Nat.add_sub_cancel] at hk
        cases n with
        | zero =>
          obtain rfl : oldest = k := by simpa using hk
          rw [hentry, Option.some.injEq] at he
          subst he
          have hbytes := hnone rfl
          omega
        | succ n =>
          have hin : k ∈ rest := List.mem_of_getElem? (i := n) (by simpa using hk)
          exact hneed k e (Nat.succ_pos n) (by simpa using hk)
            (by rwa [AList.lookup_erase_ne (hne k hin)])
    · rename_i hfits
      refine ⟨h, ?_, fun _ _ => rfl, 0, rfl, fun _ => rfl, fun _ _ hn => absurd hn (lt_irrefl 0)⟩
      show bytes + size ≤ databaseCacheBytes
      omega

/-- **Content that fits is inserted**, and the cache stays sound. -/
lemma Sound.insert (h : cache.Sound) (key : String) {content : Bytes}
    (hfits : content.length ≤ databaseCacheBytes) (now now' : ℕ) :
    (cache.insert key content now now').Sound ∧
      Inserted (cache.removeExpired now) (cache.insert key content now now') key content := by
  have hremoved := (h.removeExpired now).1.remove key
  unfold DatabaseAssetCacheInner.insert
  rw [if_neg (not_lt.mpr hfits)]
  dsimp only
  have horder : ((cache.removeExpired now).remove key).order =
      (cache.removeExpired now).order.filter (· ≠ key) := by rw [remove_eq]
  have hentries : ((cache.removeExpired now).remove key).entries =
      (cache.removeExpired now).entries.erase key := by rw [remove_eq]
  obtain ⟨hsound, hroom, hkept, n, hdrop, -, hneed⟩ := evict_spec hremoved hfits
  generalize hevicted : evict content.length ((cache.removeExpired now).remove key).entries
    ((cache.removeExpired now).remove key).bytes ((cache.removeExpired now).remove key).order =
      evicted at hsound hroom hkept hdrop hneed ⊢
  rw [horder] at hdrop hneed
  rw [hentries] at hkept hneed
  have hlimit : databaseCacheBytes ≤ u64Max := by decide
  have hbytes : min (evicted.bytes + content.length) u64Max = evicted.bytes + content.length := by
    omega
  have hnew : key ∉ evicted.entries := by
    rw [← hsound.listed.mem, hdrop]
    intro hmem
    simpa using (List.mem_filter.mp (List.mem_of_mem_drop hmem)).2
  rw [hbytes]
  refine ⟨⟨hsound.listed.insert hnew, ?_, hroom⟩, ?_, ⟨n, ?_, fun oldest e hn ho he => ?_⟩,
    fun k hk hne => ?_⟩
  · show evicted.bytes + content.length = _
    rw [weight_insert, weight_erase_of_notMem _ hnew, hsound.bytes, Nat.add_comm]
  · rw [AList.lookup_insert]
    rfl
  · show evicted.order ++ [key] = _
    rw [hdrop]
  · have hold : oldest ≠ key := by
      simpa using (List.mem_filter.mp (List.mem_of_getElem? ho)).2
    exact hneed oldest e hn ho (by rwa [AList.lookup_erase_ne hold])
  · have hk' : k ∈ evicted.order :=
      (List.mem_append.mp hk).resolve_right fun hkey => hne (List.mem_singleton.mp hkey)
    show (evicted.entries.insert key _).lookup k = _
    rw [AList.lookup_insert_ne hne, hkept k hk', AList.lookup_erase_ne hne]

/-! ### Reading -/

lemma get_of_none {now now' : ℕ} (h : (cache.removeExpired now).entries.lookup key = none) :
    cache.get key now now' = (none, cache.removeExpired now) := by
  rw [get, h]

lemma get_of_some {now now' : ℕ} (h : (cache.removeExpired now).entries.lookup key = some entry) :
    cache.get key now now' = (some entry.content,
      { entries := (cache.removeExpired now).entries.insert key ⟨entry.content, now'⟩
        order := (cache.removeExpired now).order.filter (· ≠ key) ++ [key]
        bytes := (cache.removeExpired now).bytes }) := by
  rw [get, h]
  rfl

/-- An entry that is found keeps its content and comes to the back. -/
lemma Sound.touch (h : cache.Sound) (hentry : cache.entries.lookup key = some entry) (now' : ℕ) :
    Sound ⟨cache.entries.insert key ⟨entry.content, now'⟩, cache.order.filter (· ≠ key) ++ [key],
      cache.bytes⟩ where
  listed := h.listed.touch
  bytes := by
    show cache.bytes = _
    rw [weight_insert, h.bytes, weight_erase _ hentry]
  bounded := h.bounded

end DatabaseAssetCacheInner

/-! ## Runs -/

section Runs

variable {calls : List CacheCall} {run : CacheRun} {call : CacheCall}

open DatabaseAssetCacheInner

/-- The cache is sound, its order is that of the last uses, and it holds what has been inserted
last. -/
structure CacheRun.Tracks (run : CacheRun) (calls : List CacheCall) : Prop where
  sound : run.cache.Sound
  order : run.cache.order.Sublist run.used.dedup
  content : ∀ key entry, run.cache.entries.lookup key = some entry →
    lastInserted calls key = some entry.content

lemma lastInserted_concat (calls : List CacheCall) (call : CacheCall) (key : String) :
    lastInserted (calls ++ [call]) key = (call.inserts key).or (lastInserted calls key) := by
  rw [lastInserted, List.reverse_append, List.reverse_singleton, List.singleton_append,
    List.findSome?_cons, lastInserted]
  cases call.inserts key <;> rfl

lemma CacheRun.tracks_nil : CacheRun.Tracks {} [] where
  sound := ⟨.nil, rfl, Nat.zero_le _⟩
  order := List.Sublist.refl _
  content key entry h := by simp at h

/-- What is left of the cache. -/
lemma CacheRun.Tracks.within (h : run.Tracks calls) {cache : DatabaseAssetCacheInner}
    (hsound : cache.Sound) (hwithin : cache.Within run.cache) :
    (⟨cache, run.used⟩ : CacheRun).Tracks calls where
  sound := hsound
  order := hwithin.order.trans h.order
  content key entry hk := h.content key entry (hwithin.entries key entry hk)

lemma CacheRun.step_get (run : CacheRun) (key : String) (now now' : ℕ) :
    run.step ⟨.get key, now, now'⟩ = ⟨(run.cache.get key now now').2,
      run.used ++ ((run.cache.get key now now').1.map fun _ => key).toList⟩ := rfl

/-- A call to `get`. -/
lemma CacheRun.Tracks.get (h : run.Tracks calls) (key : String) (now now' : ℕ) :
    (run.step ⟨.get key, now, now'⟩).Tracks (calls ++ [⟨.get key, now, now'⟩]) := by
  obtain ⟨hsound, hwithin⟩ := h.sound.removeExpired now
  have hleft := h.within hsound hwithin
  have hlast : ∀ k, lastInserted (calls ++ [⟨.get key, now, now'⟩]) k = lastInserted calls k :=
    fun k => lastInserted_concat _ _ _
  cases hlookup : (run.cache.removeExpired now).entries.lookup key with
  | none =>
    rw [CacheRun.step_get, get_of_none hlookup]
    refine ⟨hsound, ?_, fun k entry hk => ?_⟩
    · simpa using hleft.order
    · rw [hlast]
      exact hleft.content k entry hk
  | some entry =>
    rw [CacheRun.step_get, get_of_some hlookup]
    refine ⟨hsound.touch hlookup now', sublist_dedup_touch hleft.order key, fun k e hk => ?_⟩
    rw [hlast]
    by_cases hne : k = key
    · rw [hne, AList.lookup_insert, Option.some.injEq] at hk
      rw [hne, hleft.content key entry hlookup, ← hk]
    · rw [AList.lookup_insert_ne hne] at hk
      exact hleft.content k e hk

/-- What `get` returns has been inserted last. -/
lemma CacheRun.Tracks.get_content (h : run.Tracks calls) {key : String} {content : Bytes}
    {now now' : ℕ} (hget : (run.cache.get key now now').1 = some content) :
    lastInserted calls key = some content := by
  have hwithin := (h.sound.removeExpired now).2
  cases hlookup : (run.cache.removeExpired now).entries.lookup key with
  | none =>
    rw [get_of_none hlookup] at hget
    cases hget
  | some entry =>
    rw [get_of_some hlookup] at hget
    rw [h.content key entry (hwithin.entries key entry hlookup)]
    exact hget

/-- A call to `insert`. -/
lemma CacheRun.Tracks.insert (h : run.Tracks calls) (key : String) (content : Bytes)
    (now now' : ℕ) : (run.step ⟨.insert key content, now, now'⟩).Tracks
      (calls ++ [⟨.insert key content, now, now'⟩]) := by
  by_cases hfits : content.length ≤ databaseCacheBytes
  · obtain ⟨hsound, hinserted⟩ := h.sound.insert key hfits now now'
    have hexpired := h.sound.removeExpired now
    have hleft := h.within hexpired.1 hexpired.2
    have hused : (run.step ⟨.insert key content, now, now'⟩).used = run.used ++ [key] := by
      simp [CacheRun.step, CacheCall.uses, not_lt.mpr hfits]
    refine ⟨hsound, ?_, fun k entry hk => ?_⟩
    · obtain ⟨n, horder, -⟩ := hinserted.dropped
      rw [hused]
      show (run.cache.insert key content now now').order.Sublist _
      rw [horder]
      exact ((List.drop_sublist n _).append_right [key]).trans (sublist_dedup_touch hleft.order key)
    · rw [lastInserted_concat]
      by_cases hne : k = key
      · have hstored := hinserted.stored
        rw [hne] at hk ⊢
        have hcontent : entry.content = content := by
          rw [show (run.cache.insert key content now now').entries.lookup key = some entry from hk]
            at hstored
          exact Option.some.inj hstored
        simp [CacheCall.inserts, hfits, hcontent]
      · have hnone : CacheCall.inserts k ⟨.insert key content, now, now'⟩ = none :=
          if_neg fun hsame => hne hsame.1.symm
        rw [hnone, Option.none_or]
        have hmem : k ∈ (run.cache.insert key content now now').order :=
          (hsound.listed.mem k).mpr (AList.lookup_isSome.mp (Option.isSome_iff_exists.mpr ⟨_, hk⟩))
        exact hleft.content k entry ((hinserted.kept k hmem hne).symm.trans hk)
  · have hcache : run.cache.insert key content now now' = run.cache := if_pos (not_le.mp hfits)
    have hstep : run.step ⟨.insert key content, now, now'⟩ = run := by
      show (⟨run.cache.insert key content now now', run.used ++ Option.toList
        (if databaseCacheBytes < content.length then none else some key)⟩ : CacheRun) = run
      rw [hcache, if_pos (not_le.mp hfits), Option.toList_none, List.append_nil]
    rw [hstep]
    refine ⟨h.sound, h.order, fun k entry hk => ?_⟩
    have hnone : CacheCall.inserts k ⟨.insert key content, now, now'⟩ = none :=
      if_neg fun hsame => hfits hsame.2
    rw [lastInserted_concat, hnone, Option.none_or]
    exact h.content k entry hk

lemma runCalls_tracks (calls : List CacheCall) : (runCalls calls).Tracks calls := by
  induction calls using List.reverseRecOn with
  | nil => exact CacheRun.tracks_nil
  | append_singleton calls call ih =>
    rw [runCalls, List.foldl_append, List.foldl_cons, List.foldl_nil]
    obtain ⟨request, now, now'⟩ := call
    cases request with
    | get key => exact ih.get key now now'
    | insert key content => exact ih.insert key content now now'

/-- **The cache of database assets** after any calls at any instants: its bytes are those of the
contents and within the limit; its order lists the keys, each once, by their last use; `get` returns
what has been inserted last under the key; and content that fits is inserted, with only the entries
dropped that have been used least recently, as far as they must be. -/
theorem databaseAssetCache_of_calls (calls : List CacheCall) :
    let cache := (runCalls calls).cache
    (cache.bytes = weight (fun entry => entry.content.length) cache.entries ∧
      cache.bytes ≤ databaseCacheBytes) ∧
    (cache.order.Nodup ∧ cache.order.Perm cache.entries.keys ∧
      cache.order.Sublist (runCalls calls).used.dedup) ∧
    (∀ key content now now', (cache.get key now now').1 = some content →
      lastInserted calls key = some content) ∧
    ∀ key content now now', content.length ≤ databaseCacheBytes →
      Inserted (cache.removeExpired now) (cache.insert key content now now') key content := by
  have h := runCalls_tracks calls
  refine ⟨⟨h.sound.bytes, h.sound.bounded⟩, ⟨h.sound.listed.nodup, h.sound.listed.perm, h.order⟩,
    fun key content now now' hget => h.get_content hget, fun key content now now' hfits => ?_⟩
  exact (h.sound.insert key hfits now now').2

end Runs

end Storage
