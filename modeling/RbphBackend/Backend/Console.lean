import Mathlib.Data.List.Basic
import Mathlib.Data.List.Induction
import Mathlib.Algebra.Ring.Nat
import Mathlib.Algebra.BigOperators.Group.List.Basic

set_option relaxedAutoImplicit false
set_option autoImplicit false

/-!
# The console of a puzzle backend

What a puzzle backend writes to its console while a function runs is captured and shown to the
author. The number of messages, the bytes of each and the bytes of all are limited. A message that
does not fit is cut at a character, and from then on nothing is captured.

## Main definitions

* `Backend.Console.truncateUtf8`, `Backend.Console.BackendConsoleCapture.push` —
  `module/puzzle_backend_js/host.rs`.
* `Backend.Console.Captured` — what a capture tells of the messages that were pushed.

## Main results

* `Backend.Console.captured_pushAll` — a capture holds the first messages, and it says so when it
  lacks any.
-/

namespace Backend

namespace Console

def maxConsoleEntries : ℕ := 100

def maxConsoleEntryBytes : ℕ := 4 * 1024

def maxConsoleTotalBytes : ℕ := 64 * 1024

inductive HostConsoleLevel where
  | debug
  | log
  | info
  | warn
  | error
  deriving DecidableEq

def HostConsoleLevel.asStr : HostConsoleLevel → String
  | debug => "debug"
  | log => "log"
  | info => "info"
  | warn => "warn"
  | error => "error"

/-! ## Cutting at a character -/

/-- The number of bytes of some characters. -/
def byteSize (chars : List Char) : ℕ := (chars.map Char.utf8Size).sum

/-- `is_char_boundary`. -/
def isCharBoundary : List Char → ℕ → Bool
  | _, 0 => true
  | [], _ + 1 => false
  | c :: cs, n => decide (c.utf8Size ≤ n) && isCharBoundary cs (n - c.utf8Size)

/-- The characters before a byte position, for `String::truncate`. -/
def charsBefore : List Char → ℕ → List Char
  | [], _ => []
  | c :: cs, n => if c.utf8Size ≤ n then c :: charsBefore cs (n - c.utf8Size) else []

/-- The loop of `truncate_utf8`: the last boundary up to a position. -/
def boundaryUpTo (chars : List Char) : ℕ → ℕ
  | 0 => 0
  | n + 1 => if isCharBoundary chars (n + 1) then n + 1 else boundaryUpTo chars n

def truncateUtf8 (value : String) (maxBytes : ℕ) : String × Bool :=
  if value.utf8ByteSize ≤ maxBytes then (value, false)
  else (String.ofList (charsBefore value.toList (boundaryUpTo value.toList maxBytes)), true)

/-! ## The capture -/

structure BackendConsoleEntry where
  level : String
  message : String
  deriving DecidableEq

structure BackendConsoleCapture where
  entries : List BackendConsoleEntry := []
  bytes : ℕ := 0
  truncated : Bool := false
  deriving DecidableEq

namespace BackendConsoleCapture

def push (self : BackendConsoleCapture) (level : HostConsoleLevel) (message : String) :
    BackendConsoleCapture :=
  if self.truncated ∨ maxConsoleEntries ≤ self.entries.length ∨
      maxConsoleTotalBytes ≤ self.bytes then
    { self with truncated := true }
  else
    let remaining := maxConsoleTotalBytes - self.bytes
    let maxBytes := min remaining maxConsoleEntryBytes
    let (message, entryTruncated) := truncateUtf8 message maxBytes
    { entries := self.entries ++ [⟨level.asStr, message⟩]
      bytes := self.bytes + message.utf8ByteSize
      truncated := self.truncated || entryTruncated }

/-- What is captured of the messages that are pushed. -/
def pushAll (messages : List (HostConsoleLevel × String)) : BackendConsoleCapture :=
  messages.foldl (fun capture message => capture.push message.1 message.2) {}

end BackendConsoleCapture

/-- The entry of a message that is captured as it is. -/
def verbatim (message : HostConsoleLevel × String) : BackendConsoleEntry :=
  ⟨message.1.asStr, message.2⟩

/-- The last entry may hold the first characters of its message only. -/
def CutOf (entry : BackendConsoleEntry) (message : HostConsoleLevel × String) : Prop :=
  entry.level = message.1.asStr ∧ entry.message.toList <+: message.2.toList

/-- A capture of messages: it holds the first ones, the last of them perhaps cut at a character,
within the limits, and it tells when something is missing. -/
structure Captured (messages : List (HostConsoleLevel × String)) (capture : BackendConsoleCapture) :
    Prop where
  entries : capture.entries = (messages.take capture.entries.length).map verbatim ∨
    ∃ first entry message, capture.entries = first.map verbatim ++ [entry] ∧
      first ++ [message] <+: messages ∧ CutOf entry message
  count : capture.entries.length ≤ maxConsoleEntries
  entryBytes : ∀ entry ∈ capture.entries, entry.message.utf8ByteSize ≤ maxConsoleEntryBytes
  bytes : capture.bytes = (capture.entries.map fun entry => entry.message.utf8ByteSize).sum
  total : capture.bytes ≤ maxConsoleTotalBytes
  truncated : capture.truncated = true ↔ capture.entries ≠ messages.map verbatim

/-! ## What is cut off -/

section Cut

variable {value : String} {maxBytes : ℕ}

lemma byteSize_cons (c : Char) (cs : List Char) :
    byteSize (c :: cs) = c.utf8Size + byteSize cs := by
  rw [byteSize, List.map_cons, List.sum_cons, byteSize]

lemma utf8ByteSize_ofList (chars : List Char) :
    (String.ofList chars).utf8ByteSize = byteSize chars := by
  induction chars with
  | nil => rfl
  | cons c cs ih =>
    have hsplit : String.ofList (c :: cs) = String.ofList [c] ++ String.ofList cs := by
      rw [← String.ofList_append, List.singleton_append]
    rw [hsplit, String.utf8ByteSize_append, ih, byteSize_cons, ← String.singleton_eq_ofList,
      String.utf8ByteSize_singleton]

lemma charsBefore_prefix (chars : List Char) (n : ℕ) : charsBefore chars n <+: chars := by
  induction chars generalizing n with
  | nil => exact List.nil_prefix
  | cons c cs ih =>
    rw [charsBefore]
    split
    · exact List.cons_prefix_cons.mpr ⟨rfl, ih _⟩
    · exact List.nil_prefix

lemma byteSize_charsBefore_le (chars : List Char) (n : ℕ) : byteSize (charsBefore chars n) ≤ n := by
  induction chars generalizing n with
  | nil => exact Nat.zero_le n
  | cons c cs ih =>
    rw [charsBefore]
    split
    · have hrest := ih (n - c.utf8Size)
      rw [byteSize_cons]
      omega
    · exact Nat.zero_le n

lemma boundaryUpTo_le (chars : List Char) (n : ℕ) : boundaryUpTo chars n ≤ n := by
  induction n with
  | zero => exact le_rfl
  | succ n ih =>
    rw [boundaryUpTo]
    split
    · exact le_rfl
    · omega

/-- A text is cut to its first characters, and only if it is too long. -/
lemma truncateUtf8_spec (value : String) (maxBytes : ℕ) :
    (truncateUtf8 value maxBytes).1.toList <+: value.toList ∧
      (truncateUtf8 value maxBytes).1.utf8ByteSize ≤ maxBytes ∧
      ((truncateUtf8 value maxBytes).2 = true ↔ (truncateUtf8 value maxBytes).1 ≠ value) := by
  unfold truncateUtf8
  split
  · rename_i hfits
    exact ⟨List.prefix_rfl, hfits, by simp⟩
  · rename_i hlong
    have hsize : (String.ofList
        (charsBefore value.toList (boundaryUpTo value.toList maxBytes))).utf8ByteSize ≤
        maxBytes := by
      rw [utf8ByteSize_ofList]
      exact (byteSize_charsBefore_le _ _).trans (boundaryUpTo_le _ _)
    refine ⟨?_, hsize, iff_of_true rfl fun heq => hlong (heq ▸ hsize)⟩
    rw [String.toList_ofList]
    exact charsBefore_prefix _ _

end Cut

/-! ## What a capture holds -/

section Capture

variable {messages : List (HostConsoleLevel × String)} {capture : BackendConsoleCapture}

namespace Captured

lemma length_le (h : Captured messages capture) : capture.entries.length ≤ messages.length := by
  rcases h.entries with hentries | ⟨first, entry, message, hentries, hfirst, -⟩
  · rw [hentries, List.length_map]
    exact List.length_take_le' _ _
  · have hlength := hfirst.length_le
    rw [hentries]
    simpa using hlength

lemma nil : Captured [] {} where
  entries := .inl rfl
  count := Nat.zero_le _
  entryBytes _ h := by cases h
  bytes := rfl
  total := Nat.zero_le _
  truncated := by simp

/-- A message that is dropped. -/
lemma drop (h : Captured messages capture) (message : HostConsoleLevel × String) :
    Captured (messages ++ [message]) { capture with truncated := true } where
  entries := by
    rcases h.entries with hentries | ⟨first, entry, last, hentries, hfirst, hcut⟩
    · refine .inl ?_
      rw [List.take_append_of_le_length h.length_le]
      exact hentries
    · exact .inr ⟨first, entry, last, hentries, hfirst.trans (List.prefix_append _ _), hcut⟩
  count := h.count
  entryBytes := h.entryBytes
  bytes := h.bytes
  total := h.total
  truncated := by
    refine iff_of_true rfl fun heq => ?_
    have hlength := congrArg List.length heq
    have hle := h.length_le
    simp only [List.length_map, List.length_append, List.length_singleton] at hlength
    omega

/-- A message that is captured, perhaps cut. -/
lemma take (h : Captured messages capture) (hopen : capture.truncated = false)
    (hcount : capture.entries.length < maxConsoleEntries) (message : HostConsoleLevel × String)
    {text : String} {cut : Bool} (htext : text.toList <+: message.2.toList)
    (hsize : text.utf8ByteSize ≤ min (maxConsoleTotalBytes - capture.bytes) maxConsoleEntryBytes)
    (hcut : cut = true ↔ text ≠ message.2) :
    Captured (messages ++ [message])
      ⟨capture.entries ++ [⟨message.1.asStr, text⟩], capture.bytes + text.utf8ByteSize, cut⟩ := by
  have hall : capture.entries = messages.map verbatim := by
    by_contra hne
    rw [h.truncated.mpr hne] at hopen
    cases hopen
  have htotal := h.total
  refine ⟨.inr ⟨messages, _, message, by rw [hall], List.prefix_rfl, rfl, htext⟩,
    ?_, ?_, ?_, ?_, ?_⟩
  · rw [List.length_append, List.length_singleton]
    exact hcount
  · intro entry hentry
    rcases List.mem_append.mp hentry with hentry | hentry
    · exact h.entryBytes entry hentry
    · obtain rfl := List.mem_singleton.mp hentry
      exact hsize.trans (min_le_right _ _)
  · rw [List.map_append, List.sum_append, ← h.bytes, List.map_singleton, List.sum_singleton]
  · show capture.bytes + text.utf8ByteSize ≤ maxConsoleTotalBytes
    omega
  · rw [hcut, hall, List.map_append, Ne, Ne, List.append_cancel_left_eq, List.map_singleton,
      List.singleton_inj, verbatim, BackendConsoleEntry.mk.injEq]
    exact not_congr (by simp)

/-- One message. -/
lemma push (h : Captured messages capture) (level : HostConsoleLevel) (message : String) :
    Captured (messages ++ [(level, message)]) (capture.push level message) := by
  unfold BackendConsoleCapture.push
  split
  · exact h.drop (level, message)
  · rename_i hfull
    obtain ⟨hopen, hcount, -⟩ := not_or.mp hfull |>.imp_right not_or.mp
    have hopen' : capture.truncated = false := by simpa using hopen
    obtain ⟨htext, hsize, hcut⟩ := truncateUtf8_spec message
      (min (maxConsoleTotalBytes - capture.bytes) maxConsoleEntryBytes)
    have htake := h.take hopen' (not_le.mp hcount) (level, message) htext hsize hcut
    simpa only [hopen', Bool.false_or] using htake

end Captured

/-- **A capture holds the first messages**, whatever is pushed: all as they are but the last, which
may be cut at a character. It keeps to its limits, and it tells whether a message is missing or
cut. -/
theorem captured_pushAll (messages : List (HostConsoleLevel × String)) :
    Captured messages (BackendConsoleCapture.pushAll messages) := by
  induction messages using List.reverseRecOn with
  | nil => exact Captured.nil
  | append_singleton messages message ih =>
    rw [BackendConsoleCapture.pushAll, List.foldl_append, List.foldl_cons, List.foldl_nil]
    exact ih.push message.1 message.2

/-- A character that does not fit is not split. -/
example : truncateUtf8 "aé" 2 = ("a", true) := by decide

end Capture

end Console

end Backend
