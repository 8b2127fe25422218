import RbphBackend.Numeric.Base64
import RbphBackend.Numeric.Calendar
import RbphBackend.Threads.Items

set_option relaxedAutoImplicit false
set_option autoImplicit false

/-!
# The text of a place

A place is sent as a JSON document of the text of its time, its rank and its id, in base 64. Writing
and reading the document is left to a library.

## Main definitions

* `Threads.CursorJson` — a writer and a reader of documents, `Threads.CursorJson.Faithful`.
* `Threads.TicketCursor.encode`, `Threads.TicketCursor.decode` — the text of a place.
* `Threads.CursorJson.compact` — documents without blanks, which are read in the same form.

## Main results

* `Threads.TicketCursor.decode_encode` — a place is found again from its text.
* `Threads.CursorJson.compact_faithful` — compact documents are found again.
-/

namespace Threads

/-- The document of a cursor. -/
structure CursorDocument where
  atTime : List Char
  rank : ℤ
  id : ℤ
  deriving DecidableEq

/-- A character that JSON does not escape: of ASCII, neither a control character nor a delimiter of
strings. -/
def Plain (c : Char) : Prop := 32 ≤ c.toNat ∧ c.toNat < 127 ∧ c ≠ '"' ∧ c ≠ '\\'

instance (c : Char) : Decidable (Plain c) := inferInstanceAs (Decidable (_ ∧ _))

/-- The text is plain, and the numbers are of the widths of their types. -/
structure CursorDocument.Storable (d : CursorDocument) : Prop where
  plain : ∀ c ∈ d.atTime, Plain c
  rank : -128 ≤ d.rank ∧ d.rank < 128
  id : -2147483648 ≤ d.id ∧ d.id < 2147483648

/-- `serde_json::to_vec` and `serde_json::from_slice`, on documents of cursors. -/
structure CursorJson where
  write : CursorDocument → List UInt8
  read : List UInt8 → Option CursorDocument

/-- What is written is read again. -/
def CursorJson.Faithful (json : CursorJson) : Prop :=
  ∀ d : CursorDocument, d.Storable → json.read (json.write d) = some d

namespace TicketCursor

/-- The document of a place. -/
def document (c : TicketCursor) : CursorDocument :=
  ⟨Numeric.formatOffsetDatetime c.atTime, c.rank, c.id⟩

/-- `TicketCursor::encode`. -/
def encode (json : CursorJson) (c : TicketCursor) : List Char :=
  Numeric.Base64.encode (json.write c.document)

/-- `TicketCursor::decode`. -/
def decode (json : CursorJson) (text : List Char) : Option TicketCursor := do
  let bytes ← Numeric.Base64.decode text
  let d ← json.read bytes
  let t ← Numeric.parseOffsetDatetime d.atTime
  some ⟨t, d.rank, d.id⟩

/-- The numbers of the place are of the widths of their types, and its year has four digits. -/
structure Storable (c : TicketCursor) : Prop where
  year : Numeric.FourDigitYear c.atTime
  rank : -128 ≤ c.rank ∧ c.rank < 128
  id : -2147483648 ≤ c.id ∧ c.id < 2147483648

end TicketCursor

/-! ## A place from its text -/

/-- What holds of the characters of a text, one by one. -/
lemma forall_mem_of_all {p : Char → Prop} [DecidablePred p] {s : List Char}
    (h : s.all (fun c => decide (p c)) = true) : ∀ c ∈ s, p c :=
  fun c hc => of_decide_eq_true (List.all_eq_true.1 h c hc)

lemma plain_digits {w n : ℕ} {c : Char} (h : c ∈ Numeric.digits w n) : Plain c := by
  induction w generalizing n with
  | zero => cases h
  | succ w ih =>
    rw [Numeric.digits, List.mem_append, List.mem_singleton] at h
    rcases h with h | rfl
    · exact ih h
    · have hall : ∀ d < 10, Plain (Char.ofNat (48 + d)) := by decide
      exact hall (n % 10) (Nat.mod_lt n (by decide))

lemma plain_append {s s' : List Char} (h : ∀ c ∈ s, Plain c) (h' : ∀ c ∈ s', Plain c) :
    ∀ c ∈ s ++ s', Plain c := List.forall_mem_append.2 ⟨h, h'⟩

lemma plain_cons_digits {a : Char} (ha : Plain a) (w n : ℕ) :
    ∀ c ∈ a :: Numeric.digits w n, Plain c :=
  List.forall_mem_cons.2 ⟨ha, fun _ => plain_digits⟩

/-- The text of an instant is plain. -/
lemma plain_formatOffsetDatetime (t : ℤ) : ∀ c ∈ Numeric.formatOffsetDatetime t, Plain c := by
  unfold Numeric.formatOffsetDatetime Numeric.formatParts
  refine plain_append (plain_append (plain_append (plain_append (plain_append (plain_append
    (plain_append (fun _ => plain_digits) ?_) ?_) ?_) ?_) ?_) ?_) (forall_mem_of_all rfl)
  all_goals exact plain_cons_digits (by decide) _ _

lemma TicketCursor.Storable.document {c : TicketCursor} (h : c.Storable) : c.document.Storable :=
  ⟨plain_formatOffsetDatetime _, h.rank, h.id⟩

namespace TicketCursor

variable {json : CursorJson} {c d : TicketCursor}

/-- **A place is found again** from its text. -/
theorem decode_encode (hjson : json.Faithful) (h : c.Storable) :
    decode json (encode json c) = some c := by
  simp only [decode, encode, Numeric.Base64.decode_encode, Option.bind_eq_bind, Option.bind_some,
    hjson _ h.document]
  simp only [document, Numeric.parseOffsetDatetime_format h.year, Option.bind_some]

/-- Places are told apart by their texts. -/
lemma encode_inj (hjson : json.Faithful) (h : c.Storable) (h' : d.Storable) :
    encode json c = encode json d ↔ c = d := by
  refine ⟨fun heq => ?_, congrArg _⟩
  have hdecode := decode_encode hjson h
  rw [heq, decode_encode hjson h', Option.some.injEq] at hdecode
  exact hdecode.symm

end TicketCursor

/-! ## Compact documents -/

namespace CursorJson

/-- The text of a number. -/
def writeInt : ℤ → List Char
  | .ofNat n => Nat.toDigits 10 n
  | .negSucc n => '-' :: Nat.toDigits 10 (n + 1)

/-- A number that a text begins with, and the rest. -/
def readInt (s : List Char) : ℤ × List Char :=
  match s with
  | '-' :: s => (-(Nat.ofDigitChars 10 (s.takeWhile Char.isDigit) 0 : ℕ), s.dropWhile Char.isDigit)
  | s => ((Nat.ofDigitChars 10 (s.takeWhile Char.isDigit) 0 : ℕ), s.dropWhile Char.isDigit)

/-- The rest of a text that begins with another. -/
def strip (start s : List Char) : Option (List Char) :=
  if start.isPrefixOf s then some (s.drop start.length) else none

/-- The member names of a document, with what is around them. -/
def opening : List Char := ['{', '"', 'a', 't', '"', ':', '"']

@[inherit_doc opening]
def rankMember : List Char := ['"', ',', '"', 'r', 'a', 'n', 'k', '"', ':']

@[inherit_doc opening]
def idMember : List Char := [',', '"', 'i', 'd', '"', ':']

/-- A document without blanks, with its members in order. -/
def text (d : CursorDocument) : List Char :=
  opening ++ (d.atTime ++ (rankMember ++ (writeInt d.rank ++
    (idMember ++ (writeInt d.id ++ ['}'])))))

/-- The document of a text in that form. -/
def ofText (s : List Char) : Option CursorDocument := do
  let s ← strip opening s
  let atTime := s.takeWhile (· ≠ '"')
  let s ← strip rankMember (s.dropWhile (· ≠ '"'))
  let (rank, s) := readInt s
  let s ← strip idMember s
  let (id, s) := readInt s
  if s = ['}'] then some ⟨atTime, rank, id⟩ else none

/-- Documents without blanks, with their members in order. -/
def compact : CursorJson where
  write d := (text d).map fun c => UInt8.ofNat c.toNat
  read data := ofText (data.map fun b => Char.ofNat b.toNat)

lemma takeWhile_digits (n : ℕ) {s : List Char} (hs : ∀ c ∈ s.head?, ¬ c.isDigit) :
    (Nat.toDigits 10 n ++ s).takeWhile Char.isDigit = Nat.toDigits 10 n ∧
      (Nat.toDigits 10 n ++ s).dropWhile Char.isDigit = s := by
  have hall : ∀ c ∈ Nat.toDigits 10 n, c.isDigit = true := fun c hc =>
    Nat.isDigit_of_mem_toDigits (by decide) (by decide) hc
  constructor
  · rw [List.takeWhile_append_of_pos hall]
    cases s with
    | nil => simp
    | cons c s => simp [hs c rfl]
  · rw [List.dropWhile_append_of_pos hall]
    cases s with
    | nil => rfl
    | cons c s => simp [hs c rfl]

lemma readInt_writeInt (n : ℤ) {s : List Char} (hs : ∀ c ∈ s.head?, ¬ c.isDigit) :
    readInt (writeInt n ++ s) = (n, s) := by
  cases n with
  | ofNat n =>
    obtain ⟨htake, hdrop⟩ := takeWhile_digits n hs
    have hfirst : ∀ s', Nat.toDigits 10 n ++ s ≠ '-' :: s' := by
      intro s' heq
      obtain ⟨c, digits, hdigits⟩ :=
        List.exists_cons_of_ne_nil (Nat.toDigits_ne_nil (n := n) (b := 10))
      rw [hdigits, List.cons_append, List.cons.injEq] at heq
      have hdigit : c.isDigit = true :=
        Nat.isDigit_of_mem_toDigits (by decide) (by decide) (hdigits ▸ List.mem_cons_self)
      rw [heq.1] at hdigit
      exact absurd hdigit (by decide)
    unfold readInt writeInt
    split
    · exact absurd ‹_› (hfirst _)
    · rw [htake, hdrop, Nat.ofDigitChars_ten_toDigits]
      rfl
  | negSucc n =>
    obtain ⟨htake, hdrop⟩ := takeWhile_digits (n + 1) hs
    simp only [readInt, writeInt, List.cons_append, htake, hdrop, Nat.ofDigitChars_ten_toDigits]
    rfl

lemma strip_append (start s : List Char) : strip start (start ++ s) = some s := by
  rw [strip, if_pos (List.isPrefixOf_iff_prefix.2 (List.prefix_append _ _)), List.drop_left]

/-- Characters of one byte are found again from their bytes. -/
lemma map_ofNat_toNat {s : List Char} (h : ∀ c ∈ s, c.toNat < 256) :
    (s.map fun c => UInt8.ofNat c.toNat).map (fun b => Char.ofNat b.toNat) = s := by
  rw [List.map_map]
  refine (List.map_congr_left fun c hc => ?_).trans (List.map_id s)
  have hlt : c.toNat < 256 := h c hc
  show Char.ofNat (UInt8.ofNat c.toNat).toNat = c
  rw [UInt8.toNat_ofNat', Nat.mod_eq_of_lt hlt, Char.ofNat_toNat]

lemma lt_of_mem_writeInt {n : ℤ} {c : Char} (h : c ∈ writeInt n) : c.toNat < 256 := by
  have hdigits : ∀ {m : ℕ}, c ∈ Nat.toDigits 10 m → c.toNat < 256 := by
    intro m hc
    have hdigit := Nat.isDigit_of_mem_toDigits (by decide) (by decide) hc
    rw [Char.isDigit, Bool.and_eq_true, decide_eq_true_iff, decide_eq_true_iff] at hdigit
    have hle : c.toNat ≤ 57 := hdigit.2
    omega
  cases n with
  | ofNat n => exact hdigits h
  | negSucc n =>
    rcases List.mem_cons.1 h with rfl | h
    · decide
    · exact hdigits h

lemma ofText_text {d : CursorDocument} (h : d.Storable) : ofText (text d) = some d := by
  have hquote : ∀ c ∈ d.atTime, decide (c ≠ '"') = true := fun c hc =>
    decide_eq_true (h.plain c hc).2.2.1
  have hrank : ∀ s, readInt (writeInt d.rank ++ (idMember ++ s)) = (d.rank, idMember ++ s) :=
    fun s => readInt_writeInt d.rank (by rintro c ⟨⟩; decide)
  have hid : readInt (writeInt d.id ++ ['}']) = (d.id, ['}']) :=
    readInt_writeInt d.id (by rintro c ⟨⟩; decide)
  have htake : ∀ s, (d.atTime ++ (rankMember ++ s)).takeWhile (· ≠ '"') = d.atTime := by
    intro s
    rw [List.takeWhile_append_of_pos hquote]
    exact List.append_nil _
  have hdrop : ∀ s, (d.atTime ++ (rankMember ++ s)).dropWhile (· ≠ '"') = rankMember ++ s := by
    intro s
    rw [List.dropWhile_append_of_pos hquote]
    rfl
  simp only [ofText, text, strip_append, Option.bind_eq_bind, Option.bind_some, htake, hdrop, hrank,
    hid, if_true]

lemma lt_of_mem_text {d : CursorDocument} (h : d.Storable) : ∀ c ∈ text d, c.toNat < 256 := by
  have hplain : ∀ c ∈ d.atTime, c.toNat < 256 := by
    intro c hc
    have hlt := (h.plain c hc).2.1
    omega
  simp only [text, List.forall_mem_append]
  exact ⟨forall_mem_of_all rfl, hplain, forall_mem_of_all rfl, fun _ => lt_of_mem_writeInt,
    forall_mem_of_all rfl, fun _ => lt_of_mem_writeInt, forall_mem_of_all rfl⟩

/-- **Compact documents are found again.** -/
theorem compact_faithful : compact.Faithful := by
  intro d hd
  show ofText (((text d).map fun c => UInt8.ofNat c.toNat).map fun b => Char.ofNat b.toNat) = some d
  rw [map_ofNat_toNat (lt_of_mem_text hd), ofText_text hd]

example : String.ofList (text ⟨['t'], 1, -20⟩) = "\x7b\"at\":\"t\",\"rank\":1,\"id\":-20\x7d" := by
  decide

end CursorJson

end Threads
