import Mathlib.Data.Nat.Notation
import Mathlib.Tactic.Basic

set_option relaxedAutoImplicit false
set_option autoImplicit false

/-!
# Parsing S-expressions

The text of a condition is cut into tokens, and the tokens are read as one S-expression. The
reader takes a list of tokens and leaves the tokens it has not used, which are fewer.

## Main definitions

* `Expr.tokenize`, `Expr.parseExpr`, `Expr.parse` — the tokenizer, the reader and both in a row.
* `Expr.RawSexpr.tokens`, `Expr.RawSexpr.print` — the tokens and a text of an S-expression.

## Main results

* `Expr.reads_of_tokens` — reading the tokens of an S-expression gives it back.
* `Expr.parse_print` — parsing a text of an S-expression gives it back.
-/

namespace Expr

inductive Token where
  | lparen
  | rparen
  | atom (a : String)
  deriving DecidableEq

inductive ParseError where
  | unexpectedEof
  | unexpectedToken (token : String)
  | unbalancedParen
  deriving DecidableEq

inductive RawSexpr where
  | atom (a : String)
  | list (items : List RawSexpr)

/-! ## Tokens -/

/-- `char::is_whitespace`, the Unicode property `White_Space`. -/
def isWhitespace (c : Char) : Bool :=
  (9 ≤ c.toNat && c.toNat ≤ 13) || c.toNat = 0x20 || c.toNat = 0x85 || c.toNat = 0xa0 ||
    c.toNat = 0x1680 || (0x2000 ≤ c.toNat && c.toNat ≤ 0x200a) || c.toNat = 0x2028 ||
    c.toNat = 0x2029 || c.toNat = 0x202f || c.toNat = 0x205f || c.toNat = 0x3000

/-- The characters read since the last token, as one. -/
def flush (buf : List Char) : List Token :=
  if buf.isEmpty then [] else [.atom (String.ofList buf)]

/-- The loop of `tokenize`. -/
def tokenizeFrom (buf : List Char) : List Char → List Token
  | [] => flush buf
  | c :: cs =>
    if c = '(' then flush buf ++ .lparen :: tokenizeFrom [] cs
    else if c = ')' then flush buf ++ .rparen :: tokenizeFrom [] cs
    else if isWhitespace c then flush buf ++ tokenizeFrom [] cs
    else tokenizeFrom (buf ++ [c]) cs

def tokenize (expr : String) : List Token := tokenizeFrom [] expr.toList

/-! ## The reader -/

mutual

/-- `parse_at`, on the tokens from the index on. -/
def parseAt (tokens : List Token) :
    Except ParseError (RawSexpr × {rest : List Token // rest.length < tokens.length}) :=
  match tokens with
  | [] => .error .unexpectedEof
  | .lparen :: tokens => do
    let (items, ⟨rest, hrest⟩) ← parseItems tokens
    return (.list items, ⟨rest, Nat.lt_succ_of_lt hrest⟩)
  | .rparen :: _ => .error (.unexpectedToken ")")
  | .atom a :: tokens => .ok (.atom a, ⟨tokens, Nat.lt_succ_self _⟩)
termination_by (tokens.length, 0)

/-- The loop of `parse_at` over the items of a list. -/
def parseItems (tokens : List Token) :
    Except ParseError (List RawSexpr × {rest : List Token // rest.length < tokens.length}) :=
  match tokens with
  | [] => .error .unexpectedEof
  | .rparen :: tokens => .ok ([], ⟨tokens, Nat.lt_succ_self _⟩)
  | token :: tokens => do
    let (item, ⟨rest, hrest⟩) ← parseAt (token :: tokens)
    let (items, ⟨rest', hrest'⟩) ← parseItems rest
    return (item :: items, ⟨rest', Nat.lt_trans hrest' hrest⟩)
termination_by (tokens.length, 1)

end

def parseExpr (tokens : List Token) :
    Except ParseError (RawSexpr × {rest : List Token // rest.length < tokens.length}) :=
  parseAt tokens

/-- Why a text is not accepted as an S-expression. -/
inductive ParseFailure where
  | parse (e : ParseError)
  | trailingTokens
  deriving DecidableEq

def parse (expr : String) : Except ParseFailure RawSexpr :=
  match parseExpr (tokenize expr) with
  | .error e => .error (.parse e)
  | .ok (sexpr, ⟨rest, _⟩) => if rest ≠ [] then .error .trailingTokens else .ok sexpr

/-! ## What is read back -/

namespace RawSexpr

mutual

/-- The tokens of an S-expression. -/
def tokens : RawSexpr → List Token
  | .atom a => [.atom a]
  | .list items => .lparen :: (tokensOf items ++ [.rparen])

/-- The tokens of the items of a list. -/
def tokensOf : List RawSexpr → List Token
  | [] => []
  | item :: items => item.tokens ++ tokensOf items

end

mutual

/-- A text of an S-expression. -/
def print : RawSexpr → List Char
  | .atom a => a.toList
  | .list items => '(' :: (printOf items ++ [')'])

/-- A text of the items of a list, with a space before each. -/
def printOf : List RawSexpr → List Char
  | [] => []
  | item :: items => ' ' :: (item.print ++ printOf items)

end

mutual

/-- Every atom has a character, and none that ends an atom. -/
def Plain : RawSexpr → Prop
  | .atom a => a.toList ≠ [] ∧ ∀ c ∈ a.toList, c ≠ '(' ∧ c ≠ ')' ∧ isWhitespace c = false
  | .list items => PlainOf items

/-- The same of the items of a list. -/
def PlainOf : List RawSexpr → Prop
  | [] => True
  | item :: items => item.Plain ∧ PlainOf items

end

/-- The tokens begin with one that a list does not end with. -/
lemma tokens_ne_rparen (s : RawSexpr) (rest : List Token) :
    ∃ token tokens, s.tokens ++ rest = token :: tokens ∧ token ≠ .rparen := by
  cases s with
  | atom a => exact ⟨.atom a, rest, rfl, by simp⟩
  | list items => exact ⟨.lparen, _, rfl, by simp⟩

end RawSexpr

open RawSexpr

/-- The reader gives the S-expression and leaves the rest. -/
def Reads (tokens : List Token) (s : RawSexpr) (rest : List Token) : Prop :=
  ∃ h, parseAt tokens = .ok (s, ⟨rest, h⟩)

/-- The loop gives the items and leaves the rest. -/
def ReadsItems (tokens : List Token) (items : List RawSexpr) (rest : List Token) : Prop :=
  ∃ h, parseItems tokens = .ok (items, ⟨rest, h⟩)

lemma reads_atom (a : String) (rest : List Token) : Reads (.atom a :: rest) (.atom a) rest :=
  ⟨Nat.lt_succ_self _, by rw [parseAt]⟩

lemma readsItems_nil (rest : List Token) : ReadsItems (.rparen :: rest) [] rest :=
  ⟨Nat.lt_succ_self _, by rw [parseItems]⟩

lemma ReadsItems.list {tokens rest : List Token} {items : List RawSexpr}
    (h : ReadsItems tokens items rest) : Reads (.lparen :: tokens) (.list items) rest := by
  obtain ⟨hlt, heq⟩ := h
  refine ⟨Nat.lt_succ_of_lt hlt, ?_⟩
  rw [parseAt, heq]
  rfl

/-- The loop reads an item where it does not find the end of the list. -/
lemma Reads.cons {token : Token} {tokens rest rest' : List Token} {item : RawSexpr}
    {items : List RawSexpr} (h : Reads (token :: tokens) item rest) (hne : token ≠ .rparen)
    (h' : ReadsItems rest items rest') : ReadsItems (token :: tokens) (item :: items) rest' := by
  obtain ⟨hlt, heq⟩ := h
  obtain ⟨hlt', heq'⟩ := h'
  refine ⟨Nat.lt_trans hlt' hlt, ?_⟩
  have hloop : parseItems (token :: tokens) = (do
      let (item, ⟨rest, hrest⟩) ← parseAt (token :: tokens)
      let (items, ⟨rest', hrest'⟩) ← parseItems rest
      return (item :: items, ⟨rest', Nat.lt_trans hrest' hrest⟩)) := by
    cases token with
    | rparen => exact absurd rfl hne
    | lparen => rw [parseItems]; simp
    | atom a => rw [parseItems]; simp
  rw [hloop, heq]
  show Except.bind (parseItems rest) _ = _
  rw [heq']
  rfl

mutual

/-- The reader reads an S-expression and leaves the rest. -/
lemma reads_tokens (s : RawSexpr) (rest : List Token) : Reads (s.tokens ++ rest) s rest := by
  cases s with
  | atom a => exact reads_atom a rest
  | list items =>
    have happ : (RawSexpr.list items).tokens ++ rest =
        .lparen :: (tokensOf items ++ .rparen :: rest) := by
      simp [tokens]
    rw [happ]
    exact (readsItems_tokensOf items rest).list

/-- The loop reads the items of a list, and leaves what is behind its end. -/
lemma readsItems_tokensOf (items : List RawSexpr) (rest : List Token) :
    ReadsItems (tokensOf items ++ .rparen :: rest) items rest := by
  cases items with
  | nil => exact readsItems_nil rest
  | cons item items =>
    have happ : tokensOf (item :: items) ++ .rparen :: rest =
        item.tokens ++ (tokensOf items ++ .rparen :: rest) := by
      simp [tokensOf]
    have hitem := reads_tokens item (tokensOf items ++ .rparen :: rest)
    obtain ⟨token, ts, hts, hne⟩ := item.tokens_ne_rparen (tokensOf items ++ .rparen :: rest)
    rw [happ, hts]
    rw [hts] at hitem
    exact hitem.cons hne (readsItems_tokensOf items rest)

end

/-- **Reading the tokens of an S-expression** gives it back. -/
theorem reads_of_tokens (s : RawSexpr) : Reads s.tokens s [] := by
  have h := reads_tokens s []
  rwa [List.append_nil] at h

lemma parse_of_reads {expr : String} {s : RawSexpr} (h : Reads (tokenize expr) s []) :
    parse expr = .ok s := by
  obtain ⟨hlt, heq⟩ := h
  rw [parse, parseExpr, heq]
  rfl

/-- Characters that do not end an atom wait for one that does. -/
lemma tokenizeFrom_plain {as : List Char}
    (h : ∀ c ∈ as, c ≠ '(' ∧ c ≠ ')' ∧ isWhitespace c = false) (buf cs : List Char) :
    tokenizeFrom buf (as ++ cs) = tokenizeFrom (buf ++ as) cs := by
  induction as generalizing buf with
  | nil => rw [List.nil_append, List.append_nil]
  | cons a as ih =>
    obtain ⟨h₁, h₂, h₃⟩ := h a List.mem_cons_self
    rw [List.cons_append, tokenizeFrom, if_neg h₁, if_neg h₂, if_neg (by simp [h₃]),
      ih (fun c hc => h c (List.mem_cons_of_mem a hc)), List.append_assoc]
    rfl

/-- A text that begins with a character that ends an atom, or is empty. -/
def Ends : List Char → Prop
  | [] => True
  | c :: _ => c = '(' ∨ c = ')' ∨ isWhitespace c = true

lemma tokenizeFrom_ends {cs : List Char} (h : Ends cs) (buf : List Char) :
    tokenizeFrom buf cs = flush buf ++ tokenizeFrom [] cs := by
  cases cs with
  | nil => simp [tokenizeFrom, flush]
  | cons c cs =>
    by_cases h₁ : c = '('
    · simp [tokenizeFrom, h₁, flush]
    · by_cases h₂ : c = ')'
      · simp [tokenizeFrom, h₂, flush]
      · have h₃ : isWhitespace c = true := (h.resolve_left h₁).resolve_left h₂
        simp [tokenizeFrom, h₁, h₂, h₃, flush]

lemma ends_printOf (items : List RawSexpr) (cs : List Char) : Ends (printOf items ++ ')' :: cs) := by
  cases items with
  | nil => exact .inr (.inl rfl)
  | cons item items => exact .inr (.inr (by decide))

mutual

/-- The text of an S-expression is cut into its tokens. -/
lemma tokenizeFrom_print (s : RawSexpr) (hs : s.Plain) {cs : List Char} (hcs : Ends cs) :
    tokenizeFrom [] (s.print ++ cs) = s.tokens ++ tokenizeFrom [] cs := by
  cases s with
  | atom a =>
    rw [Plain] at hs
    rw [print, tokenizeFrom_plain hs.2, List.nil_append, tokenizeFrom_ends hcs, tokens, flush,
      if_neg (by simpa using hs.1), String.ofList_toList]
  | list items =>
    rw [Plain] at hs
    have happ : (RawSexpr.list items).print ++ cs = '(' :: (printOf items ++ ')' :: cs) := by
      simp [print]
    rw [happ, tokenizeFrom, if_pos rfl, tokenizeFrom_printOf items hs cs]
    simp [tokens, flush]

/-- The text of the items of a list is cut into their tokens. -/
lemma tokenizeFrom_printOf (items : List RawSexpr) (hs : PlainOf items) (cs : List Char) :
    tokenizeFrom [] (printOf items ++ ')' :: cs) =
      tokensOf items ++ .rparen :: tokenizeFrom [] cs := by
  cases items with
  | nil => simp [printOf, tokensOf, tokenizeFrom, flush]
  | cons item items =>
    rw [PlainOf] at hs
    have happ : printOf (item :: items) ++ ')' :: cs =
        ' ' :: (item.print ++ (printOf items ++ ')' :: cs)) := by
      simp [printOf]
    rw [happ, tokenizeFrom, if_neg (by decide), if_neg (by decide), if_pos (by decide),
      tokenizeFrom_print item hs.1 (ends_printOf items cs), tokenizeFrom_printOf items hs.2 cs]
    simp [tokensOf, flush]

end

/-- **Parsing a text of an S-expression** gives it back. -/
theorem parse_print {s : RawSexpr} (hs : s.Plain) : parse (String.ofList s.print) = .ok s := by
  refine parse_of_reads ?_
  have h : tokenizeFrom [] (s.print ++ []) = s.tokens ++ tokenizeFrom [] [] :=
    tokenizeFrom_print s hs trivial
  rw [List.append_nil] at h
  have htokens : tokenize (String.ofList s.print) = s.tokens := by
    rw [tokenize, String.toList_ofList, h]
    simp [tokenizeFrom, flush]
  rw [htokens]
  exact reads_of_tokens s

end Expr
