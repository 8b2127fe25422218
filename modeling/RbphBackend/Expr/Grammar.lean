import Mathlib.Data.List.Basic
import RbphBackend.Expr.Parser

set_option relaxedAutoImplicit false
set_option autoImplicit false

/-!
# The grammar of S-expressions

The reader against the grammar it is for. `parse_at` passes an index on and reads the items of a
list in a loop; here it is also written so, with a bound on its calls, and it needs no more than
two for each token.

## Main definitions

* `Expr.IsSexpr` — the sequences of tokens that are one S-expression.
* `Expr.Text` — the texts that have a sequence of tokens, with any whitespace between them.
* `Expr.parseAtIndex` — the reader from an index on, within a bound on its calls.

## Main results

* `Expr.reads_iff` — what is read is what stands before the rest.
* `Expr.tokenize_eq_iff` — the tokens of a text are the ones it is a text of.
* `Expr.parseAtIndex_eq` — the reader ends, on every sequence of tokens.
-/

namespace Expr

open RawSexpr

mutual

/-- A sequence of tokens that is one S-expression. -/
inductive IsSexpr : List Token → Prop where
  | atom (a : String) : IsSexpr [.atom a]
  | list {tokens : List Token} (items : IsSexprs tokens) :
      IsSexpr (.lparen :: (tokens ++ [.rparen]))

/-- A sequence of tokens that is some S-expressions in a row. -/
inductive IsSexprs : List Token → Prop where
  | nil : IsSexprs []
  | cons {tokens tokens' : List Token} (item : IsSexpr tokens) (items : IsSexprs tokens') :
      IsSexprs (tokens ++ tokens')

end

mutual

lemma isSexpr_tokens (s : RawSexpr) : IsSexpr s.tokens := by
  cases s with
  | atom a => exact .atom a
  | list items => exact .list (isSexprs_tokensOf items)

lemma isSexprs_tokensOf (items : List RawSexpr) : IsSexprs (tokensOf items) := by
  cases items with
  | nil => exact .nil
  | cons item items => exact .cons (isSexpr_tokens item) (isSexprs_tokensOf items)

end

mutual

lemma IsSexpr.exists_tree : ∀ {tokens : List Token}, IsSexpr tokens →
    ∃ s : RawSexpr, s.tokens = tokens
  | _, .atom a => ⟨.atom a, rfl⟩
  | _, .list h =>
    have ⟨items, hitems⟩ := h.exists_trees
    ⟨.list items, by rw [RawSexpr.tokens, hitems]⟩

lemma IsSexprs.exists_trees : ∀ {tokens : List Token}, IsSexprs tokens →
    ∃ items : List RawSexpr, tokensOf items = tokens
  | _, .nil => ⟨[], rfl⟩
  | _, .cons h h' =>
    have ⟨item, hitem⟩ := h.exists_tree
    have ⟨items, hitems⟩ := h'.exists_trees
    ⟨item :: items, by rw [tokensOf, hitem, hitems]⟩

end

lemma isSexpr_iff {tokens : List Token} : IsSexpr tokens ↔ ∃ s : RawSexpr, s.tokens = tokens := by
  refine ⟨IsSexpr.exists_tree, ?_⟩
  rintro ⟨s, rfl⟩
  exact isSexpr_tokens s

/-! ## What the reader consumes -/

lemma reads_nil (s : RawSexpr) (rest : List Token) : ¬ Reads [] s rest := by
  rintro ⟨_, h⟩
  rw [parseAt] at h
  cases h

/-- What the reader finds at the beginning of a list is what its loop finds behind. -/
lemma reads_lparen_iff {tokens rest : List Token} {s : RawSexpr} :
    Reads (.lparen :: tokens) s rest ↔ ∃ items, s = .list items ∧ ReadsItems tokens items rest := by
  constructor
  · rintro ⟨hlt, h⟩
    rw [parseAt] at h
    cases hitems : parseItems tokens with
    | error e =>
      rw [hitems] at h
      cases h
    | ok r =>
      obtain ⟨items, rest', hrest⟩ := r
      rw [hitems] at h
      cases h
      exact ⟨items, rfl, hrest, hitems⟩
  · rintro ⟨items, rfl, h⟩
    exact h.list

/-- The loop over the items, at a token that does not end the list. -/
lemma parseItems_cons {token : Token} (tokens : List Token) (hne : token ≠ .rparen) :
    parseItems (token :: tokens) = (do
      let (item, ⟨rest, hrest⟩) ← parseAt (token :: tokens)
      let (items, ⟨rest', hrest'⟩) ← parseItems rest
      return (item :: items, ⟨rest', Nat.lt_trans hrest' hrest⟩)) := by
  cases token with
  | rparen => exact absurd rfl hne
  | lparen => rw [parseItems]; simp
  | atom a => rw [parseItems]; simp

/-- The loop finds an item and goes on behind it. -/
lemma readsItems_cons_iff {token : Token} {tokens rest : List Token} {items : List RawSexpr}
    (hne : token ≠ .rparen) : ReadsItems (token :: tokens) items rest ↔
      ∃ item items' rest', items = item :: items' ∧ Reads (token :: tokens) item rest' ∧
        ReadsItems rest' items' rest := by
  constructor
  · rintro ⟨hlt, h⟩
    rw [parseItems_cons tokens hne] at h
    cases hitem : parseAt (token :: tokens) with
    | error e =>
      rw [hitem] at h
      cases h
    | ok r =>
      obtain ⟨item, rest', hrest⟩ := r
      rw [hitem] at h
      change Except.bind (parseItems rest') _ = _ at h
      cases hitems : parseItems rest' with
      | error e =>
        rw [hitems] at h
        cases h
      | ok r' =>
        obtain ⟨items', rest'', hrest'⟩ := r'
        rw [hitems] at h
        cases h
        exact ⟨item, items', rest', rfl, ⟨hrest, hitem⟩, hrest', hitems⟩
  · rintro ⟨item, items', rest', rfl, hitem, hitems⟩
    exact hitem.cons hne hitems

/-- The reader consumes the tokens of what it gives, and its loop those of the items and the end
of the list. The induction is on the tokens there are, and the loop may start where the reader
has stopped. -/
lemma consumes (n : ℕ) :
    (∀ {tokens : List Token}, tokens.length < n → ∀ {s rest}, Reads tokens s rest →
      tokens = s.tokens ++ rest) ∧
    (∀ {tokens : List Token}, tokens.length < n → ∀ {items rest}, ReadsItems tokens items rest →
      tokens = tokensOf items ++ .rparen :: rest) := by
  induction n with
  | zero => exact ⟨fun h => absurd h (Nat.not_lt_zero _), fun h => absurd h (Nat.not_lt_zero _)⟩
  | succ n ih =>
    have hreads : ∀ {tokens : List Token}, tokens.length < n + 1 → ∀ {s rest},
        Reads tokens s rest → tokens = s.tokens ++ rest := by
      intro tokens hlt s rest h
      cases tokens with
      | nil => exact absurd h (reads_nil s rest)
      | cons token tokens =>
        cases token with
        | lparen =>
          obtain ⟨items, rfl, hitems⟩ := reads_lparen_iff.1 h
          rw [ih.2 (Nat.lt_of_succ_lt_succ hlt) hitems, RawSexpr.tokens]
          simp
        | rparen =>
          obtain ⟨_, h⟩ := h
          rw [parseAt] at h
          cases h
        | atom a =>
          obtain ⟨_, h⟩ := h
          rw [parseAt] at h
          cases h
          rfl
    refine ⟨hreads, ?_⟩
    intro tokens hlt items rest h
    cases tokens with
    | nil =>
      obtain ⟨_, h⟩ := h
      rw [parseItems] at h
      cases h
    | cons token tokens =>
      by_cases hend : token = .rparen
      · obtain ⟨_, h⟩ := h
        rw [hend] at h ⊢
        rw [parseItems] at h
        cases h
        rfl
      · obtain ⟨item, items', rest', rfl, hitem, hitems⟩ := (readsItems_cons_iff hend).1 h
        have hhead : token :: tokens = item.tokens ++ rest' := hreads hlt hitem
        have hshort : rest'.length < n := by
          obtain ⟨hrest, _⟩ := hitem
          omega
        rw [hhead, ih.2 hshort hitems, tokensOf, List.append_assoc]

lemma Reads.eq_append {tokens rest : List Token} {s : RawSexpr} (h : Reads tokens s rest) :
    tokens = s.tokens ++ rest :=
  (consumes (tokens.length + 1)).1 (Nat.lt_succ_self _) h

lemma ReadsItems.eq_append {tokens rest : List Token} {items : List RawSexpr}
    (h : ReadsItems tokens items rest) : tokens = tokensOf items ++ .rparen :: rest :=
  (consumes (tokens.length + 1)).2 (Nat.lt_succ_self _) h

/-- **What is read** is the S-expression that stands before the rest. -/
theorem reads_iff {tokens rest : List Token} {s : RawSexpr} :
    Reads tokens s rest ↔ tokens = s.tokens ++ rest := by
  refine ⟨Reads.eq_append, ?_⟩
  rintro rfl
  exact reads_tokens s rest

lemma Reads.unique {tokens rest rest' : List Token} {s s' : RawSexpr} (h : Reads tokens s rest)
    (h' : Reads tokens s' rest') : s = s' := by
  obtain ⟨_, heq⟩ := h
  obtain ⟨_, heq'⟩ := h'
  rw [heq] at heq'
  cases heq'
  rfl

/-- No two S-expressions have the same tokens. -/
lemma tokens_injective {s s' : RawSexpr} (h : s.tokens = s'.tokens) : s = s' := by
  have hs : Reads s.tokens s [] := reads_of_tokens s
  have hs' : Reads s'.tokens s' [] := reads_of_tokens s'
  rw [h] at hs
  exact hs.unique hs'

lemma parse_eq_ok_iff {expr : String} {s : RawSexpr} :
    parse expr = .ok s ↔ tokenize expr = s.tokens := by
  constructor
  · intro h
    rw [parse, parseExpr] at h
    cases hread : parseAt (tokenize expr) with
    | error e =>
      rw [hread] at h
      cases h
    | ok r =>
      obtain ⟨s', rest, hrest⟩ := r
      rw [hread] at h
      by_cases hnil : rest = []
      · change (if rest ≠ [] then _ else _) = _ at h
        rw [if_neg (not_not_intro hnil)] at h
        cases h
        have heq := Reads.eq_append ⟨hrest, hread⟩
        rwa [hnil, List.append_nil] at heq
      · change (if rest ≠ [] then _ else _) = _ at h
        rw [if_pos hnil] at h
        cases h
  · intro h
    exact parse_of_reads (reads_iff.2 (by rw [h, List.append_nil]))

/-! ## Texts -/

/-- An atom has a character, and none that ends an atom. -/
def Token.Plain : Token → Prop
  | .atom a => a.toList ≠ [] ∧ ∀ c ∈ a.toList, c ≠ '(' ∧ c ≠ ')' ∧ isWhitespace c = false
  | _ => True

/-- A text of a sequence of tokens: any whitespace stands before, between and behind them, and
some of it or a parenthesis behind every atom that is not the end. -/
inductive Text : List Token → List Char → Prop where
  | nil : Text [] []
  | space {tokens : List Token} {cs : List Char} (c : Char) (hc : isWhitespace c = true)
      (h : Text tokens cs) : Text tokens (c :: cs)
  | lparen {tokens : List Token} {cs : List Char} (h : Text tokens cs) :
      Text (.lparen :: tokens) ('(' :: cs)
  | rparen {tokens : List Token} {cs : List Char} (h : Text tokens cs) :
      Text (.rparen :: tokens) (')' :: cs)
  | atom {tokens : List Token} {cs : List Char} (a : String) (hcs : Ends cs)
      (h : Text tokens cs) : Text (.atom a :: tokens) (a.toList ++ cs)

/-- Parentheses are not whitespace. -/
lemma not_paren_of_isWhitespace {c : Char} (h : isWhitespace c = true) : c ≠ '(' ∧ c ≠ ')' := by
  constructor
  · rintro rfl
    exact absurd h (by decide)
  · rintro rfl
    exact absurd h (by decide)

lemma tokenizeFrom_of_text {tokens : List Token} {cs : List Char} (h : Text tokens cs)
    (hplain : ∀ token ∈ tokens, token.Plain) : tokenizeFrom [] cs = tokens := by
  induction h with
  | nil => rfl
  | space c hc _ ih =>
    obtain ⟨h₁, h₂⟩ := not_paren_of_isWhitespace hc
    rw [tokenizeFrom, if_neg h₁, if_neg h₂, if_pos hc, ih hplain]
    rfl
  | lparen _ ih =>
    rw [tokenizeFrom, if_pos rfl, ih (fun t ht => hplain t (List.mem_cons_of_mem _ ht))]
    rfl
  | rparen _ ih =>
    rw [tokenizeFrom, if_neg (by decide), if_pos rfl,
      ih (fun t ht => hplain t (List.mem_cons_of_mem _ ht))]
    rfl
  | atom a hcs _ ih =>
    have ha : Token.Plain (.atom a) := hplain _ List.mem_cons_self
    rw [tokenizeFrom_plain ha.2, List.nil_append, tokenizeFrom_ends hcs, flush,
      if_neg (by simpa using ha.1), String.ofList_toList,
      ih (fun t ht => hplain t (List.mem_cons_of_mem _ ht))]
    rfl

/-- What waits in the buffer is the atom that stands before the end of an atom. -/
lemma Text.flush {buf cs : List Char} {tokens : List Token} (h : Text tokens cs) (hcs : Ends cs) :
    Text (Expr.flush buf ++ tokens) (buf ++ cs) := by
  cases buf with
  | nil => exact h
  | cons b buf =>
    have hatom := Text.atom (String.ofList (b :: buf)) hcs h
    rw [String.toList_ofList] at hatom
    exact hatom

/-- A text is a text of what it is cut into, behind what waits in the buffer. -/
lemma text_tokenizeFrom (buf cs : List Char) : Text (tokenizeFrom buf cs) (buf ++ cs) := by
  induction cs generalizing buf with
  | nil =>
    have h : Text (Expr.flush buf ++ []) (buf ++ []) := Text.nil.flush trivial
    rwa [List.append_nil] at h
  | cons c cs ih =>
    rw [tokenizeFrom]
    split
    · next h =>
      subst h
      exact (Text.lparen (ih [])).flush (.inl rfl)
    · split
      · next h =>
        subst h
        exact (Text.rparen (ih [])).flush (.inr (.inl rfl))
      · split
        · next h => exact (Text.space c h (ih [])).flush (.inr (.inr h))
        · have h := ih (buf ++ [c])
          rwa [List.append_assoc] at h

lemma plain_flush {buf : List Char}
    (hbuf : ∀ c ∈ buf, c ≠ '(' ∧ c ≠ ')' ∧ isWhitespace c = false) :
    ∀ token ∈ flush buf, token.Plain := by
  intro token htoken
  rw [flush] at htoken
  split at htoken
  · cases htoken
  · next hne =>
    rw [List.mem_singleton] at htoken
    subst htoken
    refine ⟨?_, ?_⟩
    · rw [String.toList_ofList]
      simpa using hne
    · rwa [String.toList_ofList]

lemma plain_tokenizeFrom {buf : List Char} (cs : List Char)
    (hbuf : ∀ c ∈ buf, c ≠ '(' ∧ c ≠ ')' ∧ isWhitespace c = false) :
    ∀ token ∈ tokenizeFrom buf cs, token.Plain := by
  induction cs generalizing buf with
  | nil => exact plain_flush hbuf
  | cons c cs ih =>
    have hnil : ∀ token ∈ tokenizeFrom [] cs, token.Plain :=
      ih (fun c hc => absurd hc List.not_mem_nil)
    intro token htoken
    rw [tokenizeFrom] at htoken
    split at htoken
    · rcases List.mem_append.1 htoken with h | h
      · exact plain_flush hbuf token h
      · rcases List.mem_cons.1 h with rfl | h
        · exact trivial
        · exact hnil token h
    · split at htoken
      · rcases List.mem_append.1 htoken with h | h
        · exact plain_flush hbuf token h
        · rcases List.mem_cons.1 h with rfl | h
          · exact trivial
          · exact hnil token h
      · split at htoken
        · rcases List.mem_append.1 htoken with h | h
          · exact plain_flush hbuf token h
          · exact hnil token h
        · next h₁ h₂ h₃ =>
          refine ih ?_ token htoken
          intro c' hc'
          rcases List.mem_append.1 hc' with h | h
          · exact hbuf c' h
          · rw [List.mem_singleton.1 h]
            exact ⟨h₁, h₂, by simpa using h₃⟩

/-- **The tokens of a text** are the ones it is a text of, and their atoms are plain. -/
theorem tokenize_eq_iff {cs : List Char} {tokens : List Token} :
    tokenize (String.ofList cs) = tokens ↔ (∀ token ∈ tokens, token.Plain) ∧ Text tokens cs := by
  rw [tokenize, String.toList_ofList]
  constructor
  · rintro rfl
    exact ⟨plain_tokenizeFrom cs (fun c hc => absurd hc List.not_mem_nil), text_tokenizeFrom [] cs⟩
  · rintro ⟨hplain, h⟩
    exact tokenizeFrom_of_text h hplain

mutual

lemma plain_tokens (s : RawSexpr) : (∀ token ∈ s.tokens, token.Plain) ↔ s.Plain := by
  cases s with
  | atom a => simp [RawSexpr.tokens, RawSexpr.Plain, Token.Plain]
  | list items =>
    rw [RawSexpr.Plain, ← plain_tokensOf items]
    simp [RawSexpr.tokens, Token.Plain, or_imp, forall_and]

lemma plain_tokensOf (items : List RawSexpr) :
    (∀ token ∈ tokensOf items, token.Plain) ↔ PlainOf items := by
  cases items with
  | nil => simp [tokensOf, PlainOf]
  | cons item items =>
    rw [PlainOf, ← plain_tokens item, ← plain_tokensOf items]
    simp [tokensOf, or_imp, forall_and]

end

/-! ## From an index on -/

mutual

/-- `parse_at`, from an index on. Every call and every turn of its loop takes one of the fuel,
and there is no result where the fuel does not last. -/
def parseAtIndex (tokens : List Token) : ℕ → ℕ → Option (Except ParseError (RawSexpr × ℕ))
  | 0, _ => none
  | fuel + 1, index =>
    match tokens[index]? with
    | none => some (.error .unexpectedEof)
    | some .lparen => parseListAt tokens fuel [] (index + 1)
    | some .rparen => some (.error (.unexpectedToken ")"))
    | some (.atom expr) => some (.ok (.atom expr, index + 1))

/-- The loop of `parse_at` over the items of a list. -/
def parseListAt (tokens : List Token) :
    ℕ → List RawSexpr → ℕ → Option (Except ParseError (RawSexpr × ℕ))
  | 0, _, _ => none
  | fuel + 1, inlineTokens, inlineIndex =>
    match tokens[inlineIndex]? with
    | none => some (.error .unexpectedEof)
    | some .rparen => some (.ok (.list inlineTokens, inlineIndex + 1))
    | some _ =>
      match parseAtIndex tokens fuel inlineIndex with
      | none => none
      | some (.error e) => some (.error e)
      | some (.ok (item, index)) => parseListAt tokens fuel (inlineTokens ++ [item]) index

end

/-- `parse` with the reader that passes an index on. -/
def parseWithin (fuel : ℕ) (expr : String) : Option (Except ParseFailure RawSexpr) :=
  let tokens := tokenize expr
  match parseAtIndex tokens fuel 0 with
  | none => none
  | some (.error e) => some (.error (.parse e))
  | some (.ok (sexpr, used)) =>
    if used ≠ tokens.length then some (.error .trailingTokens) else some (.ok sexpr)

/-- What the reader gives for the last of `n` tokens, with the number of those behind it. -/
def readAt (n : ℕ) (tokens : List Token) : Except ParseError (RawSexpr × ℕ) :=
  match parseAt tokens with
  | .error e => .error e
  | .ok (s, ⟨rest, _⟩) => .ok (s, n - rest.length)

/-- The same of the loop, behind some items of the list. -/
def readListAt (n : ℕ) (inlineTokens : List RawSexpr) (tokens : List Token) :
    Except ParseError (RawSexpr × ℕ) :=
  match parseItems tokens with
  | .error e => .error e
  | .ok (items, ⟨rest, _⟩) => .ok (.list (inlineTokens ++ items), n - rest.length)

lemma readAt_nil (n : ℕ) : readAt n [] = .error .unexpectedEof := by
  rw [readAt, parseAt]

lemma readAt_lparen (n : ℕ) (tokens : List Token) :
    readAt n (.lparen :: tokens) = readListAt n [] tokens := by
  rw [readAt, readListAt, parseAt]
  cases parseItems tokens with
  | error e => rfl
  | ok r => rfl

lemma readAt_rparen (n : ℕ) (tokens : List Token) :
    readAt n (.rparen :: tokens) = .error (.unexpectedToken ")") := by
  rw [readAt, parseAt]

lemma readAt_atom (n : ℕ) (a : String) (tokens : List Token) :
    readAt n (.atom a :: tokens) = .ok (.atom a, n - tokens.length) := by
  rw [readAt, parseAt]

lemma readListAt_nil (n : ℕ) (inlineTokens : List RawSexpr) :
    readListAt n inlineTokens [] = .error .unexpectedEof := by
  rw [readListAt, parseItems]

lemma readListAt_rparen (n : ℕ) (inlineTokens : List RawSexpr) (tokens : List Token) :
    readListAt n inlineTokens (.rparen :: tokens) =
      .ok (.list inlineTokens, n - tokens.length) := by
  rw [readListAt, parseItems]
  simp

/-- One turn of the loop. -/
lemma readListAt_cons (n : ℕ) (inlineTokens : List RawSexpr) {token : Token} (tokens : List Token)
    (hne : token ≠ .rparen) : readListAt n inlineTokens (token :: tokens) =
      match parseAt (token :: tokens) with
      | .error e => .error e
      | .ok (item, ⟨rest, _⟩) => readListAt n (inlineTokens ++ [item]) rest := by
  rw [readListAt, parseItems_cons tokens hne]
  simp only [bind, Except.bind, pure, Except.pure]
  cases parseAt (token :: tokens) with
  | error e => rfl
  | ok r =>
    obtain ⟨item, rest, hrest⟩ := r
    simp only [readListAt]
    cases parseItems rest with
    | error e => rfl
    | ok r' => simp

/-- The loop reads an item at a token that does not end the list. -/
lemma parseListAt_item {tokens : List Token} {token : Token} {inlineTokens : List RawSexpr}
    {fuel index : ℕ} (hget : tokens[index]? = some token) (hne : token ≠ .rparen) :
    parseListAt tokens (fuel + 1) inlineTokens index =
      match parseAtIndex tokens fuel index with
      | none => none
      | some (.error e) => some (.error e)
      | some (.ok (item, index)) => parseListAt tokens fuel (inlineTokens ++ [item]) index := by
  rw [parseListAt, hget]
  cases token with
  | rparen => exact absurd rfl hne
  | lparen => rfl
  | atom a => rfl

/-- What is left of some last tokens are the last ones, from the index that is passed on. -/
lemma drop_of_drop_eq_append {tokens read rest : List Token} {index : ℕ}
    (h : tokens.drop index = read ++ rest) (hrest : rest.length < (tokens.drop index).length) :
    tokens.drop (tokens.length - rest.length) = rest ∧ index < tokens.length - rest.length := by
  have hlen := congrArg List.length h
  rw [List.length_append, List.length_drop] at hlen
  rw [List.length_drop] at hrest
  have hindex : tokens.length - rest.length = index + read.length := by omega
  refine ⟨?_, by omega⟩
  rw [hindex, ← List.drop_drop, h, List.drop_left]

/-- The reader ends and gives what it gives for the tokens from the index on, when the fuel is
more than twice their number; its loop takes one more. The induction is on the fuel: an item is
read with one less, and leaves fewer tokens. -/
lemma parseAtIndex_spec (tokens : List Token) (fuel : ℕ) :
    (∀ index, 2 * (tokens.length - index) + 1 ≤ fuel →
      parseAtIndex tokens fuel index = some (readAt tokens.length (tokens.drop index))) ∧
    (∀ inlineTokens index, 2 * (tokens.length - index) + 2 ≤ fuel →
      parseListAt tokens fuel inlineTokens index =
        some (readListAt tokens.length inlineTokens (tokens.drop index))) := by
  induction fuel with
  | zero => exact ⟨fun _ h => by omega, fun _ _ h => by omega⟩
  | succ fuel ih =>
    obtain ⟨ihAt, ihList⟩ := ih
    have hbehind : ∀ {index}, index < tokens.length →
        tokens.length - (tokens.drop (index + 1)).length = index + 1 := by
      intro index hlt
      rw [List.length_drop]
      omega
    refine ⟨?_, ?_⟩
    · intro index hfuel
      rw [parseAtIndex]
      cases hget : tokens[index]? with
      | none => rw [List.drop_eq_nil_of_le (List.getElem?_eq_none_iff.1 hget), readAt_nil]
      | some token =>
        obtain ⟨hlt, htoken⟩ := List.getElem?_eq_some_iff.1 hget
        rw [List.drop_eq_getElem_cons hlt, htoken]
        cases token with
        | lparen =>
          rw [readAt_lparen]
          exact ihList [] (index + 1) (by omega)
        | rparen => rw [readAt_rparen]
        | atom a => rw [readAt_atom, hbehind hlt]
    · intro inlineTokens index hfuel
      cases hget : tokens[index]? with
      | none =>
        rw [parseListAt, hget, List.drop_eq_nil_of_le (List.getElem?_eq_none_iff.1 hget),
          readListAt_nil]
      | some token =>
        obtain ⟨hlt, htoken⟩ := List.getElem?_eq_some_iff.1 hget
        have hdrop : tokens.drop index = token :: tokens.drop (index + 1) := by
          rw [List.drop_eq_getElem_cons hlt, htoken]
        by_cases hend : token = .rparen
        · subst hend
          rw [parseListAt, hget, hdrop, readListAt_rparen, hbehind hlt]
        · have hitem : parseAtIndex tokens fuel index =
              some (readAt tokens.length (token :: tokens.drop (index + 1))) := by
            rw [← hdrop]
            exact ihAt index (by omega)
          rw [parseListAt_item hget hend, hitem, hdrop, readListAt_cons _ _ _ hend, readAt]
          cases hread : parseAt (token :: tokens.drop (index + 1)) with
          | error e => rfl
          | ok r =>
            obtain ⟨item, rest, hrest⟩ := r
            have happ := Reads.eq_append ⟨hrest, hread⟩
            rw [← hdrop] at happ hrest
            obtain ⟨hbeh, hlt'⟩ := drop_of_drop_eq_append happ hrest
            change parseListAt tokens fuel (inlineTokens ++ [item])
              (tokens.length - rest.length) = _
            rw [ihList (inlineTokens ++ [item]) (tokens.length - rest.length) (by omega), hbeh]

/-- **The reader ends**, on every sequence of tokens and from every index, and gives what it gives
for the tokens from there on. -/
theorem parseAtIndex_eq (tokens : List Token) {fuel index : ℕ}
    (hfuel : 2 * (tokens.length - index) + 1 ≤ fuel) :
    parseAtIndex tokens fuel index = some (readAt tokens.length (tokens.drop index)) :=
  (parseAtIndex_spec tokens fuel).1 index hfuel

/-- Parsing ends, and all tokens are used where the index passed on is their number. -/
lemma parseWithin_eq {fuel : ℕ} {expr : String}
    (hfuel : 2 * (tokenize expr).length + 1 ≤ fuel) :
    parseWithin fuel expr = some (parse expr) := by
  have hread : parseAtIndex (tokenize expr) fuel 0 =
      some (readAt (tokenize expr).length (tokenize expr)) :=
    parseAtIndex_eq (tokenize expr) hfuel
  rw [parseWithin, hread, readAt, parse, parseExpr]
  cases parseAt (tokenize expr) with
  | error e => rfl
  | ok r =>
    obtain ⟨s, rest, hrest⟩ := r
    change (if (tokenize expr).length - rest.length ≠ (tokenize expr).length then _ else _) =
      some (if rest ≠ [] then _ else _)
    by_cases hnil : rest = []
    · subst hnil
      rw [if_neg (by simp), if_neg (by simp)]
    · have hpos : 0 < rest.length := List.length_pos_iff.2 hnil
      rw [if_pos (by omega), if_pos hnil]

/-- **The parser accepts the grammar.** A text is parsed when and only when its tokens are one
S-expression, and what it gives is the only one with these tokens. A tree of plain atoms is what
every text of it is parsed as, whatever whitespace stands between its tokens; and a text with some
number of tokens is parsed within one more than twice as many calls. -/
theorem parse_grammar :
    (∀ expr, (∃ s, parse expr = .ok s) ↔ IsSexpr (tokenize expr)) ∧
    (∀ expr s, parse expr = .ok s → tokenize expr = s.tokens ∧
      ∀ s' : RawSexpr, tokenize expr = s'.tokens → s' = s) ∧
    (∀ s cs, s.Plain → Text s.tokens cs → parse (String.ofList cs) = .ok s) ∧
    (∀ fuel expr, 2 * (tokenize expr).length + 1 ≤ fuel →
      parseWithin fuel expr = some (parse expr)) := by
  refine ⟨?_, ?_, ?_, ?_⟩
  · intro expr
    rw [isSexpr_iff]
    constructor
    · rintro ⟨s, h⟩
      exact ⟨s, (parse_eq_ok_iff.1 h).symm⟩
    · rintro ⟨s, h⟩
      exact ⟨s, parse_eq_ok_iff.2 h.symm⟩
  · intro expr s h
    have htokens := parse_eq_ok_iff.1 h
    refine ⟨htokens, ?_⟩
    intro s' hs'
    exact tokens_injective (hs'.symm.trans htokens)
  · intro s cs hs htext
    exact parse_eq_ok_iff.2 (tokenize_eq_iff.2 ⟨(plain_tokens s).2 hs, htext⟩)
  · intro fuel expr hfuel
    exact parseWithin_eq hfuel

end Expr
