import RecordMapper.Proofs.Predicate.StatementText

namespace RecordMapper.Sql

open RecordMapper.Text

/-- What may stand behind a whole token: nothing, a blank, a comma or a closing parenthesis. -/
def Closes (after : List Char) : Prop :=
  ∀ c ∈ after.head?, c = ' ' ∨ c = ',' ∨ c = ')'

theorem closes_nil : Closes [] := by simp [Closes]

theorem closes_space (after : List Char) : Closes (' ' :: after) := by simp [Closes]

theorem closes_comma (after : List Char) : Closes (',' :: after) := by simp [Closes]

theorem closes_closing (after : List Char) : Closes (')' :: after) := by simp [Closes]

theorem Closes.append {text after : List Char} (closes : Closes text) (then' : Closes after) : Closes (text ++ after) := by
  cases text with
  | nil => exact then'
  | cons c text => exact closes

theorem Closes.not_quote {after : List Char} (closes : Closes after) : after.head? ≠ some '"' := by
  intro quote
  rcases closes '"' quote with same | same | same <;> exact absurd same (by decide)

theorem Closes.not_part {after : List Char} (closes : Closes after) : ∀ c ∈ after.head?, isWordPart c = false := by
  intro c first
  rcases closes c first with rfl | rfl | rfl <;> decide

/-- A text without U+0000 that is scanned as the tokens, whatever closes them. -/
structure Scans (text : List Char) (tokens : List Token) : Prop where
  lexes : ∀ {after : List Char} {rest : List Token}, Closes after → Lexes after rest → Lexes (text ++ after) (tokens ++ rest)
  whole : '\x00' ∉ text

/-- The same of a text that itself closes what stands before it. -/
structure Trails (text : List Char) (tokens : List Token) : Prop where
  scans : Scans text tokens
  closes : Closes text

namespace Scans

variable {a b : List Char} {s t : List Token}

theorem nil : Scans [] [] where
  lexes _ tail := tail
  whole := List.not_mem_nil

theorem append (left : Scans a s) (right : Trails b t) : Scans (a ++ b) (s ++ t) where
  lexes closes tail := by
    rw [List.append_assoc, List.append_assoc]
    exact left.lexes (right.closes.append closes) (right.scans.lexes closes tail)
  whole := by
    rw [List.mem_append, not_or]
    exact ⟨left.whole, right.scans.whole⟩

theorem spaced (scans : Scans a s) : Trails (' ' :: a) s where
  scans :=
    { lexes := fun closes tail => .space (scans.lexes closes tail)
      whole := by simpa using scans.whole }
  closes := closes_space a

theorem comma (left : Scans a s) (right : Scans b t) : Scans (a ++ ',' :: ' ' :: b) (s ++ .symbol "," :: t) where
  lexes closes tail := by
    have rest := Lexes.lone (c := ',') (by decide) (by decide) (.space (right.lexes closes tail))
    have whole := left.lexes (closes_comma _) rest
    simpa using whole
  whole := by simpa using ⟨left.whole, right.whole⟩

theorem group (inner : Scans a s) : Scans ('(' :: (a ++ [')'])) (.symbol "(" :: (s ++ [.symbol ")"])) where
  lexes closes tail := by
    have whole := lexes_opening (inner.lexes (closes_closing _) (lexes_closing tail))
    simpa using whole
  whole := by simpa using inner.whole

theorem call (f : String) (spelled : isWord f = true) (inner : Scans a s) :
    Scans (f.toList ++ '(' :: (a ++ [')'])) (.word f :: .symbol "(" :: (s ++ [.symbol ")"])) where
  lexes closes tail := by
    have whole := lexes_word f spelled (by decide) (inner.group.lexes closes tail)
    simpa using whole
  whole := by simpa using ⟨zero_not_mem_word spelled, inner.whole⟩

theorem word (text : String) (spelled : isWord text = true) : Scans text.toList [.word text] where
  lexes closes tail := .word text spelled closes.not_part tail
  whole := zero_not_mem_word spelled

theorem quoted {name : String} (plain : '\x00' ∉ name.toList) : Scans (quoted name).toList [.quoted name] where
  lexes closes tail := .quoted name closes.not_quote tail
  whole := zero_not_mem_quoted plain

theorem placeholder : Scans ['?'] [.placeholder] where
  lexes _ tail := .placeholder tail
  whole := by decide

theorem star : Scans ['*'] [.symbol "*"] where
  lexes _ tail := .lone (by decide) (by decide) tail
  whole := by decide

theorem one : Scans ['1'] [.number "1"] where
  lexes closes tail := by
    refine .number '1' (by decide) (fun d first => ?_) tail
    rcases closes d first with rfl | rfl | rfl <;> decide
  whole := by decide

theorem equals : Scans ['='] [.symbol "="] where
  lexes closes tail := by
    refine .symbol (by decide) (fun d first => ?_) tail
    rcases closes d first with rfl | rfl | rfl <;> decide
  whole := by decide

theorem column {c : ColumnName} (writable : c.Writable) : Scans c.text.toList c.tokens where
  lexes closes tail := c.lexes writable closes.not_quote tail
  whole := writable.zero_not_mem_text

theorem condition {c : Condition} (writable : c.Writable) : Scans c.text.toList c.tokens where
  lexes _ tail := c.lexes writable tail
  whole := c.zero_not_mem_text writable

theorem lexemes {sql : String} (scans : Scans sql.toList s) :
    (Sql.lexemes sql).1.map Lexeme.token = s ∧ (Sql.lexemes sql).2 = none := by
  have all := scans.lexes closes_nil .done
  rw [List.append_nil, List.append_nil] at all
  exact lexemes_of_lexes sql s all scans.whole

end Scans

namespace Trails

variable {a b : List Char} {s t : List Token}

theorem nil : Trails [] [] := ⟨.nil, closes_nil⟩

theorem append (left : Trails a s) (right : Trails b t) : Trails (a ++ b) (s ++ t) :=
  ⟨left.scans.append right, left.closes.append right.closes⟩

end Trails

def commaTokens : List (List Token) → List Token
  | [] => []
  | [last] => last
  | first :: next :: rest => first ++ .symbol "," :: commaTokens (next :: rest)

theorem Scans.joined {α : Type} {text : α → String} {tokens : α → List Token} {items : List α}
    (each : ∀ item ∈ items, Scans (text item).toList (tokens item)) :
    Scans (joined ", " (items.map text)).toList (commaTokens (items.map tokens)) := by
  induction items with
  | nil => exact .nil
  | cons first items ih =>
    rw [List.forall_mem_cons] at each
    cases items with
    | nil => exact each.1
    | cons next rest =>
      have whole := each.1.comma (ih each.2)
      simpa [Text.joined, commaTokens] using whole

theorem textOf_separated (parts : List (List Piece)) :
    textOf (Piece.separated ", " parts) = joined ", " (parts.map textOf) := by
  induction parts with
  | nil => rfl
  | cons first parts ih =>
    cases parts with
    | nil => rfl
    | cons next rest =>
      rw [List.map_cons] at ih
      simp [Piece.separated, Piece.text, Text.joined, ih, String.append_assoc]

theorem Scans.separated {α : Type} {pieces : α → List Piece} {tokens : α → List Token} {items : List α}
    (each : ∀ item ∈ items, Scans (textOf (pieces item)).toList (tokens item)) :
    Scans (textOf (Piece.separated ", " (items.map pieces))).toList (commaTokens (items.map tokens)) := by
  rw [textOf_separated, List.map_map]
  exact .joined each

section Clauses

structure Source.Writable (s : Source) : Prop where
  label : isWord s.label = true
  table : '\x00' ∉ s.table.toList

structure Link.Writable (l : Link) : Prop where
  source : l.source.Writable
  left : l.left.Writable
  right : l.right.Writable

structure Rows.Writable (r : Rows) : Prop where
  source : r.source.Writable
  links : ∀ l ∈ r.links, l.Writable
  filter : ∀ f ∈ r.filter, f.Writable

def Source.tokens (s : Source) : List Token :=
  [.quoted s.table, .word "AS", .word s.label]

def Link.tokens (l : Link) : List Token :=
  .word "JOIN" :: (l.source.tokens ++ .word "ON" :: (l.left.tokens ++ .symbol "=" :: l.right.tokens))

def Rows.fromTokens (r : Rows) : List Token :=
  r.source.tokens ++ r.links.flatMap Link.tokens

def OrderTerm.tokens (t : OrderTerm) : List Token :=
  t.column.tokens ++ [.word (if t.descending then "DESC" else "ASC")]

def orderTokens (order : List OrderTerm) : List Token :=
  if order.isEmpty then [] else .word "ORDER" :: .word "BY" :: commaTokens (order.map OrderTerm.tokens)

def windowTokens : Option Window → List Token
  | none => []
  | some _ => [.word "LIMIT", .placeholder, .word "OFFSET", .placeholder]

theorem Source.scans {s : Source} (writable : s.Writable) : Scans s.text.toList s.tokens := by
  have label := Scans.word s.label writable.label
  have whole := (Scans.quoted writable.table).append ((Scans.word "AS" (by decide)).append label.spaced).spaced
  simpa [Source.text, Source.tokens] using whole

theorem Link.trails {l : Link} (writable : l.Writable) : Trails (textOf l.pieces).toList l.tokens := by
  have right := (Scans.column writable.left).append (Scans.equals.append (Scans.column writable.right).spaced).spaced
  have source := (Source.scans writable.source).append ((Scans.word "ON" (by decide)).append right.spaced).spaced
  have whole := ((Scans.word "JOIN" (by decide)).append source.spaced).spaced
  simpa [Link.pieces, Piece.text, Link.tokens] using whole

theorem trails_links {links : List Link} (writable : ∀ l ∈ links, l.Writable) :
    Trails (textOf (links.flatMap Link.pieces)).toList (links.flatMap Link.tokens) := by
  induction links with
  | nil => exact .nil
  | cons l links ih =>
    rw [List.forall_mem_cons] at writable
    have whole := (Link.trails writable.1).append (ih writable.2)
    simpa using whole

theorem Rows.scans_from {r : Rows} (writable : r.Writable) : Scans (textOf r.fromPieces).toList r.fromTokens := by
  have whole := (Source.scans writable.source).append (trails_links writable.links)
  simpa [Rows.fromPieces, Piece.text, Rows.fromTokens] using whole

theorem trails_filter {filter : Option Condition} (writable : ∀ f ∈ filter, f.Writable) :
    Trails (textOf (filterPieces filter)).toList (filterTokens filter) := by
  cases filter with
  | none => exact .nil
  | some condition =>
    have whole := ((Scans.word "WHERE" (by decide)).append (Scans.condition (writable condition rfl)).spaced).spaced
    simpa [filterPieces, Piece.text, filterTokens, Condition.text] using whole

theorem OrderTerm.scans {t : OrderTerm} (writable : t.column.Writable) : Scans (textOf t.pieces).toList t.tokens := by
  obtain ⟨column, descending⟩ := t
  cases descending with
  | false =>
    have whole := (Scans.column writable).append (Scans.word "ASC" (by decide)).spaced
    simpa [OrderTerm.pieces, Piece.text, OrderTerm.tokens] using whole
  | true =>
    have whole := (Scans.column writable).append (Scans.word "DESC" (by decide)).spaced
    simpa [OrderTerm.pieces, Piece.text, OrderTerm.tokens] using whole

theorem trails_order {order : List OrderTerm} (writable : ∀ t ∈ order, t.column.Writable) :
    Trails (textOf (orderPieces order)).toList (orderTokens order) := by
  cases order with
  | nil => exact .nil
  | cons t order =>
    have terms := Scans.separated fun t member => OrderTerm.scans (writable t member)
    have whole := ((Scans.word "ORDER" (by decide)).append ((Scans.word "BY" (by decide)).append terms.spaced).spaced).spaced
    simpa [orderPieces, Piece.text, orderTokens] using whole

theorem trails_window (window : Option Window) : Trails (textOf (windowPieces window)).toList (windowTokens window) := by
  cases window with
  | none => exact .nil
  | some w =>
    have offset := ((Scans.word "OFFSET" (by decide)).append Scans.placeholder.spaced).spaced
    have whole := ((Scans.word "LIMIT" (by decide)).append (Scans.placeholder.append offset).spaced).spaced
    simpa [windowPieces, Piece.text, windowTokens] using whole

end Clauses

end RecordMapper.Sql
