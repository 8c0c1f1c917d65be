import RecordMapper.Plan.Filter
import RecordMapper.Proofs.Predicate.Expression
import RecordMapper.Proofs.Predicate.Lexing

namespace RecordMapper.Sql

open RecordMapper.Text

structure IsPlainLabel (label : String) : Prop where
  word : isWord label = true
  free : keyword? label = none

structure ColumnName.Writable (c : ColumnName) : Prop where
  label : IsPlainLabel c.label
  name : '\x00' ∉ c.name.toList

namespace Condition

/-- A condition that can be written: all of its columns are, and no test of membership is in nothing. -/
def Writable : Condition → Prop
  | .constant _ => True
  | .columns left _ right => left.Writable ∧ right.Writable
  | .value c _ _ | .null c _ | .glob c _ _ => c.Writable
  | .member c values _ => c.Writable ∧ values ≠ []
  | .and left right | .or left right => left.Writable ∧ right.Writable
  | .not inner => inner.Writable

def expression : Condition → Expression
  | .constant holds => .compare .eq (.number "1") (.number (if holds then "1" else "0"))
  | .columns left op right => .compare op (.column left) (.column right)
  | .value c op v => .compare op (.column c) (.bound v)
  | .null c negated => .null (.column c) negated
  | .member c values negated => .member (.column c) (values.map .bound) negated
  | .glob c folded pattern =>
    .glob (if folded then .lower (.column c) else .column c) (.bound (.text pattern)) false
  | .and left right => .and left.expression right.expression
  | .or left right => .or left.expression right.expression
  | .not inner => .not inner.expression

end Condition

def ColumnName.tokens (c : ColumnName) : List Token :=
  [.word c.label, .symbol ".", .quoted c.name]

def placeholderTokens : List Value → List Token
  | [] => []
  | [_] => [.placeholder]
  | _ :: next :: rest => .placeholder :: .symbol "," :: placeholderTokens (next :: rest)

namespace Condition

def tokens : Condition → List Token
  | .constant holds =>
    [.symbol "(", .number "1", .symbol "=", .number (if holds then "1" else "0"), .symbol ")"]
  | .columns left op right =>
    [.symbol "("] ++ left.tokens ++ [.symbol op.symbol] ++ right.tokens ++ [.symbol ")"]
  | .value c op _ => [.symbol "("] ++ c.tokens ++ [.symbol op.symbol, .placeholder, .symbol ")"]
  | .null c negated =>
    [.symbol "("] ++ c.tokens ++ [.word "IS"] ++ (if negated then [.word "NOT"] else []) ++
      [.word "NULL", .symbol ")"]
  | .member c values negated =>
    [.symbol "("] ++ c.tokens ++ (if negated then [.word "NOT"] else []) ++ [.word "IN", .symbol "("] ++
      placeholderTokens values ++ [.symbol ")", .symbol ")"]
  | .glob c folded _ =>
    [.symbol "("] ++ (if folded then [.word "lower", .symbol "("] else []) ++ c.tokens ++
      (if folded then [.symbol ")"] else []) ++ [.word "GLOB", .placeholder, .symbol ")"]
  | .and left right => [.symbol "("] ++ left.tokens ++ [.word "AND"] ++ right.tokens ++ [.symbol ")"]
  | .or left right => [.symbol "("] ++ left.tokens ++ [.word "OR"] ++ right.tokens ++ [.symbol ")"]
  | .not inner => [.symbol "(", .word "NOT"] ++ inner.tokens ++ [.symbol ")"]

end Condition

@[simp] theorem textOf_nil : textOf [] = "" := rfl

@[simp] theorem textOf_cons (piece : Piece) (pieces : List Piece) :
    textOf (piece :: pieces) = piece.text ++ textOf pieces := rfl

section Scanning

variable {after : List Char} {tokens : List Token}

theorem ColumnName.lexes {c : ColumnName} (writable : c.Writable) (stop : after.head? ≠ some '"')
    (tail : Lexes after tokens) : Lexes (c.text.toList ++ after) (c.tokens ++ tokens) := by
  have name := Lexes.quoted c.name stop tail
  have dotted := Lexes.lone (c := '.') (by decide) (by decide) name
  have whole := Lexes.word c.label writable.label.word (by simp; decide) dotted
  simpa [ColumnName.text, ColumnName.tokens] using whole

theorem lexes_comparison (op : Comparison) (tail : Lexes after tokens) :
    Lexes (op.symbol.toList ++ ' ' :: after) (.symbol op.symbol :: tokens) := by
  cases op
  case eq | lt | gt => exact .symbol (by decide) (by simp; decide) (.space tail)
  case ne | le | ge => exact .pair (by decide) (by decide) (.space tail)

theorem lexes_placeholders (values : List Value) (tail : Lexes after tokens) :
    Lexes ((textOf (Piece.separated ", " (values.map fun v => [.bound v]))).toList ++ after)
      (placeholderTokens values ++ tokens) := by
  fun_induction placeholderTokens values with
  | case1 => simpa [textOf, Piece.separated] using tail
  | case2 v => simpa [textOf, Piece.separated, Piece.text] using Lexes.placeholder tail
  | case3 v next rest ih =>
    have listed := Lexes.placeholder (.lone (c := ',') (by decide) (by decide) (.space ih))
    simpa [textOf, Piece.separated, Piece.text] using listed

theorem lexes_opening (tail : Lexes after tokens) : Lexes ('(' :: after) (.symbol "(" :: tokens) :=
  .lone (by decide) (by decide) tail

theorem lexes_closing (tail : Lexes after tokens) : Lexes (')' :: after) (.symbol ")" :: tokens) :=
  .lone (by decide) (by decide) tail

theorem lexes_word (text : String) (spelled : isWord text = true) {d : Char} (stop : isWordPart d = false)
    (tail : Lexes (d :: after) tokens) : Lexes (text.toList ++ d :: after) (.word text :: tokens) :=
  .word text spelled (by simp [stop]) tail

/-- Every condition stands in parentheses, so it does not matter what follows. -/
theorem Condition.lexes {c : Condition} (writable : c.Writable) (tail : Lexes after tokens) :
    Lexes (c.text.toList ++ after) (c.tokens ++ tokens) := by
  induction c generalizing after tokens with
  | constant holds =>
    cases holds with
    | false =>
      have last := Lexes.number '0' (by decide) (by simp; decide) (lexes_closing tail)
      have first := Lexes.number '1' (by decide) (by simp; decide) (.space (lexes_comparison .eq last))
      exact lexes_opening first
    | true =>
      have last := Lexes.number '1' (by decide) (by simp; decide) (lexes_closing tail)
      have first := Lexes.number '1' (by decide) (by simp; decide) (.space (lexes_comparison .eq last))
      exact lexes_opening first
  | columns left op right =>
    have last := right.lexes writable.2 (by simp) (lexes_closing tail)
    have whole := lexes_opening (left.lexes writable.1 (by simp) (.space (lexes_comparison op last)))
    simpa [text, pieces, Piece.text, Condition.tokens] using whole
  | value c op v =>
    have last := lexes_comparison op (.placeholder (lexes_closing tail))
    have whole := lexes_opening (c.lexes writable (by simp) (.space last))
    simpa [text, pieces, Piece.text, Condition.tokens] using whole
  | null c negated =>
    have null := lexes_word "NULL" (by decide) (by decide) (lexes_closing tail)
    cases negated with
    | false =>
      have test := lexes_word "IS" (by decide) (by decide) (.space null)
      have whole := lexes_opening (c.lexes writable (by simp) (.space test))
      simpa [text, pieces, Piece.text, Condition.tokens] using whole
    | true =>
      have not := lexes_word "NOT" (by decide) (by decide) (.space null)
      have test := lexes_word "IS" (by decide) (by decide) (.space not)
      have whole := lexes_opening (c.lexes writable (by simp) (.space test))
      simpa [text, pieces, Piece.text, Condition.tokens] using whole
  | member c values negated =>
    have items := lexes_opening (lexes_placeholders values (lexes_closing (lexes_closing tail)))
    have test := lexes_word "IN" (by decide) (by decide) (.space items)
    cases negated with
    | false =>
      have whole := lexes_opening (c.lexes writable.1 (by simp) (.space test))
      simpa [text, pieces, Piece.text, Condition.tokens] using whole
    | true =>
      have not := lexes_word "NOT" (by decide) (by decide) (.space test)
      have whole := lexes_opening (c.lexes writable.1 (by simp) (.space not))
      simpa [text, pieces, Piece.text, Condition.tokens] using whole
  | glob c folded pattern =>
    have test := lexes_word "GLOB" (by decide) (by decide) (.space (.placeholder (lexes_closing tail)))
    cases folded with
    | false =>
      have whole := lexes_opening (c.lexes writable (by simp) (.space test))
      simpa [text, pieces, Piece.text, Condition.tokens] using whole
    | true =>
      have folded := lexes_opening (c.lexes writable (by simp) (lexes_closing (.space test)))
      have whole := lexes_opening (lexes_word "lower" (by decide) (by decide) folded)
      simpa [text, pieces, Piece.text, Condition.tokens] using whole
  | and left right ihLeft ihRight =>
    have last := ihRight writable.2 (lexes_closing tail)
    have middle := lexes_word "AND" (by decide) (by decide) (.space last)
    have whole := lexes_opening (ihLeft writable.1 (.space middle))
    simpa [text, pieces, Piece.text, Condition.tokens] using whole
  | or left right ihLeft ihRight =>
    have last := ihRight writable.2 (lexes_closing tail)
    have middle := lexes_word "OR" (by decide) (by decide) (.space last)
    have whole := lexes_opening (ihLeft writable.1 (.space middle))
    simpa [text, pieces, Piece.text, Condition.tokens] using whole
  | not inner ih =>
    have last := ih writable (lexes_closing tail)
    have whole := lexes_opening (lexes_word "NOT" (by decide) (by decide) (.space last))
    simpa [text, pieces, Piece.text, Condition.tokens] using whole

end Scanning

section Whole

theorem mem_doubled (mark d : Char) (cs : List Char) : d ∈ doubled mark cs → d = mark ∨ d ∈ cs := by
  fun_induction doubled mark cs with
  | case1 => simp
  | case2 rest ih =>
    simp only [List.mem_cons]
    rintro (same | same | later)
    · exact .inl same
    · exact .inl same
    · exact (ih later).imp_right .inr
  | case3 c rest other ih =>
    simp only [List.mem_cons]
    rintro (same | later)
    · exact .inr (.inl same)
    · exact (ih later).imp_right .inr

theorem zero_not_mem_quoted {name : String} (plain : '\x00' ∉ name.toList) : '\x00' ∉ (quoted name).toList := by
  have inner : '\x00' ∉ doubled '"' name.toList := by
    intro member
    rcases mem_doubled _ _ _ member with bad | bad
    · exact absurd bad (by decide)
    · exact plain bad
  simp [quoted, toList_quotedWith, inner]

theorem zero_not_mem_word {text : String} (word : isWord text = true) : '\x00' ∉ text.toList := by
  intro member
  unfold isWord at word
  split at word
  · cases word
  · rename_i first rest spelled
    simp only [Bool.and_eq_true, List.all_eq_true] at word
    rcases List.mem_cons.1 (spelled ▸ member) with rfl | later
    · exact absurd word.1 (by decide)
    · exact absurd (word.2 _ later) (by decide)

theorem ColumnName.Writable.zero_not_mem_text {c : ColumnName} (writable : c.Writable) :
    '\x00' ∉ c.text.toList := by
  simp [ColumnName.text, zero_not_mem_word writable.label.word, zero_not_mem_quoted writable.name]

theorem zero_not_mem_placeholders (values : List Value) :
    '\x00' ∉ (textOf (Piece.separated ", " (values.map fun v => [.bound v]))).toList := by
  fun_induction placeholderTokens values with
  | case1 => simp [Piece.separated]
  | case2 v => simp [Piece.separated, Piece.text]
  | case3 v next rest ih => simpa [Piece.separated, Piece.text] using ih

theorem Condition.zero_not_mem_text {c : Condition} (writable : c.Writable) : '\x00' ∉ c.text.toList := by
  have symbol (op : Comparison) : '\x00' ∉ op.symbol.toList := by cases op <;> decide
  induction c with
  | constant holds => cases holds <;> simp [text, pieces, Piece.text]
  | columns left op right =>
    have first := writable.1.zero_not_mem_text
    have second := writable.2.zero_not_mem_text
    simp [text, pieces, Piece.text, first, second, symbol]
  | value c op v =>
    have column := writable.zero_not_mem_text
    simp [text, pieces, Piece.text, column, symbol]
  | null c negated =>
    have column := writable.zero_not_mem_text
    cases negated <;> simp [text, pieces, Piece.text, column]
  | member c values negated =>
    have column := writable.1.zero_not_mem_text
    have items := zero_not_mem_placeholders values
    cases negated <;> simp [text, pieces, Piece.text, column, items]
  | glob c folded pattern =>
    have column := writable.zero_not_mem_text
    cases folded <;> simp [text, pieces, Piece.text, column]
  | and left right ihLeft ihRight | or left right ihLeft ihRight =>
    have first := ihLeft writable.1
    have second := ihRight writable.2
    simp_all [text, pieces, Piece.text]
  | not inner ih =>
    have first := ih writable
    simp_all [text, pieces, Piece.text]

end Whole

section Reading

variable {rest : List Terminal} {params : List Value} {frames : List Frame}

@[simp] theorem paramsOf_raw (written : String) (pieces : List Piece) :
    paramsOf (.raw written :: pieces) = paramsOf pieces := rfl

@[simp] theorem paramsOf_column (c : ColumnName) (pieces : List Piece) :
    paramsOf (.column c :: pieces) = paramsOf pieces := rfl

@[simp] theorem paramsOf_bound (v : Value) (pieces : List Piece) :
    paramsOf (.bound v :: pieces) = v :: paramsOf pieces := rfl

theorem paramsOf_placeholders (values : List Value) :
    paramsOf (Piece.separated ", " (values.map fun v => [.bound v])) = values := by
  fun_induction placeholderTokens values with
  | case1 => rfl
  | case2 => rfl
  | case3 v next rest ih => simpa [Piece.separated] using ih

@[simp] theorem paramsOf_nil : paramsOf [] = [] := rfl

@[simp] theorem ofToken_opening : Terminal.ofToken (.symbol "(") = .opening := by decide

@[simp] theorem ofToken_closing : Terminal.ofToken (.symbol ")") = .closing := by decide

@[simp] theorem ofToken_number (digits : String) : Terminal.ofToken (.number digits) = .number digits := rfl

@[simp] theorem ofToken_placeholder : Terminal.ofToken .placeholder = .placeholder := rfl

@[simp] theorem ofToken_comparison (op : Comparison) :
    Terminal.ofToken (.symbol op.symbol) = .comparison op := by
  cases op <;> decide

theorem ColumnName.terminals {c : ColumnName} (writable : c.Writable) :
    c.tokens.map Terminal.ofToken = [.label c.label, .dot, .quoted c.name] := by
  simp [ColumnName.tokens, Terminal.ofToken, writable.label.free, Terminal.ofSymbol]

@[simp] theorem readOperand_column (c : ColumnName) :
    readOperand (.label c.label :: .dot :: .quoted c.name :: rest) params frames =
      readOperator (.column c) rest params frames := by
  simp [readOperand]

@[simp] theorem readOperator_closing (operand : Expression) :
    readOperator operand (.closing :: rest) params (.group :: frames) =
      readOperator operand rest params frames := by
  simp [readOperator, close, reduce]

theorem readOperand_items (subject : Expression) (negated : Bool) (before : List Expression) {values : List Value}
    (some : values ≠ []) (rest : List Terminal) (params : List Value) (frames : List Frame) :
    readOperand ((placeholderTokens values).map .ofToken ++ .closing :: rest) (values ++ params)
        (.items subject negated before :: frames) =
      readOperator (.member subject (before ++ values.map .bound) negated) rest params frames := by
  fun_induction placeholderTokens values generalizing before with
  | case1 => exact absurd rfl some
  | case2 v => simp [readOperand, readOperator, close, reduce]
  | case3 v next others ih =>
    have later := ih (before ++ [.bound v]) (by simp)
    simp only [List.map_cons, List.cons_append, List.append_assoc, ofToken_placeholder] at later ⊢
    simpa [Terminal.ofToken, readOperand, readOperator, reduce, Terminal.ofSymbol] using later

/-- A condition is read as one operand, whatever stands around it, and takes its own parameters. -/
theorem Condition.readOperand_tokens {c : Condition} (writable : c.Writable) (rest : List Terminal)
    (params : List Value) (frames : List Frame) :
    readOperand (c.tokens.map .ofToken ++ rest) (paramsOf c.pieces ++ params) frames =
      readOperator c.expression rest params frames := by
  have word (k : Keyword) (text : String) (spelled : keyword? text = some k) :
      Terminal.ofToken (.word text) = .keyword k := by
    simp [Terminal.ofToken, spelled]
  induction c generalizing rest params frames with
  | constant holds =>
    cases holds <;>
      simp [tokens, pieces, Terminal.ofToken, Terminal.ofSymbol, readOperand, readOperator, readOperation, reduce,
        close, expression, Operator.apply]
  | columns left op right =>
    simp [tokens, pieces, ColumnName.terminals writable.1, ColumnName.terminals writable.2, readOperand,
      readOperator, readOperation, reduce, close, expression, Operator.apply]
  | value c op v =>
    simp [tokens, pieces, ColumnName.terminals writable, readOperand, readOperator, readOperation, reduce, close,
      expression, Operator.apply]
  | null c negated =>
    cases negated <;>
      simp [tokens, pieces, ColumnName.terminals writable, word .is "IS" rfl, word .not "NOT" rfl,
        word .null "NULL" rfl, readOperand, readOperator, reduce, expression]
  | member c values negated =>
    have items := readOperand_items (.column c) negated [] writable.2 (.closing :: rest) params (.group :: frames)
    cases negated <;>
      simp [tokens, pieces, ColumnName.terminals writable.1, word .member "IN" rfl, word .not "NOT" rfl,
        paramsOf_placeholders, readOperand, readOperator, reduce, expression, items]
  | glob c folded pattern =>
    have lower : Terminal.ofToken (.word "lower") = .label "lower" := by decide
    have called : sameIgnoringCase "lower" "lower" = true := by decide
    cases folded <;>
      simp [tokens, pieces, ColumnName.terminals writable, word .glob "GLOB" rfl, lower, called, readOperand,
        readOperator, readOperation, reduce, close, expression, Operator.apply]
  | and left right ihLeft ihRight =>
    have last := ihRight writable.2 (.closing :: rest) params (.operation left.expression .and :: .group :: frames)
    simp [tokens, pieces, word .and "AND" rfl, readOperand, readOperator, readOperation, reduce, close, expression,
      Operator.apply, ihLeft writable.1, last]
  | or left right ihLeft ihRight =>
    have last := ihRight writable.2 (.closing :: rest) params (.operation left.expression .or :: .group :: frames)
    simp [tokens, pieces, word .or "OR" rfl, readOperand, readOperator, readOperation, reduce, close, expression,
      Operator.apply, ihLeft writable.1, last]
  | not inner ih =>
    simp [tokens, pieces, word .not "NOT" rfl, readOperand, readOperator, reduce, close, expression, ih writable]

theorem Condition.read_text {c : Condition} (writable : c.Writable) :
    Expression.read c.text c.params = some c.expression := by
  have spelled : Lexes c.text.toList c.tokens := by simpa using c.lexes writable .done
  obtain ⟨same, sound⟩ := lexemes_of_lexes c.text c.tokens spelled (zero_not_mem_text writable)
  have whole := readOperand_tokens writable [] [] []
  rcases scanned : lexemes c.text with ⟨found, fault⟩
  simp only [scanned] at same sound
  subst sound
  simp only [← same, List.map_map, List.append_nil] at whole
  simpa [Expression.read, scanned, Function.comp_def, Condition.params, readOperator, reduce] using whole

end Reading

end RecordMapper.Sql
