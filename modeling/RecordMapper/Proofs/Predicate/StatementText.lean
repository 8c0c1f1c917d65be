import RecordMapper.Proofs.Predicate.ConditionText
import RecordMapper.Sql.Statement

namespace RecordMapper.Sql

open RecordMapper.Text

section Tokens

def ColumnName.itemTokens (c : ColumnName) : List Token :=
  c.tokens ++ [.word "AS", .quoted (c.label ++ "." ++ c.name)]

def filterTokens : Option Condition → List Token
  | none => []
  | some condition => .word "WHERE" :: condition.tokens

theorem count_tokens (c : ColumnName) : c.tokens.count .placeholder = 0 := by
  simp [ColumnName.tokens]

theorem count_placeholderTokens (values : List Value) : (placeholderTokens values).count .placeholder = values.length := by
  fun_induction placeholderTokens values with
  | case1 => rfl
  | case2 => rfl
  | case3 v next rest ih => simp [ih]

theorem Condition.count_tokens (c : Condition) : c.tokens.count .placeholder = c.params.length := by
  induction c with
  | constant holds => cases holds <;> rfl
  | columns left op right => simp [tokens, Sql.count_tokens, params, pieces]
  | value c op v => simp [tokens, Sql.count_tokens, params, pieces]
  | null c negated => cases negated <;> simp [tokens, Sql.count_tokens, params, pieces]
  | member c values negated =>
    cases negated <;>
      simp [tokens, Sql.count_tokens, count_placeholderTokens, params, pieces, paramsOf_placeholders]
  | glob c folded pattern => cases folded <;> simp [tokens, Sql.count_tokens, params, pieces]
  | and left right ihLeft ihRight | or left right ihLeft ihRight =>
    simp only [params] at ihLeft ihRight
    simp [tokens, params, pieces, ihLeft, ihRight]
  | not inner ih =>
    simp only [params] at ih
    simp [tokens, params, pieces, ih]

theorem placeholderCount_of_lexes {sql : String} {tokens : List Token} (lexes : Lexes sql.toList tokens)
    (whole : '\x00' ∉ sql.toList) : placeholderCount sql = tokens.count .placeholder := by
  have same := (lexemes_of_lexes sql tokens lexes whole).1
  rw [placeholderCount, ← same, List.count_eq_countP, List.countP_map, List.countP_eq_length_filter]
  rfl

end Tokens

section Cut

variable {name : String}

def cut (text : List Char) : List Char :=
  text.takeWhile (· != '\x00')

theorem cut_append {before : List Char} (plain : '\x00' ∉ before) (after : List Char) :
    cut (before ++ after) = before ++ cut after := by
  refine List.takeWhile_append_of_pos fun c member => ?_
  simpa using fun same : c = '\x00' => plain (same ▸ member)

theorem cut_doubled {mark : Char} (other : mark ≠ '\x00') {text : List Char} (zero : '\x00' ∈ text) (after : List Char) :
    cut (doubled mark text ++ after) = doubled mark (cut text) := by
  induction text with
  | nil => cases zero
  | cons c text ih =>
    by_cases here : c = '\x00'
    · subst here
      rw [doubled, if_neg other.symm]
      rfl
    · have later := ih (by simpa [Ne.symm here] using zero)
      have kept : cut (c :: text) = c :: cut text := by simp [cut, here]
      rw [kept, doubled, doubled, ← later]
      by_cases same : c = mark
      · simp [same, cut, other]
      · simp [same, cut, here]

theorem mem_joined {part separator : String} {parts : List String} {c : Char} (listed : part ∈ parts)
    (member : c ∈ part.toList) : c ∈ (joined separator parts).toList := by
  fun_induction joined separator parts with
  | case1 => cases listed
  | case2 only => exact List.mem_singleton.1 listed ▸ member
  | case3 first next rest ih =>
    rw [String.toList_append, String.toList_append, List.mem_append, List.mem_append]
    rcases List.mem_cons.1 listed with rfl | later
    · exact .inl (.inl member)
    · exact .inr (ih later)

theorem mem_quoted {c : Char} (member : c ∈ name.toList) : c ∈ (quoted name).toList := by
  have inner : ∀ text : List Char, c ∈ text → c ∈ doubled '"' text := by
    intro text
    fun_induction doubled '"' text with
    | case1 => exact id
    | case2 rest ih =>
      intro inside
      rcases List.mem_cons.1 inside with rfl | later
      · exact List.mem_cons_self
      · exact List.mem_cons_of_mem _ (List.mem_cons_of_mem _ (ih later))
    | case3 d rest other ih =>
      intro inside
      rcases List.mem_cons.1 inside with rfl | later
      · exact List.mem_cons_self
      · exact List.mem_cons_of_mem _ (ih later)
  simp [quoted, toList_quotedWith, inner _ member]

end Cut

end RecordMapper.Sql
