import RecordMapper.Sql.Command
import RecordMapper.Text.Blank
import RecordMapper.Text.Quoted
import RecordMapper.Text.Utf8

namespace RecordMapper.Sql

open RecordMapper.Text

inductive Token where
  | word (text : String)
  | quoted (name : String)
  | string (text : String)
  | number (digits : String)
  | placeholder
  | symbol (text : String)
  deriving DecidableEq, Repr

structure Lexeme where
  token : Token
  mark : Mark
  deriving DecidableEq, Repr

def isWordStart (c : Char) : Bool :=
  c.isAlpha || c == '_' || 127 < c.toNat

def isWordPart (c : Char) : Bool :=
  isWordStart c || isDigit c || c == '$'

def signPairs : List (Char × Char) :=
  [('<', '>'), ('<', '='), ('>', '='), ('!', '='), ('|', '|')]

/-- Reads one token from text that does not begin with white space; nothing for one that has no end. -/
def token? : List Char → Option (Token × List Char)
  | [] => none
  | '?' :: rest => some (.placeholder, rest)
  | '"' :: rest => (unquote '"' rest).map fun (name, after) => (.quoted (String.ofList name), after)
  | '\'' :: rest => (unquote '\'' rest).map fun (text, after) => (.string (String.ofList text), after)
  | c :: rest =>
    if isWordStart c then
      some (.word (String.ofList (c :: rest.takeWhile isWordPart)), rest.dropWhile isWordPart)
    else if isDigit c then
      some (.number (String.ofList (c :: rest.takeWhile isDigit)), rest.dropWhile isDigit)
    else
      match rest with
      | d :: after =>
        if (c, d) ∈ signPairs then some (.symbol (String.ofList [c, d]), after)
        else some (.symbol (String.ofList [c]), rest)
      | [] => some (.symbol (String.ofList [c]), [])

theorem token?_quoted (name : String) (after : List Char) (h : after.head? ≠ some '"') :
    token? ((quoted name).toList ++ after) = some (.quoted name, after) := by
  rw [quoted, toList_quotedWith]
  simp [token?, unquote_doubled _ _ _ h]

def lexemesFrom : (fuel start : Nat) → List Char → List Lexeme × Option Mark
  | 0, _, _ => ([], none)
  | fuel + 1, start, text =>
    let trimmed := text.dropWhile isAsciiBlank
    let start := start + (text.length - trimmed.length)
    if trimmed.isEmpty then ([], none)
    else
      match token? trimmed with
      | none => ([], some ⟨String.ofList trimmed, start⟩)
      | some (token, after) =>
        let written := trimmed.take (trimmed.length - after.length)
        let (lexemes, fault) := lexemesFrom fuel (start + byteCount written) after
        (⟨token, ⟨String.ofList written, start⟩⟩ :: lexemes, fault)

def lexemes (sql : String) : List Lexeme × Option Mark :=
  let text := sql.toList.takeWhile (· != '\x00')
  lexemesFrom (text.length + 1) 0 text

def placeholderCount (sql : String) : Nat :=
  ((lexemes sql).1.filter (·.token == .placeholder)).length

end RecordMapper.Sql
