import RecordMapper.Sql.Token

namespace RecordMapper.Sql

open RecordMapper.Text

inductive TextFault where
  | near (mark : Mark)
  | unrecognized (mark : Mark)
  | incomplete
  deriving DecidableEq, Repr

structure Pending where
  lexemes : List Lexeme
  params : List Value

abbrev Reading (α : Type) := StateT Pending (Except TextFault) α

namespace Reading

def fail {α : Type} : Reading α := fun p =>
  match p.lexemes with
  | l :: _ => .error (.near l.mark)
  | [] => .error .incomplete

def accept {α : Type} (take : Token → Option α) : Reading α := fun p =>
  match p.lexemes with
  | l :: rest =>
    match take l.token with
    | some a => .ok (a, { p with lexemes := rest })
    | none => .error (.near l.mark)
  | [] => .error .incomplete

def next? : Reading (Option Token) := fun p => .ok (p.lexemes.head?.map Lexeme.token, p)

def isWord (word : String) : Token → Bool
  | .word text => sameIgnoringCase text word
  | _ => false

def isSymbol (symbol : String) : Token → Bool
  | .symbol text => text == symbol
  | _ => false

def when? (test : Token → Bool) : Token → Option Unit :=
  fun t => if test t then some () else none

def word (w : String) : Reading Unit := accept (when? (isWord w))

def symbol (s : String) : Reading Unit := accept (when? (isSymbol s))

def words : List String → Reading Unit
  | [] => pure ()
  | w :: rest => do
    word w
    words rest

def taken (test : Token → Bool) : Reading Bool := do
  match ← next? with
  | some t =>
    if test t then do
      accept (when? test)
      pure true
    else pure false
  | none => pure false

def nameOf : Token → Option String
  | .word text => some text
  | .quoted name => some name
  | _ => none

def name : Reading String := accept nameOf

def markedName : Reading (String × Mark) := fun p =>
  match p.lexemes with
  | l :: rest =>
    match nameOf l.token with
    | some n => .ok ((n, l.mark), { p with lexemes := rest })
    | none => .error (.near l.mark)
  | [] => .error .incomplete

def writtenName : Reading WrittenName := fun p =>
  match p.lexemes with
  | ⟨.word text, mark⟩ :: rest => .ok (⟨text, false, mark.offset⟩, { p with lexemes := rest })
  | ⟨.quoted text, mark⟩ :: rest => .ok (⟨text, true, mark.offset⟩, { p with lexemes := rest })
  | l :: _ => .error (.near l.mark)
  | [] => .error .incomplete

def parameter : Reading Value := do
  accept (when? (· == .placeholder))
  modifyGet fun p => (p.params.head?.getD .null, { p with params := p.params.tail })

def commaSeparated {α : Type} (item : Reading α) : (fuel : Nat) → Reading (List α)
  | 0 => fail
  | fuel + 1 => do
    let first ← item
    if ← taken (isSymbol ",") then
      let rest ← commaSeparated item fuel
      pure (first :: rest)
    else pure [first]

def listOf {α : Type} (item : Reading α) : Reading (List α) := fun p =>
  commaSeparated item (p.lexemes.length + 1) p

def parenthesised {α : Type} (inner : Reading α) : Reading α := do
  symbol "("
  let a ← inner
  symbol ")"
  pure a

def finished : Reading Unit := do
  let _ ← taken (isSymbol ";")
  match ← next? with
  | none => pure ()
  | some _ => fail

/-- What starts a constraint, and so ends a column's type. -/
def startsConstraint (t : Token) : Bool :=
  ["PRIMARY", "NOT", "REFERENCES"].any (isWord · t)

def typeWords : (fuel : Nat) → Reading (List String)
  | 0 => pure []
  | fuel + 1 => do
    match ← next? with
    | some (.word text) =>
      if startsConstraint (.word text) then pure []
      else
        accept (when? (isWord text))
        let rest ← typeWords fuel
        pure (text :: rest)
    | _ => pure []

def typeSize : Reading String := do
  if ← taken (isSymbol "(") then
    let numbers ← listOf (accept fun
      | .number digits => some digits
      | _ => none)
    symbol ")"
    pure ("(" ++ joined "," numbers ++ ")")
  else pure ""

def reference : Reading Reference := do
  let table ← name
  let column ← parenthesised name
  if ← taken (isWord "DEFERRABLE") then
    words ["INITIALLY", "DEFERRED"]
    pure ⟨table, column, true⟩
  else pure ⟨table, column, false⟩

def constraints (c : ColumnDefinition) : (fuel : Nat) → Reading ColumnDefinition
  | 0 => pure c
  | fuel + 1 => do
    if ← taken (isWord "PRIMARY") then
      word "KEY"
      constraints { c with key := true } fuel
    else if ← taken (isWord "NOT") then
      word "NULL"
      constraints { c with required := true } fuel
    else if ← taken (isWord "REFERENCES") then
      let r ← reference
      constraints { c with reference := some r } fuel
    else pure c

inductive Entry where
  | column (column : ColumnDefinition)
  | key (names : List String)

def entry : Reading Entry := do
  if ← taken (isWord "PRIMARY") then
    word "KEY"
    let names ← parenthesised (listOf name)
    pure (.key names)
  else
    let columnName ← name
    let typeName ← typeWords 8
    let size ← typeSize
    let c ← constraints ⟨columnName, joined " " typeName ++ size, false, false, none⟩ 8
    pure (.column c)

def createTable : Reading Command := do
  words ["CREATE", "TABLE"]
  let (tableName, mark) ← markedName
  let entries ← parenthesised (listOf entry)
  let columns := entries.filterMap fun
    | .column c => some c
    | .key _ => none
  let key := entries.flatMap fun
    | .column _ => []
    | .key names => names
  pure (.createTable ⟨tableName, columns, key⟩ mark)

def insert : Reading Command := do
  word "INSERT"
  let rollsBack ← taken (isWord "OR")
  if rollsBack then word "ROLLBACK"
  word "INTO"
  let table ← name
  let columns ←
    match ← next? with
    | some (.symbol "(") => do
      let names ← parenthesised (listOf name)
      pure (some names)
    | _ => pure none
  word "VALUES"
  let rows ← listOf (parenthesised (listOf parameter))
  pure (if rollsBack then .insertOrRollback table columns rows else .insert table columns rows)

def term : Reading Term := do
  match ← next? with
  | some (.number _) => do
    accept (when? (· == .number "1"))
    pure .one
  | some .placeholder => do
    let v ← parameter
    if ← taken (isSymbol "+") then
      accept (when? (· == .number "1"))
      pure (.plusOne v)
    else pure (.bound v)
  | _ => do
    word "CAST"
    symbol "("
    let v ← parameter
    words ["AS", "TEXT"]
    symbol ")"
    pure (.asText v)

def terms : Reading Command := do
  let items ← listOf term
  if ← taken (isWord "WHERE") then
    accept (when? (· == .number "1"))
    symbol "="
    accept (when? (· == .number "0"))
    pure (.terms items false)
  else pure (.terms items true)

def count : Reading Command := do
  word "COUNT"
  parenthesised (symbol "*")
  word "FROM"
  let table ← name
  pure (.count ⟨⟨table, table⟩, [], none⟩)

def indexNames : Reading Command := do
  words ["type"]
  symbol "="
  accept (when? (· == .string "index"))
  words ["AND", "sql", "IS", "NOT", "NULL", "ORDER", "BY", "name"]
  pure .indexNames

def project : Reading Command := do
  let names ← listOf writtenName
  word "FROM"
  let table ← name
  if isWord "sqlite_master" (.word table) then
    word "WHERE"
    indexNames
  else if ← taken (isWord "ORDER") then
    word "BY"
    let order ← listOf writtenName
    pure (.project names table order)
  else pure (.project names table [])

def select : Reading Command := do
  word "SELECT"
  match ← next? with
  | some (.number _) | some .placeholder => terms
  | some t => if isWord "CAST" t then terms else if isWord "COUNT" t then count else project
  | none => fail

def command : Reading Command := do
  match ← next? with
  | some (.word text) =>
    if sameIgnoringCase text "SELECT" then select
    else if sameIgnoringCase text "INSERT" then insert
    else if sameIgnoringCase text "CREATE" then createTable
    else if ← taken (isWord "BEGIN") then pure .begin
    else if ← taken (isWord "COMMIT") then pure .commit
    else if ← taken (isWord "ROLLBACK") then pure .rollback
    else fail
  | _ => fail

def statement : Reading Command := do
  let c ← command
  finished
  pure c

end Reading

/-- The command that a text stands for with the given parameters. -/
def readCommand (sql : String) (params : List Value) : Except TextFault Command :=
  let (found, fault) := lexemes sql
  match Reading.statement ⟨found, params⟩, fault with
  | .ok (c, _), none => .ok c
  | .error (.near mark), _ => .error (.near mark)
  | _, some mark => .error (.unrecognized mark)
  | .error e, none => .error e

end RecordMapper.Sql
