import RecordMapper.Sql.Command
import RecordMapper.Store.Fault
import RecordMapper.Store.References

namespace RecordMapper.Store

open RecordMapper.Text

/-- Entries that the reader of statements can stack. -/
def stackLimit : Nat := 99

def conditionPlace? : Sql.Command → Option (Nat × Sql.Condition)
  | .select _ rows _ _ | .count rows => rows.filter.map fun f => (5, f)
  | .countWindow rows _ | .countDistinct _ rows _ => rows.filter.map fun f => (11, f)
  | .update _ _ filter => filter.map fun f => (9, f)
  | .delete _ filter => filter.map fun f => (6, f)
  | _ => none

def isTooDeep (command : Sql.Command) : Bool :=
  match conditionPlace? command with
  | some (before, condition) => stackLimit < before + condition.depth
  | none => false

def misplaced (before token : String) : Fault :=
  ⟨.syntaxError token, some before.utf8ByteSize⟩

def textFault? (command : Sql.Command) : Option Fault :=
  match command with
  | .select [] _ _ _ => some (misplaced "SELECT  " "FROM")
  | .countDistinct [] _ _ => some (misplaced "SELECT COUNT(*) FROM (SELECT DISTINCT  " "FROM")
  | .createTable ⟨name, [], _⟩ _ => some (misplaced ("CREATE TABLE " ++ quoted name ++ " (") ")")
  | command => if isTooDeep command then some (.unplaced .nestedTooDeep) else none

abbrev Sources := List (String × StoredTable)

def Sources.has (s : Sources) (c : Sql.ColumnName) : Bool :=
  match s.lookup c.label with
  | some t => (t.spot? c.name).isSome
  | none => false

structure Lookup where
  column : Sql.ColumnName
  offset : Option Nat
  deriving DecidableEq, Repr

def Lookup.fault (l : Lookup) : Fault :=
  ⟨.noSuchColumn (l.column.label ++ "." ++ l.column.name), l.offset⟩

def Sources.knows (s : Sources) (l : Lookup) : Bool :=
  s.has l.column

/-- Searches the columns as `Sql.Condition.search` lays down; a later unknown one replaces `found`. -/
def Sources.unknownFrom? (s : Sources) (found : Option Lookup) :
    List Sql.Glance → List Lookup → Option Lookup
  | .halt :: rest, lookups => if found.isSome then found else s.unknownFrom? found rest lookups
  | .look :: rest, l :: lookups =>
    s.unknownFrom? (if s.knows l then found else some l) rest lookups
  | .lookOnce :: rest, l :: lookups =>
    s.unknownFrom? (if found.isSome || s.knows l then found else some l) rest lookups
  | _, _ => found

def placed (start : Nat) (pieces : List Sql.Piece) : List Lookup :=
  (Sql.placesFrom start pieces).map fun p => ⟨p.1, some p.2⟩

def linked (links : List Sql.Link) : List Lookup :=
  (Sql.columnsOf (links.flatMap Sql.Link.pieces)).map fun c => ⟨c, none⟩

def byteLength (pieces : List Sql.Piece) : Nat :=
  (Sql.textOf pieces).utf8ByteSize

def tableOf (c : Content) (name : String) : Except Fault StoredTable :=
  match c.table? name with
  | some t => .ok t
  | none => .error (.unplaced (.noSuchTable name))

def sourcesOf (c : Content) (rows : Sql.Rows) : Except Fault Sources :=
  (rows.source :: rows.links.map Sql.Link.source).mapM fun s => do
    let t ← tableOf c s.table
    pure (s.label, t)

def refuse (fault : Option Fault) : Except Fault Unit :=
  match fault with
  | some fault => .error fault
  | none => .ok ()

def checkColumns (s : Sources) (lookups : List Lookup) : Except Fault Unit :=
  refuse ((lookups.find? fun l => !s.knows l).map Lookup.fault)

def checkFilter (s : Sources) (start : Nat) (filter : Option Sql.Condition) : Except Fault Unit :=
  match filter with
  | some f =>
    let lookups := placed start (Sql.filterPieces (some f))
    refuse ((s.unknownFrom? none f.search lookups).map Lookup.fault)
  | none => .ok ()

/-- Checks a statement that reads: `head` pieces stand before the listed columns, which are looked
    up first, then those of the filter, of the links and of the order. -/
def checkReading (c : Content) (head list : List Sql.Piece) (rows : Sql.Rows) (order : List Sql.OrderTerm) :
    Except Fault Unit := do
  let sources ← sourcesOf c rows
  let before := byteLength head
  checkColumns sources (placed before list)
  let filtered := before + byteLength list + " FROM ".utf8ByteSize + byteLength rows.fromPieces
  checkFilter sources filtered rows.filter
  checkColumns sources (linked rows.links)
  checkColumns sources (placed (filtered + byteLength (Sql.filterPieces rows.filter)) (Sql.orderPieces order))

def checkOwnFilter (t : StoredTable) (head : List Sql.Piece) (filter : Option Sql.Condition) :
    Except Fault Unit :=
  checkFilter [(Sql.rootLabel, t)] (byteLength head) filter

def referenceFault (c : Content) (child : StoredTable) (r : Sql.Reference) : Except Fault Unit :=
  match c.table? r.table with
  | none => .error (.unplaced (.noSuchTable ("main." ++ r.table)))
  | some _ =>
    match c.target? r with
    | none => .error (.unplaced (.referenceMismatch child.name r.table))
    | some _ => .ok ()

inductive Change where
  | insert
  | update (columns : List String)
  | delete

def Change.touches (change : Change) (column : String) : Bool :=
  match change with
  | .update columns => columns.any fun c => sameIgnoringCase c column
  | _ => true

/-- Checks that the references concerned by a change can be followed. A single inserted row cannot
    break a reference to its table, unless that is checked later. -/
def checkReferences (c : Content) (t : StoredTable) (change : Change) : Except Fault Unit := do
  for column in t.columns do
    match column.reference with
    | some r =>
      if change.touches column.name || sameIgnoringCase r.table t.name then referenceFault c t r
    | none => pure ()
  for (child, r) in c.referencesTo t.name do
    let concerned := match change with
      | .insert => r.deferred
      | change => change.touches r.column
    if concerned then referenceFault c child r

def missingNames? (t : StoredTable) (names : List String) : Option String :=
  names.find? fun n => (t.spot? n).isNone

def checkInsert (c : Content) (table : String) (columns : Option (List String)) (rows : List (List Value)) :
    Except Fault StoredTable := do
  let t ← tableOf c table
  match columns with
  | some names =>
    if let some n := missingNames? t names then throw (.unplaced (.noColumnNamed table n))
  | none =>
    let given := (rows.head?.map List.length).getD 0
    if given ≠ t.columns.length then throw (.unplaced (.valueCount table t.columns.length given))
  pure t

def isReserved (name : String) : Bool :=
  sameIgnoringCase (name.take 7).toString "sqlite_"

def checkCreate (c : Content) (t : Sql.TableDefinition) (mark : Sql.Mark) : Except Fault Unit := do
  if isReserved t.name then throw (.unplaced (.reservedName t.name))
  if (c.table? t.name).isSome then throw ⟨.tableExists mark.text, some mark.offset⟩
  if (c.index? t.name).isSome then throw (.unplaced (.indexHasName t.name))
  if let some n := repeated? [] (t.columns.map Sql.ColumnDefinition.name) then
    throw (.unplaced (.duplicateColumn n))
where
  repeated? (seen : List String) : List String → Option String
    | [] => none
    | n :: rest => if seen.any (sameIgnoringCase n) then some n else repeated? (n :: seen) rest

def checkIndex (c : Content) (i : Sql.IndexDefinition) : Except Fault Unit := do
  if (c.table? i.table).isNone then throw (.unplaced (.noSuchTable ("main." ++ i.table)))
  if isReserved i.name then throw (.unplaced (.reservedName i.name))
  if (c.table? i.name).isSome then throw (.unplaced (.tableHasName i.name))

/-- A name that is none may still stand for its text if it is in quotes. -/
def checkWritten (t : StoredTable) (names : List Sql.WrittenName) : Except Fault Unit :=
  match names.find? fun n => !n.inQuotes && (t.spot? n.name).isNone with
  | some n => .error ⟨.noSuchColumn n.name, some n.offset⟩
  | none => .ok ()

/-- Refuses a statement that the content cannot run; `enforces` says whether references count. -/
def checkCommand (c : Content) (enforces : Bool) (command : Sql.Command) : Except Fault Unit := do
  refuse (textFault? command)
  match command with
  | .select columns rows order _ =>
    checkReading c [.raw "SELECT "] (Sql.selectListPieces columns) rows order
  | .count rows => checkReading c [.raw "SELECT COUNT(*)"] [] rows []
  | .countWindow rows _ => checkReading c [.raw "SELECT COUNT(*) FROM (SELECT 1"] [] rows []
  | .countDistinct columns rows _ =>
    checkReading c [.raw "SELECT COUNT(*) FROM (SELECT DISTINCT "] (Sql.columnListPieces columns) rows []
  | .insert table columns rows | .insertOrRollback table columns rows =>
    let t ← checkInsert c table columns rows
    if enforces then checkReferences c t .insert
  | .update table assignments filter =>
    let t ← tableOf c table
    if let some n := missingNames? t (assignments.map Prod.fst) then throw (.unplaced (.noSuchColumn n))
    checkOwnFilter t (Sql.Command.pieces (.update table assignments none)) filter
    if enforces then checkReferences c t (.update (assignments.map Prod.fst))
  | .delete table filter =>
    let t ← tableOf c table
    checkOwnFilter t (Sql.Command.pieces (.delete table none)) filter
    if enforces then checkReferences c t .delete
  | .createTable t mark => checkCreate c t mark
  | .dropTable _ => pure ()
  | .addColumn table column =>
    let t ← tableOf c table
    if (t.columnIndex? column.name).isSome then throw (.unplaced (.duplicateColumn column.name))
  | .createIndex i => checkIndex c i
  | .project names table order =>
    let t ← tableOf c table
    checkWritten t names
    checkWritten t order
  | .tableExists _ | .tableInfo _ | .indexNames | .terms .. | .begin | .commit | .rollback => pure ()

end RecordMapper.Store
