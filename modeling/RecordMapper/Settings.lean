import RecordMapper.Document.Basic

namespace RecordMapper

inductive JournalMode where
  | wal
  | delete
  | memory
  deriving DecidableEq, Repr

def JournalMode.name : JournalMode → String
  | .wal => "wal"
  | .delete => "delete"
  | .memory => "memory"

inductive Wanted where
  | natural
  | boolean
  | path
  | variant
  | nothing
  | settings
  deriving DecidableEq, Repr

def Wanted.text : Wanted → String
  | .natural => "u64"
  | .boolean => "a boolean"
  | .path => "path string"
  | .variant => "string or map"
  | .nothing => "unit"
  | .settings => "struct DatabaseConfig"

inductive SettingsFault where
  | invalidType (found : String) (wanted : Wanted)
  | negative (n : Int)
  | unknownVariant (name : String)
  | notOneEntry
  | tooLong (length : Nat)
  deriving DecidableEq, Repr

def SettingsFault.message : SettingsFault → String
  | .invalidType found wanted => "invalid type: " ++ found ++ ", expected " ++ wanted.text
  | .negative n => "invalid value: integer `" ++ toString n ++ "`, expected " ++ Wanted.natural.text
  | .unknownVariant name => "unknown variant `" ++ name ++ "`, expected one of `wal`, `delete`, `memory`"
  | .notOneEntry => "invalid value: map, expected map with a single key"
  | .tooLong length =>
    "invalid length " ++ toString length ++ ", expected fewer elements in array"

structure Settings where
  path : Option String
  busyTimeout : UInt64
  journalMode : JournalMode
  foreignKeys : Bool
  deriving DecidableEq, Repr

namespace Settings

def default : Settings := ⟨none, 5000, .wal, true⟩

def timeoutSeconds (s : Settings) : Nat :=
  s.busyTimeout.toNat / 1000

def mismatch {α : Type} (found : Document) (wanted : Wanted) : Except SettingsFault α :=
  .error (.invalidType found.described wanted)

def readPath : Document → Except SettingsFault (Option String)
  | .null => .ok none
  | .text s => .ok (some s)
  | other => mismatch other .path

def readNatural : Document → Except SettingsFault UInt64
  | .integer n => if n < 0 then .error (.negative n) else .ok (UInt64.ofNat n.toNat)
  | other => mismatch other .natural

def readBool : Document → Except SettingsFault Bool
  | .bool b => .ok b
  | other => mismatch other .boolean

def journalMode? (name : String) : Except SettingsFault JournalMode :=
  match [JournalMode.wal, .delete, .memory].find? (·.name == name) with
  | some mode => .ok mode
  | none => .error (.unknownVariant name)

def readJournalMode : Document → Except SettingsFault JournalMode
  | .text name => journalMode? name
  | .object [(name, content)] => do
    let mode ← journalMode? name
    match content with
    | .null => pure mode
    | other => mismatch other .nothing
  | .object _ => .error .notOneEntry
  | other => mismatch other .variant

def readEntry {α : Type} (entries : List (String × Document)) (name : String)
    (read : Document → Except SettingsFault α) (absent : α) : Except SettingsFault α :=
  match entries.lookup name with
  | some d => read d
  | none => .ok absent

def readItem {α : Type} (items : List Document) (position : Nat)
    (read : Document → Except SettingsFault α) (absent : α) : Except SettingsFault α :=
  match items[position]? with
  | some d => read d
  | none => .ok absent

/-- Entries are read in the order of their names, items in the order of the list. -/
def ofDocument : Document → Except SettingsFault Settings
  | .object entries => do
    let busyTimeout ← readEntry entries "busy_timeout_ms" readNatural default.busyTimeout
    let foreignKeys ← readEntry entries "foreign_keys" readBool default.foreignKeys
    let journalMode ← readEntry entries "journal_mode" readJournalMode default.journalMode
    let path ← readEntry entries "path" readPath default.path
    pure ⟨path, busyTimeout, journalMode, foreignKeys⟩
  | .list items => do
    let path ← readItem items 0 readPath default.path
    let busyTimeout ← readItem items 1 readNatural default.busyTimeout
    let journalMode ← readItem items 2 readJournalMode default.journalMode
    let foreignKeys ← readItem items 3 readBool default.foreignKeys
    if 4 < items.length then throw (.tooLong items.length)
    pure ⟨path, busyTimeout, journalMode, foreignKeys⟩
  | other => mismatch other .settings

end Settings

end RecordMapper
