import RecordMapper.Proofs.Schema.Description
import RecordMapper.Proofs.Statement.Parameters
import RecordMapper.Proofs.Statement.Readings

namespace RecordMapper.Sql

open RecordMapper.Text

namespace ColumnDefinition

/-- A column as the mapper defines one: its type is one word that starts no constraint, and it refers to no other. -/
structure Ordinary (c : ColumnDefinition) : Prop where
  type : Reading.startsConstraint (.word c.declared) = false
  reference : c.reference = none

def constraintTokens (c : ColumnDefinition) : List Token :=
  (if c.key then [.word "PRIMARY", .word "KEY"] else []) ++ if c.required then [.word "NOT", .word "NULL"] else []

end ColumnDefinition

namespace Reading

theorem stopsType_constraints {c : ColumnDefinition} {next : Option Token} (ends : Ends next) :
    StopsType (c.constraintTokens.head?.or next) := by
  unfold ColumnDefinition.constraintTokens
  cases c.key with
  | true => exact .inr (.inl rfl)
  | false =>
    cases c.required with
    | true => exact .inr (.inr rfl)
    | false => exact .inl ends

theorem takes_constraints {c : ColumnDefinition} (none' : c.reference = none) :
    Takes (constraints ⟨c.name, c.declared, false, false, none⟩ 8) c.constraintTokens Ends c := by
  obtain ⟨name, declared, key, required, reference⟩ := c
  obtain rfl : reference = none := none'
  cases key with
  | false =>
    cases required with
    | false => exact takes_noConstraint
    | true => exact takes_requiredConstraint takes_noConstraint
  | true =>
    cases required with
    | false => exact takes_keyConstraint takes_noConstraint
    | true => exact takes_keyConstraint (takes_requiredConstraint takes_noConstraint)

theorem takes_column {c : ColumnDefinition} (ordinary : c.Ordinary) : Takes entry c.tokens Ends (.column c) := by
  have type : joined " " [c.declared] ++ "" = c.declared := String.append_empty
  -- from the last part to the first, as each looks ahead at what stands behind it
  have constrained : Takes (do
      let c ← constraints ⟨c.name, joined " " [c.declared] ++ "", false, false, none⟩ 8
      pure (Entry.column c)) c.constraintTokens Ends (.column c) := by
    rw [type]
    exact (takes_constraints ordinary.reference).map
  have sized : Takes (do
      let size ← typeSize
      let c ← constraints ⟨c.name, joined " " [c.declared] ++ size, false, false, none⟩ 8
      pure (Entry.column c)) c.constraintTokens Ends (.column c) :=
    takes_typeSize.bind constrained fun _ ends => stopsType_constraints ends
  have typed : Takes (do
      let words ← typeWords 8
      let size ← typeSize
      let c ← constraints ⟨c.name, joined " " words ++ size, false, false, none⟩ 8
      pure (Entry.column c)) (.word c.declared :: c.constraintTokens) Ends (.column c) :=
    (takes_typeWords ordinary.type).bind sized fun _ ends => stopsType_constraints ends
  have named : Takes (do
      let name ← name
      let words ← typeWords 8
      let size ← typeSize
      let c ← constraints ⟨name, joined " " words ++ size, false, false, none⟩ 8
      pure (Entry.column c)) c.tokens Ends (.column c) :=
    Takes.then' (.name c.name) typed
  refine .ifNotTaken ?_ named
  rintro next - t ⟨⟩
  rfl

theorem takes_key {names : List String} (some' : names ≠ []) :
    Takes entry (.word "PRIMARY" :: .word "KEY" :: .symbol "(" ::
      (commaTokens (names.map fun name => [.quoted name]) ++ [.symbol ")"])) Ends (.key names) := by
  have list : Takes (listOf name) (commaTokens (names.map fun name => [.quoted name])) (· = some (.symbol ")")) names :=
    .listOf some' fun n _ => .name n
  exact .ifTaken rfl (Takes.then' (.word rfl) (Takes.parenthesised list).map)

end Reading

namespace TableDefinition

open Reading

variable {d : TableDefinition}

def entries (d : TableDefinition) : List Entry :=
  d.columns.map .column ++ if d.key.isEmpty then [] else [.key d.key]

theorem columns_entries (d : TableDefinition) : (d.entries.filterMap fun
    | .column c => some c
    | .key _ => none) = d.columns := by
  unfold entries
  split <;> simp [List.filterMap_append, List.filterMap_map]

theorem key_entries (d : TableDefinition) : (d.entries.flatMap fun
    | .column _ => []
    | .key names => names) = d.key := by
  unfold entries
  split
  · rename_i none'
    simp [List.flatMap_map, List.isEmpty_iff.1 none']
  · simp [List.flatMap_append, List.flatMap_map]

def entryTokens : Entry → List Token
  | .column c => c.tokens
  | .key names => .word "PRIMARY" :: .word "KEY" :: .symbol "(" ::
    (commaTokens (names.map fun name => [.quoted name]) ++ [.symbol ")"])

theorem map_entryTokens (d : TableDefinition) : d.entries.map entryTokens = d.parts.map Prod.snd := by
  unfold entries parts
  split <;> simp [entryTokens, Function.comp_def]

theorem takes_entries (ordinary : ∀ c ∈ d.columns, c.Ordinary) (wide : d.columns ≠ []) :
    Takes (parenthesised (listOf entry)) (.symbol "(" :: (commaTokens (d.parts.map Prod.snd) ++ [.symbol ")"])) follows
      d.entries := by
  rw [← map_entryTokens]
  refine .parenthesised (.listOf (by simp [entries, wide]) fun e member => ?_)
  rcases List.mem_append.1 member with column | key
  · obtain ⟨c, listed, rfl⟩ := List.mem_map.1 column
    exact takes_column (ordinary c listed)
  · split at key
    · cases key
    · rename_i some'
      rw [List.mem_singleton.1 key]
      exact takes_key (by simpa using some')

theorem createTable_entries (ordinary : ∀ c ∈ d.columns, c.Ordinary) (wide : d.columns ≠ []) {found : List Lexeme}
    (spelled : found.map Lexeme.token = d.tokens) (params : List Value) :
    ∃ mark, createTable ⟨found, params⟩ = .ok (.createTable d mark, ⟨[], params⟩) := by
  obtain ⟨create, others, rfl, first, spelled⟩ := List.map_eq_cons_iff.1 spelled
  obtain ⟨table, others, rfl, second, spelled⟩ := List.map_eq_cons_iff.1 spelled
  obtain ⟨named, list, rfl, third, spelled⟩ := List.map_eq_cons_iff.1 spelled
  have heading : Takes (words ["CREATE", "TABLE"]) [.word "CREATE", .word "TABLE"] (fun _ => True) () := .words _
  have begun := heading [create, table] (named :: list) params (by simp [first, second]) trivial
  have marked : markedName ⟨named :: list, params⟩ = .ok ((d.name, named.mark), ⟨list, params⟩) := by
    simp only [markedName, third, nameOf]
  have body : Takes (parenthesised (listOf entry)) _ (fun _ => True) d.entries := takes_entries ordinary wide
  have listed := body list [] params spelled trivial
  rw [List.append_nil] at listed
  refine ⟨named.mark, ?_⟩
  rw [createTable]
  simp only [List.cons_append, List.nil_append] at begun
  simp only [Bind.bind, StateT.bind, Except.bind, begun, marked, listed]
  exact congrArg₂ (fun columns key =>
    (Except.ok (Command.createTable ⟨d.name, columns, key⟩ named.mark, ⟨[], params⟩) : Except TextFault (Command × Pending)))
    (columns_entries d) (key_entries d)

theorem readCommand_create (writable : d.Writable) (ordinary : ∀ c ∈ d.columns, c.Ordinary) (wide : d.columns ≠ [])
    (params : List Value) : ∃ mark, readCommand (Command.create d).text params = .ok (.createTable d mark) := by
  obtain ⟨spelled, sound⟩ := (TableDefinition.scans writable).lexemes
  obtain ⟨mark, made⟩ := createTable_entries ordinary wide spelled params
  refine ⟨mark, ?_⟩
  have whole : statement ⟨(lexemes (Command.create d).text).1, params⟩ = .ok (.createTable d mark, ⟨[], params⟩) := by
    obtain ⟨create, others, found, first, -⟩ := List.map_eq_cons_iff.1 spelled
    have ahead : (next? ⟨create :: others, params⟩ : Except TextFault _) =
        .ok (some (.word "CREATE"), ⟨create :: others, params⟩) := by
      rw [← first]
      rfl
    rw [found] at made ⊢
    have select : sameIgnoringCase "CREATE" "SELECT" = false := by decide
    have insert : sameIgnoringCase "CREATE" "INSERT" = false := by decide
    have create : sameIgnoringCase "CREATE" "CREATE" = true := by decide
    simp only [statement, command, Bind.bind, StateT.bind, Except.bind, ahead, select, insert, create, made,
      Bool.false_eq_true, if_false, if_true]
    rfl
  simp only [readCommand, whole, sound]

end TableDefinition

namespace Reading

def addColumn : Reading (String × ColumnDefinition) := do
  words ["ALTER", "TABLE"]
  let table ← name
  words ["ADD", "COLUMN"]
  match ← entry with
  | .column c => do
    finished
    pure (table, c)
  | .key _ => fail

theorem takes_addColumn {table : String} {c : ColumnDefinition} (ordinary : c.Ordinary) :
    Takes addColumn (.word "ALTER" :: .word "TABLE" :: .quoted table :: .word "ADD" :: .word "COLUMN" :: c.tokens)
      (· = none) (table, c) := by
  have finishing : Takes finished [] (· = none) () := by
    intro front rest params same next
    rw [List.map_eq_nil_iff.1 same, List.head?_eq_none_iff.1 (Option.map_eq_none_iff.1 next)]
    rfl
  have ended : Takes (do finished; pure (table, c)) [] (· = none) (table, c) := finishing.map
  have column : Takes (do
      match ← entry with
      | .column c => do
        finished
        pure (table, c)
      | .key _ => fail) (c.tokens ++ []) (· = none) (table, c) :=
    (takes_column ordinary).bind ended fun _ none' => .inl none'
  rw [List.append_nil] at column
  exact .afterWords ["ALTER", "TABLE"] (Takes.then' (.name table) (.afterWords ["ADD", "COLUMN"] column))

end Reading

def readAddColumn (sql : String) : Except TextFault (String × ColumnDefinition) :=
  match lexemes sql with
  | (_, some mark) => .error (.unrecognized mark)
  | (found, none) => (Reading.addColumn ⟨found, []⟩).map Prod.fst

theorem readAddColumn_text {table : String} {c : ColumnDefinition} (plain : '\x00' ∉ table.toList)
    (writable : c.Writable) (ordinary : c.Ordinary) :
    readAddColumn (Command.addColumn table c).text = .ok (table, c) := by
  obtain ⟨spelled, sound⟩ := (ColumnDefinition.scans_added plain writable).lexemes
  have added := Reading.takes_addColumn ordinary _ [] [] spelled rfl
  rw [List.append_nil] at added
  rcases found : lexemes (Command.addColumn table c).text with ⟨tokens, fault⟩
  rw [found] at sound added
  obtain rfl : fault = none := sound
  simp only [readAddColumn, found]
  rw [added]
  rfl

end RecordMapper.Sql

namespace RecordMapper

theorem Column.definition_ordinary (c : Column) (inline : Bool) : (c.definition inline).Ordinary where
  type := by
    show Sql.Reading.startsConstraint (.word c.dataType.declared) = false
    cases c.dataType <;> decide
  reference := rfl

namespace Table

def orderedKey (t : Table) : List String :=
  t.keyPositions.filterMap (t.columnNames[·]?)

/-- What a statement says of a table: its name, its columns in order with type and nullability, and its key. -/
def contents (t : Table) : String × List (String × String × Bool) × List String :=
  (t.name, t.columns.map fun c => (c.name, c.dataType.declared, c.nullable), t.orderedKey)

/-- A definition says of a table what there is to say, and of the key once: a single column where it stands, several
    in a list. -/
structure DenotedBy (t : Table) (d : Sql.TableDefinition) : Prop where
  name : d.name = t.name
  columns : d.columns.map (fun c => (c.name, c.declared, !c.required)) =
    t.columns.map fun c => (c.name, c.dataType.declared, c.nullable)
  inline : (d.columns.filter Sql.ColumnDefinition.key).map Sql.ColumnDefinition.name =
    if t.keyPositions.length = 1 then t.orderedKey else []
  listed : d.key = if t.keyPositions.length = 1 then [] else t.orderedKey
  unlinked : ∀ c ∈ d.columns, c.reference = none

theorem denotedBy_definition (t : Table) : t.DenotedBy t.definition where
  name := rfl
  columns := by
    simp only [definition, Column.definition, List.map_map]
    exact List.map_congr_left fun c _ => by simp
  inline := by
    rw [orderedKey, ← keyNames_eq, length_keyPositions]
    by_cases one : t.keyColumns.length = 1
    · have keyed : Sql.ColumnDefinition.key ∘ (Column.definition · true) = Column.key := by
        funext c
        exact Bool.true_and c.key
      rw [if_pos one, definition, beq_iff_eq.2 one, List.filter_map, keyed, List.map_map]
      rfl
    · have plain : Sql.ColumnDefinition.key ∘ (Column.definition · false) = fun _ => false := rfl
      rw [if_neg one, definition, beq_eq_false_iff_ne.2 one, List.filter_map, plain, List.filter_false]
      rfl
  listed := by
    rw [orderedKey, ← keyNames_eq, length_keyPositions]
    show (if 1 < t.keyColumns.length then t.keyNames else []) = _
    rcases Nat.lt_trichotomy t.keyColumns.length 1 with none' | one | several
    · have empty : t.keyNames = [] := by rw [keyNames, List.length_eq_zero_iff.1 (Nat.lt_one_iff.1 none'), List.map_nil]
      rw [empty, ite_self, ite_self]
    · rw [if_pos one, if_neg (by omega)]
    · rw [if_pos several, if_neg (by omega)]
  unlinked := by
    intro c member
    obtain ⟨column, -, rfl⟩ := List.mem_map.1 member
    rfl

theorem DenotedBy.key {t : Table} {d : Sql.TableDefinition} (denoted : t.DenotedBy d) :
    (d.columns.filter Sql.ColumnDefinition.key).map Sql.ColumnDefinition.name ++ d.key = t.orderedKey := by
  rw [denoted.inline, denoted.listed]
  split
  · exact List.append_nil _
  · exact List.nil_append _

theorem DenotedBy.contents_eq {t t' : Table} {d : Sql.TableDefinition} (denoted : t.DenotedBy d)
    (denoted' : t'.DenotedBy d) : t.contents = t'.contents := by
  rw [contents, contents, ← denoted.name, ← denoted'.name, ← denoted.columns, ← denoted'.columns, ← denoted.key,
    ← denoted'.key]

theorem readCommand_create {t : Table} (plain : t.Plain) (wide : t.columns ≠ []) (params : List Value) :
    ∃ mark, Sql.readCommand t.create.text params = .ok (.createTable t.definition mark) := by
  refine Sql.TableDefinition.readCommand_create plain.definition ?_ (by simpa [definition] using wide) params
  intro c member
  obtain ⟨column, -, rfl⟩ := List.mem_map.1 member
  exact column.definition_ordinary _

theorem readAddColumn_text {t : Table} {c : Column} (table : '\x00' ∉ t.name.toList) (column : '\x00' ∉ c.name.toList) :
    Sql.readAddColumn (t.addColumn c).text = .ok (t.name, c.definition false) :=
  Sql.readAddColumn_text table ⟨column, isWord_declared c.dataType⟩ (c.definition_ordinary false)

theorem contents_eq_of_text {t t' : Table} (plain : t.Plain) (wide : t.columns ≠ []) (plain' : t'.Plain)
    (wide' : t'.columns ≠ []) (same : t.create.text = t'.create.text) : t.contents = t'.contents := by
  obtain ⟨mark, read⟩ := readCommand_create plain wide []
  obtain ⟨mark', read'⟩ := readCommand_create plain' wide' []
  rw [same, read'] at read
  have one : t'.definition = t.definition := by
    injection Except.ok.inj read
  exact t.denotedBy_definition.contents_eq (one ▸ t'.denotedBy_definition)

/-- The statement that makes a table is read as what the table is, and the statement that adds a column as that
    column, whatever punctuation stands in the names. So tables that differ have different statements. -/
theorem statements_denote :
    (∀ t : Table, t.Plain → t.columns ≠ [] → t.DenotedBy t.definition ∧
      ∀ params, ∃ mark, Sql.readCommand t.create.text params = .ok (.createTable t.definition mark)) ∧
    (∀ (t : Table) (c : Column), '\x00' ∉ t.name.toList → '\x00' ∉ c.name.toList →
      Sql.readAddColumn (t.addColumn c).text =
        .ok (t.name, ⟨c.name, c.dataType.declared, false, !c.nullable, none⟩)) ∧
    ∀ t t' : Table, t.Plain → t.columns ≠ [] → t'.Plain → t'.columns ≠ [] → t.contents ≠ t'.contents →
      t.create.text ≠ t'.create.text := by
  refine ⟨fun t plain wide => ?_, fun t c table column => ?_, fun t t' plain wide plain' wide' differ same => ?_⟩
  · exact ⟨t.denotedBy_definition, readCommand_create plain wide⟩
  · exact readAddColumn_text table column
  · exact differ (contents_eq_of_text plain wide plain' wide' same)

end Table

section Ledger

def ledgerTable : Table :=
  ⟨"led\"gers, (old)", [⟨"co,de", .text, false, true⟩, ⟨"year", .integer, false, true⟩, ⟨"PRIMARY KEY", .text, true, false⟩],
    by decide⟩

def codeTable : Table :=
  ⟨"led\"gers, (old)", [⟨"co,de", .text, false, true⟩, ⟨"year", .integer, false, false⟩, ⟨"PRIMARY KEY", .text, true, false⟩],
    by decide⟩

theorem Table.statements_denote_ledger :
    ledgerTable.Plain ∧ codeTable.Plain ∧
    (∃ mark, Sql.readCommand ledgerTable.create.text [] = .ok (.createTable ⟨"led\"gers, (old)",
      [⟨"co,de", "TEXT", false, true, none⟩, ⟨"year", "INTEGER", false, true, none⟩,
        ⟨"PRIMARY KEY", "TEXT", false, false, none⟩], ["co,de", "year"]⟩ mark)) ∧
    (∃ mark, Sql.readCommand codeTable.create.text [] = .ok (.createTable ⟨"led\"gers, (old)",
      [⟨"co,de", "TEXT", true, true, none⟩, ⟨"year", "INTEGER", false, true, none⟩,
        ⟨"PRIMARY KEY", "TEXT", false, false, none⟩], []⟩ mark)) ∧
    Sql.readAddColumn (ledgerTable.addColumn ⟨"note", .blob, true, false⟩).text =
      .ok ("led\"gers, (old)", ⟨"note", "BLOB", false, false, none⟩) ∧
    ledgerTable.create.text ≠ codeTable.create.text := by
  have ledger : ledgerTable.Plain := ⟨by decide, by decide⟩
  have code : codeTable.Plain := ⟨by decide, by decide⟩
  obtain ⟨creates, adds, distinct⟩ := Table.statements_denote
  refine ⟨ledger, code, (creates ledgerTable ledger (by decide)).2 [], (creates codeTable code (by decide)).2 [], ?_, ?_⟩
  · exact adds ledgerTable ⟨"note", .blob, true, false⟩ ledger.name (by decide)
  · exact distinct ledgerTable codeTable ledger (by decide) code (by decide) (by decide)

end Ledger

end RecordMapper
