import RecordMapper.Proofs.Query.Layout
import RecordMapper.Proofs.Query.Selecting

namespace RecordMapper

open RecordMapper.Text

section Literals

def Operand.literals : Operand → List Value
  | .column _ | .list _ | .value .null => []
  | .value v => [v]

def Predicate.literals : Predicate → List Value
  | .compare left _ right => left.literals ++ right.literals
  | .member _ values _ => values
  | .pattern _ p => [.text (p.kind.glob (if p.ignoreCase then foldCase p.text else p.text))]
  | .and left right | .or left right => left.literals ++ right.literals
  | .not inner => inner.literals

def filterLiterals (filter : Option Predicate) : List Value :=
  filter.elim [] Predicate.literals

namespace Predicate

variable {s : Scope} {written : Sql.Condition}

theorem params_compareWithValue {c : ColumnRef} {op : Comparison} {v : Value}
    (compiled : compareWithValue s c op v = .ok written) : written.params = Operand.literals (.value v) := by
  simp only [compareWithValue, bind_eq_ok] at compiled
  obtain ⟨column, -, rest⟩ := compiled
  split at rest
  · obtain rfl := pure_eq_ok.1 rest
    rfl
  · obtain rfl := pure_eq_ok.1 rest
    rfl
  · exact absurd rest throw_ne_ok
  · rename_i some' _ _
    obtain rfl := pure_eq_ok.1 rest
    cases v with
    | null => exact absurd rfl some'
    | integer n | real x | text t | blob bytes => rfl

theorem params_compareOperands {left right : Operand} {op : Comparison}
    (compiled : compareOperands s left op right = .ok written) : written.params = left.literals ++ right.literals := by
  unfold compareOperands at compiled
  split at compiled
  · cases compiled
  · cases compiled
  · simp only [bind_eq_ok, pure_eq_ok] at compiled
    obtain ⟨a, -, b, -, rfl⟩ := compiled
    rfl
  · exact params_compareWithValue compiled
  · rw [params_compareWithValue compiled]
    exact (List.append_nil _).symm
  · cases compiled
  · cases compiled

theorem params_condition {p : Predicate} (compiled : p.condition s = .ok written) : written.params = p.literals := by
  induction p generalizing written with
  | compare left op right => exact params_compareOperands compiled
  | member c values negated =>
    simp only [condition, memberTest, bind_eq_ok] at compiled
    obtain ⟨column, -, rest⟩ := compiled
    cases values with
    | nil =>
      obtain rfl := pure_eq_ok.1 rest
      cases negated <;> rfl
    | cons v values =>
      obtain rfl := pure_eq_ok.1 rest
      have values := Sql.paramsOf_placeholders (v :: values)
      cases negated <;> simpa [Sql.Condition.params, Sql.Condition.pieces, literals] using values
  | pattern c p =>
    simp only [condition, patternTest, bind_eq_ok] at compiled
    obtain ⟨column, -, rest⟩ := compiled
    obtain rfl := pure_eq_ok.1 rest
    cases p.negated <;> rfl
  | and left right ihLeft ihRight | or left right ihLeft ihRight =>
    simp only [condition, bind_eq_ok, pure_eq_ok] at compiled
    obtain ⟨a, first, b, second, rfl⟩ := compiled
    have one := ihLeft first
    have two := ihRight second
    simp only [Sql.Condition.params] at one two
    simp [Sql.Condition.params, Sql.Condition.pieces, literals, one, two]
  | not inner ih =>
    simp only [condition, bind_eq_ok, pure_eq_ok] at compiled
    obtain ⟨a, first, rfl⟩ := compiled
    have one := ih first
    simp only [Sql.Condition.params] at one
    simp [Sql.Condition.params, Sql.Condition.pieces, literals, one]

theorem conditionOf_params {filter : Option Predicate} {condition : Option Sql.Condition}
    (compiled : conditionOf s filter = .ok condition) : Sql.filterParams condition = filterLiterals filter := by
  cases filter with
  | none =>
    cases compiled
    rfl
  | some p =>
    simp only [conditionOf, bind_eq_ok, pure_eq_ok] at compiled
    obtain ⟨written, made, rfl⟩ := compiled
    exact params_condition made

end Predicate

end Literals

section Plans

def Join.linked (j : Join) : List String :=
  match j.kind with
  | .direct parentKey childKey => [parentKey, childKey]
  | .pivot _ parentKey pivotParentKey childKey pivotChildKey => [parentKey, pivotParentKey, childKey, pivotChildKey]

structure Join.Plain (j : Join) : Prop where
  tables : ∀ t ∈ j.tables, t.Plain
  linked : ∀ name ∈ j.linked, '\x00' ∉ name.toList

structure Plan.Plain (p : Plan) : Prop where
  root : p.root.Plain
  joins : ∀ j ∈ p.joins, j.Plain

variable {p : Plan}

theorem mem_positioned {α : Type} {f : Nat → Join → List α} {start : Nat} {joins : List Join} {a : α}
    (member : a ∈ positioned f start joins) : ∃ position, ∃ j ∈ joins, a ∈ f position j := by
  induction joins generalizing start with
  | nil => cases member
  | cons j joins ih =>
    rcases List.mem_append.1 member with here | later
    · exact ⟨start, j, List.mem_cons_self, here⟩
    · obtain ⟨position, k, known, inside⟩ := ih later
      exact ⟨position, k, List.mem_cons_of_mem _ known, inside⟩

theorem mem_entries {j : Join} {position : Nat} {e : ScopedTable} (member : e ∈ j.entries position) : e.table ∈ j.tables := by
  unfold Join.entries at member
  unfold Join.tables
  split at member
  · rename_i direct
    simp_all
  · rename_i pivot through
    rcases List.mem_pair.1 member with rfl | rfl <;> simp [through]

theorem Plan.Plain.scope (plain : p.Plain) : p.scope.Writable where
  distinct := nodup_labels p
  plain := plain_labels p
  names e member := by
    rcases List.mem_cons.1 member with rfl | joined
    · exact plain.root.columns
    · obtain ⟨position, j, known, inside⟩ := mem_positioned joined
      exact ((plain.joins j known).tables _ (mem_entries inside)).columns

theorem plain_childLabel (position : Nat) : Sql.IsPlainLabel (Join.childLabel position) :=
  plain_numbered (.inl rfl) (position + 1)

theorem plain_pivotLabel (position : Nat) : Sql.IsPlainLabel (Join.pivotLabel position) :=
  plain_numbered (.inr rfl) (position + 1)

theorem Join.Plain.links {j : Join} (plain : j.Plain) (position : Nat) : ∀ l ∈ j.links position, l.Writable := by
  obtain ⟨tables, linked⟩ := plain
  have root := plain_rootLabel
  have child := plain_childLabel position
  have pivot := plain_pivotLabel position
  intro l member
  rcases j with ⟨relation, t, _ | _⟩
  · simp only [Join.tables, Join.pivot?, Option.toList_none, List.nil_append, List.forall_mem_singleton] at tables
    simp only [Join.linked, List.forall_mem_cons] at linked
    rw [List.mem_singleton.1 member]
    exact ⟨⟨child.word, tables.name⟩, ⟨root, linked.1⟩, ⟨child, linked.2.1⟩⟩
  · simp only [Join.tables, Join.pivot?, Option.toList_some, List.cons_append, List.nil_append, List.forall_mem_cons] at tables
    simp only [Join.linked, List.forall_mem_cons] at linked
    rcases List.mem_pair.1 member with rfl | rfl
    · exact ⟨⟨pivot.word, tables.1.name⟩, ⟨root, linked.1⟩, ⟨pivot, linked.2.1⟩⟩
    · exact ⟨⟨child.word, tables.2.1.name⟩, ⟨pivot, linked.2.2.2.1⟩, ⟨child, linked.2.2.1⟩⟩

theorem Plan.Plain.rows {rows : Sql.Rows} (plain : p.Plain) (made : p.rows = .ok rows) :
    rows.Writable ∧ Sql.filterParams rows.filter = filterLiterals p.filter := by
  simp only [Plan.rows, bind_eq_ok, pure_eq_ok] at made
  obtain ⟨filter, compiled, rfl⟩ := made
  refine ⟨⟨⟨plain_rootLabel.word, plain.root.name⟩, ?_, ?_⟩, Predicate.conditionOf_params compiled⟩
  · intro l member
    obtain ⟨position, j, known, inside⟩ := mem_positioned member
    exact (plain.joins j known).links position l inside
  · exact Predicate.conditionOf_writable plain.scope compiled

theorem Plan.Plain.columns (plain : p.Plain) : ∀ c ∈ p.scope.columns, c.Writable := by
  intro c listed
  obtain ⟨e, member, written⟩ := List.mem_flatMap.1 listed
  obtain ⟨name, known, rfl⟩ := List.mem_map.1 written
  exact ⟨plain_labels p e member, plain.scope.names e member name known⟩

theorem Plan.Plain.order {order : List Sql.OrderTerm} (plain : p.Plain) (made : p.orderTerms = .ok order) :
    ∀ t ∈ order, t.column.Writable := by
  have resolved := mapM_eq_ok.1 made
  intro t listed
  obtain ⟨i, here⟩ := List.getElem?_of_mem listed
  obtain ⟨term, -, found⟩ := forall₂_getElem? resolved.flip here
  simp only [bind_eq_ok, pure_eq_ok] at found
  obtain ⟨column, found, rfl⟩ := found
  exact Scope.resolve_writable plain.scope found

theorem Plan.Plain.identity (plain : p.Plain) : ∀ c ∈ p.identityColumns, c.Writable := by
  intro c listed
  obtain ⟨name, known, rfl⟩ := List.mem_map.1 listed
  refine ⟨plain_rootLabel, plain.root.columns name ?_⟩
  split at known
  · exact known
  · obtain ⟨column, kept, rfl⟩ := List.mem_map.1 known
    exact List.mem_map_of_mem (List.mem_of_mem_filter kept)

end Plans

section Statements

theorem isWord_declared (type : DataType) : Sql.isWord type.declared = true := by
  cases type <;> decide

theorem Table.Plain.definition {t : Table} (plain : t.Plain) : t.definition.Writable where
  name := plain.name
  columns c member := by
    obtain ⟨column, known, rfl⟩ := List.mem_map.1 member
    exact ⟨plain.columns _ (List.mem_map_of_mem known), isWord_declared column.dataType⟩
  key name member := by
    unfold Table.definition at member
    simp only at member
    split at member
    · obtain ⟨column, kept, rfl⟩ := List.mem_map.1 member
      exact plain.columns _ (List.mem_map_of_mem (List.mem_of_mem_filter kept))
    · cases member

theorem Table.Plain.assignments {t : Table} (plain : t.Plain) (positions : t.Positions) (row : t.Row) :
    ∀ a ∈ t.assignments positions row, '\x00' ∉ a.1.toList :=
  List.forall_mem_map.2 fun i _ => plain.columns _ (List.mem_map_of_mem (List.get_mem t.columns i))

theorem zero_not_mem_joined {separator : String} {parts : List String} (plain : '\x00' ∉ separator.toList)
    (each : ∀ part ∈ parts, '\x00' ∉ part.toList) : '\x00' ∉ (joined separator parts).toList := by
  fun_induction joined separator parts with
  | case1 => simp
  | case2 part => simpa using each
  | case3 part next rest ih =>
    rw [List.forall_mem_cons] at each
    simpa using ⟨each.1, plain, ih each.2⟩

theorem Index.definition_writable {i : Index} (table : '\x00' ∉ i.table.toList)
    (columns : ∀ name ∈ i.columns, '\x00' ∉ name.toList) : i.definition.Writable where
  name := by
    have parts := zero_not_mem_joined (show '\x00' ∉ "_".toList by decide) columns
    simp [Index.definition, Index.name, table, parts]
  table := table
  columns := columns

/-- What the library makes statements of: the command, the values that it writes, the literals of its filter, and its
    window. -/
inductive Generated : Sql.Command → List Value → List Value → Option Sql.Window → Prop where
  | select {p : Plan} {command : Sql.Command} (plain : p.Plain) (made : p.select = .ok command) :
    Generated command [] (filterLiterals p.filter) (if p.joins.isEmpty then p.paging.map Paging.window else none)
  | count {p : Plan} {command : Sql.Command} (plain : p.Plain) (made : p.count = .ok command) :
    Generated command [] (filterLiterals p.filter) (p.paging.map Paging.window)
  | insert {t : Table} {positions : t.Positions} {row : List Value} {command : Sql.Command} (plain : t.Plain)
    (made : t.insert positions row = .ok command) :
    Generated command (Table.picked positions row) [] none
  | update {t : Table} {positions : t.Positions} {row : List Value} {filter : Option Predicate} {command : Sql.Command}
    (plain : t.Plain) (made : t.update positions row filter = .ok command) :
    Generated command (Table.picked positions row) (filterLiterals filter) none
  | delete {t : Table} {filter : Option Predicate} {command : Sql.Command} (plain : t.Plain)
    (made : t.delete filter = .ok command) : Generated command [] (filterLiterals filter) none
  | create {t : Table} (plain : t.Plain) : Generated t.create [] [] none
  | drop {name : String} (plain : '\x00' ∉ name.toList) : Generated (.dropTable name) [] [] none
  | addColumn {t : Table} {c : Column} (plain : t.Plain) (column : '\x00' ∉ c.name.toList) :
    Generated (t.addColumn c) [] [] none
  | index {i : Index} (table : '\x00' ∉ i.table.toList) (columns : ∀ name ∈ i.columns, '\x00' ∉ name.toList) :
    Generated (.createIndex i.definition) [] [] none
  | tableExists (name : String) : Generated (.tableExists name) [.text name] [] none
  | tableInfo (name : String) : Generated (.tableInfo name) [.text name] [] none

namespace Generated

variable {command : Sql.Command} {written literals : List Value} {window : Option Sql.Window}

theorem writable (generated : Generated command written literals window) :
    ∃ filter, Sql.filterParams filter = literals ∧ command.Writable written filter window := by
  cases generated with
  | @select p command plain made =>
    simp only [Plan.select, bind_eq_ok, pure_eq_ok] at made
    obtain ⟨rows, compiled, order, ordered, rfl⟩ := made
    obtain ⟨writable, same⟩ := plain.rows compiled
    exact ⟨rows.filter, same, .select plain.columns writable (plain.order ordered)⟩
  | @count p command plain made =>
    simp only [Plan.count, bind_eq_ok] at made
    obtain ⟨rows, compiled, made⟩ := made
    obtain ⟨writable, same⟩ := plain.rows compiled
    refine ⟨rows.filter, same, ?_⟩
    split at made
    · split at made
      · rename_i unpaged
        obtain rfl := pure_eq_ok.1 made
        rw [unpaged]
        exact .count writable
      · rename_i paging paged
        obtain rfl := pure_eq_ok.1 made
        rw [paged]
        exact .countWindow writable
    · obtain rfl := pure_eq_ok.1 made
      exact .countDistinct plain.identity writable
  | @insert t positions row command plain made =>
    simp only [Table.insert, bind_eq_ok, pure_eq_ok] at made
    obtain ⟨whole, fits, rfl⟩ := made
    obtain rfl := requireWidth_eq_ok fits
    rw [← Table.assignments_values]
    exact ⟨none, rfl, .insert plain.name (List.forall_mem_map.2 (plain.assignments positions whole))⟩
  | @update t positions row filter command plain made =>
    simp only [Table.update, Table.updateIn, Table.filterIn, bind_eq_ok, mapError_eq_ok, pure_eq_ok] at made
    obtain ⟨whole, fits, condition, compiled, rfl⟩ := made
    obtain rfl := requireWidth_eq_ok fits
    rw [← Table.assignments_values]
    exact ⟨condition, Predicate.conditionOf_params compiled,
      .update plain.name (plain.assignments positions whole) (Predicate.conditionOf_writable plain.writable compiled)⟩
  | @delete t filter command plain made =>
    simp only [Table.delete, Table.deleteIn, Table.filterIn, bind_eq_ok, mapError_eq_ok, pure_eq_ok] at made
    obtain ⟨condition, compiled, rfl⟩ := made
    exact ⟨condition, Predicate.conditionOf_params compiled,
      .delete plain.name (Predicate.conditionOf_writable plain.writable compiled)⟩
  | create plain => exact ⟨none, rfl, .create plain.definition⟩
  | drop plain => exact ⟨none, rfl, .drop plain⟩
  | @addColumn t c plain column => exact ⟨none, rfl, .addColumn plain.name ⟨column, isWord_declared c.dataType⟩⟩
  | index table columns => exact ⟨none, rfl, .createIndex (Index.definition_writable table columns)⟩
  | tableExists name => exact ⟨none, rfl, .tableExists name⟩
  | tableInfo name => exact ⟨none, rfl, .tableInfo name⟩

theorem places (generated : Generated command written literals window) :
    ∃ filter, Sql.filterParams filter = literals ∧ command.Places written filter window := by
  obtain ⟨filter, same, writable⟩ := generated.writable
  exact ⟨filter, same, writable.places⟩

end Generated

theorem Engine.prepare_ne_binding {s : Sql.Statement} (counted : s.placeholders = s.params.length) (engine : Engine)
    (places given : Nat) : ((Engine.prepare s).run engine).1 ≠ .error (.binding places given) := by
  unfold Engine.prepare
  rw [run_bind, Engine.run_acting]
  rcases s.asked with fault | command
  · simp [Except.mapError]
  · simp only [Except.mapError, run_bind, Engine.run_acting]
    rcases engine.store.prepare s.sql command with ⟨_ | _, store⟩
    · simp
    · simp [Engine.checkParams, counted, run_pure]

/-- A statement that the engine binds. Its parameters are the values written, the literals of its filter and those of
    its window; its text has a place for each, clause by clause. -/
structure Sql.Statement.Bound (s : Sql.Statement) (written literals : List Value) (window : Option Sql.Window) : Prop where
  params : s.params = written ++ literals ++ Sql.windowParams window
  counted : s.placeholders = s.params.length
  clauses : ∃ first filter middle closing,
    (Sql.lexemes s.sql).1.map Sql.Lexeme.token =
      first ++ Sql.filterTokens filter ++ middle ++ Sql.windowTokens window ++ closing ∧
    (Sql.lexemes s.sql).2 = none ∧
    first.count .placeholder = written.length ∧
    Sql.filterParams filter = literals ∧ (Sql.filterTokens filter).count .placeholder = literals.length ∧
    middle.count .placeholder = 0 ∧
    (Sql.windowTokens window).count .placeholder = (Sql.windowParams window).length ∧
    closing.count .placeholder = 0
  prepared : ∀ engine places given, ((Engine.prepare s).run engine).1 ≠ .error (.binding places given)

/-- No statement that the library writes fails for the number of its parameters. -/
theorem Generated.bound {command : Sql.Command} {written literals : List Value} {window : Option Sql.Window}
    (generated : Generated command written literals window) : command.statement.Bound written literals window := by
  obtain ⟨filter, rfl, places⟩ := generated.places
  have counted := places.statement.2
  obtain ⟨first, middle, closing, scans, before, between, behind, params⟩ := places
  exact ⟨params, counted, ⟨first, filter, middle, closing, scans.lexemes.1, scans.lexemes.2, before, rfl,
    Sql.count_filterTokens filter, between, Sql.count_windowTokens window, behind⟩, Engine.prepare_ne_binding counted⟩

section Riddles

def riddleTable : Table :=
  ⟨"what? WHERE", [⟨"a\"?", .integer, false, true⟩, ⟨"LIMIT ? OFFSET ?", .text, true, false⟩], by decide⟩

def riddlePlan : Plan where
  root := riddleTable
  joins := []
  filter := some (.or
    (.and (.compare (.value (.integer 5)) .lt (.column ⟨none, "a\"?"⟩))
      (.compare (.column ⟨none, "LIMIT ? OFFSET ?"⟩) .eq (.value .null)))
    (.not (.member ⟨none, "LIMIT ? OFFSET ?"⟩ [.text "x?", .text "y"] false)))
  order := [⟨⟨none, "a\"?"⟩, true⟩]
  paging := some ⟨some 2, 1⟩

def riddleCommand : Sql.Command :=
  .select [⟨"t0", "a\"?"⟩, ⟨"t0", "LIMIT ? OFFSET ?"⟩]
    ⟨⟨"what? WHERE", "t0"⟩, [], some (.or
      (.and (.value ⟨"t0", "a\"?"⟩ .gt (.integer 5)) (.null ⟨"t0", "LIMIT ? OFFSET ?"⟩ false))
      (.not (.member ⟨"t0", "LIMIT ? OFFSET ?"⟩ [.text "x?", .text "y"] false)))⟩
    [⟨⟨"t0", "a\"?"⟩, true⟩] (some ⟨2, 1⟩)

theorem bound_riddle : riddlePlan.Plain ∧ riddlePlan.select = .ok riddleCommand ∧
    riddleCommand.statement.params.length = 5 ∧
    riddleCommand.statement.Bound [] [.integer 5, .text "x?", .text "y"] (some ⟨2, 1⟩) := by
  have plain : riddlePlan.Plain := ⟨⟨by decide, by decide⟩, fun j none => absurd none List.not_mem_nil⟩
  have made : riddlePlan.select = .ok riddleCommand := rfl
  exact ⟨plain, made, rfl, (Generated.select plain made).bound⟩

end Riddles

end Statements

end RecordMapper
