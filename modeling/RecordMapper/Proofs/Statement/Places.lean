import RecordMapper.Proofs.Statement.Tokens

namespace RecordMapper.Sql

open RecordMapper.Text

def filterParams (filter : Option Condition) : List Value :=
  paramsOf (filterPieces filter)

def windowParams (window : Option Window) : List Value :=
  paramsOf (windowPieces window)

/-- The text of a command has a place for each value written, then for each parameter of its filter, and then for
    those of its window; they are the command's parameters in that order. -/
def Command.Places (c : Command) (written : List Value) (filter : Option Condition) (window : Option Window) : Prop :=
  ∃ first middle closing,
    Scans c.text.toList (first ++ filterTokens filter ++ middle ++ windowTokens window ++ closing) ∧
    first.count .placeholder = written.length ∧ middle.count .placeholder = 0 ∧ closing.count .placeholder = 0 ∧
    c.params = written ++ filterParams filter ++ windowParams window

section Counting

theorem count_filterTokens (filter : Option Condition) :
    (filterTokens filter).count .placeholder = (filterParams filter).length := by
  cases filter with
  | none => rfl
  | some condition =>
    have own := condition.count_tokens
    simpa [filterTokens, filterParams, filterPieces, Condition.params] using own

theorem count_windowTokens (window : Option Window) :
    (windowTokens window).count .placeholder = (windowParams window).length := by
  cases window <;> rfl

theorem count_commaTokens {parts : List (List Token)} (one : ∀ part ∈ parts, part.count .placeholder = 1) :
    (commaTokens parts).count .placeholder = parts.length := by
  fun_induction commaTokens parts with
  | case1 => rfl
  | case2 last => simpa using one
  | case3 first next rest ih =>
    rw [List.forall_mem_cons] at one
    have others := ih one.2
    simp only [List.length_cons] at others
    simp [one.1, others]
    omega

theorem placeholder_not_mem_commaTokens {parts : List (List Token)} (none : ∀ part ∈ parts, Token.placeholder ∉ part) :
    Token.placeholder ∉ commaTokens parts := by
  fun_induction commaTokens parts with
  | case1 => simp
  | case2 last => simpa using none
  | case3 first next rest ih =>
    rw [List.forall_mem_cons] at none
    simpa using ⟨none.1, ih none.2⟩

theorem placeholder_not_mem_column (c : ColumnName) : Token.placeholder ∉ c.tokens := by
  simp [ColumnName.tokens]

theorem placeholder_not_mem_from (r : Rows) : Token.placeholder ∉ r.fromTokens := by
  simp [Rows.fromTokens, Source.tokens, Link.tokens, placeholder_not_mem_column]

theorem placeholder_not_mem_order (order : List OrderTerm) : Token.placeholder ∉ orderTokens order := by
  have terms : Token.placeholder ∉ commaTokens (order.map OrderTerm.tokens) :=
    placeholder_not_mem_commaTokens (by simp [OrderTerm.tokens, placeholder_not_mem_column])
  unfold orderTokens
  split
  · simp
  · simpa using terms

end Counting

section Params

theorem paramsOf_separated (parts : List (List Piece)) :
    paramsOf (Piece.separated ", " parts) = parts.flatMap paramsOf := by
  induction parts with
  | nil => rfl
  | cons first parts ih =>
    cases parts with
    | nil => simp [Piece.separated]
    | cons next rest => simp [Piece.separated, ih]

theorem paramsOf_items (columns : List ColumnName) : paramsOf (selectListPieces columns) = [] := by
  simp [selectListPieces, paramsOf_separated, itemPieces]

theorem paramsOf_from (r : Rows) : paramsOf r.fromPieces = [] := by
  have links (links : List Link) : paramsOf (links.flatMap Link.pieces) = [] := by
    induction links with
    | nil => rfl
    | cons l links ih => simp [Link.pieces, ih]
  simp [Rows.fromPieces, links]

theorem paramsOf_order (order : List OrderTerm) : paramsOf (orderPieces order) = [] := by
  unfold orderPieces
  split <;> simp [paramsOf_separated, OrderTerm.pieces]

theorem paramsOf_filter (filter : Option Condition) : paramsOf (filterPieces filter) = filterParams filter := rfl

theorem paramsOf_window (window : Option Window) : paramsOf (windowPieces window) = windowParams window := rfl

theorem paramsOf_rows (r : Rows) : paramsOf r.pieces = filterParams r.filter := by
  simp [Rows.pieces, paramsOf_from, paramsOf_filter]

theorem Command.params_select (columns : List ColumnName) (rows : Rows) (order : List OrderTerm) (window : Option Window) :
    (Command.select columns rows order window).params = filterParams rows.filter ++ windowParams window := by
  simp [Command.params, Command.pieces, paramsOf_items, paramsOf_rows, paramsOf_order, paramsOf_window]

theorem Command.params_count (rows : Rows) : (Command.count rows).params = filterParams rows.filter := by
  simp [Command.params, Command.pieces, paramsOf_rows]

theorem Command.params_countWindow (rows : Rows) (window : Window) :
    (Command.countWindow rows window).params = filterParams rows.filter ++ windowParams (some window) := by
  simp [Command.params, Command.pieces, paramsOf_rows, paramsOf_window]

theorem Command.params_countDistinct (columns : List ColumnName) (rows : Rows) (window : Option Window) :
    (Command.countDistinct columns rows window).params = filterParams rows.filter ++ windowParams window := by
  simp [Command.params, Command.pieces, paramsOf_rows, paramsOf_window, columnListPieces, paramsOf_separated]

theorem Command.params_insert (table : String) (columns : Option (List String)) (values : List Value) :
    (Command.insert table columns [values]).params = values := by
  simp [Command.params, Command.pieces, insertPieces, Piece.separated, boundRow, paramsOf_placeholders]

theorem Command.params_update (table : String) (assignments : List (String × Value)) (filter : Option Condition) :
    (Command.update table assignments filter).params = assignments.map Prod.snd ++ filterParams filter := by
  have values : paramsOf (Piece.separated ", " (assignments.map fun a => [.raw (quoted a.1 ++ " = "), .bound a.2])) =
      assignments.map Prod.snd := by
    rw [paramsOf_separated, List.flatMap_map]
    exact List.map_eq_flatMap.symm
  simp [Command.params, Command.pieces, values, paramsOf_filter]

theorem Command.params_delete (table : String) (filter : Option Condition) :
    (Command.delete table filter).params = filterParams filter := by
  simp [Command.params, Command.pieces, paramsOf_filter]

end Params

theorem Command.Places.statement {c : Command} {written : List Value} {filter : Option Condition} {window : Option Window}
    (places : c.Places written filter window) :
    c.statement.asked = .ok c ∧ c.statement.placeholders = c.statement.params.length := by
  obtain ⟨first, middle, closing, scans, before, between, behind, params⟩ := places
  have lexes := scans.lexes closes_nil .done
  rw [List.append_nil, List.append_nil] at lexes
  constructor
  · rw [Command.statement, cutToken?, if_neg scans.whole]
  · show placeholderCount c.text = c.params.length
    rw [placeholderCount_of_lexes lexes scans.whole, params]
    simp only [List.count_append, List.length_append, before, between, behind, Nat.add_zero, count_filterTokens,
      count_windowTokens]

section Reading

variable {columns : List ColumnName} {rows : Rows} {order : List OrderTerm} {window : Option Window}

theorem scans_item {c : ColumnName} (writable : c.Writable) : Scans (textOf (itemPieces c)).toList c.itemTokens := by
  have plain : '\x00' ∉ (c.label ++ "." ++ c.name).toList := by
    simp [zero_not_mem_word writable.label.word, writable.name]
  have whole := (Scans.column writable).append ((Scans.word "AS" (by decide)).append (Scans.quoted plain).spaced).spaced
  simpa [itemPieces, Piece.text, ColumnName.itemTokens] using whole

theorem scans_items (writable : ∀ c ∈ columns, c.Writable) :
    Scans (textOf (selectListPieces columns)).toList (commaTokens (columns.map ColumnName.itemTokens)) :=
  .separated fun c member => scans_item (writable c member)

theorem scans_columns (writable : ∀ c ∈ columns, c.Writable) :
    Scans (textOf (columnListPieces columns)).toList (commaTokens (columns.map ColumnName.tokens)) := by
  refine .separated fun c member => ?_
  simpa [Piece.text] using Scans.column (writable c member)

theorem scans_rows (writable : rows.Writable) :
    Scans (textOf rows.pieces).toList (rows.fromTokens ++ filterTokens rows.filter) := by
  have whole := (Rows.scans_from writable).append (trails_filter writable.filter)
  simpa [Rows.pieces] using whole

def countFromTokens : List Token :=
  [.word "SELECT", .word "COUNT", .symbol "(", .symbol "*", .symbol ")", .word "FROM"]

theorem scans_countFrom {a : List Char} {s : List Token} (source : Scans a s) :
    Scans ("SELECT".toList ++ ' ' :: ("COUNT(*)".toList ++ ' ' :: ("FROM".toList ++ ' ' :: a)))
      (countFromTokens ++ s) := by
  have from' := (Scans.word "FROM" (by decide)).append source.spaced
  have whole := (Scans.word "SELECT" (by decide)).append
    ((Scans.star.call "COUNT" (by decide)).append from'.spaced).spaced
  simpa [countFromTokens] using whole

theorem Command.scans_select (listed : ∀ c ∈ columns, c.Writable) (read : rows.Writable)
    (ordered : ∀ t ∈ order, t.column.Writable) (window : Option Window) :
    Scans (Command.select columns rows order window).text.toList
      (.word "SELECT" :: (commaTokens (columns.map ColumnName.itemTokens) ++ .word "FROM" :: (rows.fromTokens ++
        filterTokens rows.filter ++ orderTokens order ++ windowTokens window))) := by
  have source := ((scans_rows read).append (trails_order ordered)).append (trails_window window)
  have whole := (Scans.word "SELECT" (by decide)).append
    ((scans_items listed).append ((Scans.word "FROM" (by decide)).append source.spaced).spaced).spaced
  simpa [Command.text, Command.pieces, Piece.text] using whole

theorem Command.select_places (listed : ∀ c ∈ columns, c.Writable) (read : rows.Writable)
    (ordered : ∀ t ∈ order, t.column.Writable) :
    (Command.select columns rows order window).Places [] rows.filter window := by
  have items : Token.placeholder ∉ commaTokens (columns.map ColumnName.itemTokens) :=
    placeholder_not_mem_commaTokens (by simp [ColumnName.itemTokens, placeholder_not_mem_column])
  refine ⟨.word "SELECT" :: (commaTokens (columns.map ColumnName.itemTokens) ++ .word "FROM" :: rows.fromTokens),
    orderTokens order, [], ?_, ?_, ?_, rfl, ?_⟩
  · simpa using scans_select listed read ordered window
  · simpa [List.count_eq_zero] using ⟨items, placeholder_not_mem_from rows⟩
  · exact List.count_eq_zero_of_not_mem (placeholder_not_mem_order order)
  · simpa using params_select columns rows order window

theorem Command.scans_count (read : rows.Writable) :
    Scans (Command.count rows).text.toList (countFromTokens ++ (rows.fromTokens ++ filterTokens rows.filter)) := by
  simpa [Command.text, Command.pieces, Piece.text] using scans_countFrom (scans_rows read)

theorem Command.count_places (read : rows.Writable) : (Command.count rows).Places [] rows.filter none := by
  refine ⟨countFromTokens ++ rows.fromTokens, [], [], ?_, ?_, rfl, rfl, ?_⟩
  · simpa [windowTokens] using scans_count read
  · simpa [List.count_eq_zero, countFromTokens] using placeholder_not_mem_from rows
  · simpa [windowParams, windowPieces] using params_count rows

theorem Command.scans_countWindow (read : rows.Writable) (window : Window) :
    Scans (Command.countWindow rows window).text.toList
      (countFromTokens ++ .symbol "(" :: .word "SELECT" :: .number "1" :: .word "FROM" :: (rows.fromTokens ++
        filterTokens rows.filter ++ windowTokens (some window) ++ [.symbol ")"])) := by
  have source := (Scans.word "FROM" (by decide)).append ((scans_rows read).append (trails_window (some window))).spaced
  have inner := (Scans.word "SELECT" (by decide)).append (Scans.one.append source.spaced).spaced
  have whole := scans_countFrom inner.group
  simpa [Command.text, Command.pieces, Piece.text] using whole

theorem Command.countWindow_places (read : rows.Writable) (window : Window) :
    (Command.countWindow rows window).Places [] rows.filter (some window) := by
  refine ⟨countFromTokens ++ .symbol "(" :: .word "SELECT" :: .number "1" :: .word "FROM" :: rows.fromTokens, [],
    [.symbol ")"], ?_, ?_, rfl, rfl, ?_⟩
  · simpa using scans_countWindow read window
  · simpa [List.count_eq_zero, countFromTokens] using placeholder_not_mem_from rows
  · simpa using params_countWindow rows window

theorem Command.scans_countDistinct (listed : ∀ c ∈ columns, c.Writable) (read : rows.Writable)
    (window : Option Window) : Scans (Command.countDistinct columns rows window).text.toList
      (countFromTokens ++ .symbol "(" :: .word "SELECT" :: .word "DISTINCT" ::
        (commaTokens (columns.map ColumnName.tokens) ++ .word "FROM" :: (rows.fromTokens ++
          filterTokens rows.filter ++ windowTokens window ++ [.symbol ")"]))) := by
  have source := (Scans.word "FROM" (by decide)).append ((scans_rows read).append (trails_window window)).spaced
  have inner := (Scans.word "SELECT" (by decide)).append
    ((Scans.word "DISTINCT" (by decide)).append ((scans_columns listed).append source.spaced).spaced).spaced
  have whole := scans_countFrom inner.group
  simpa [Command.text, Command.pieces, Piece.text] using whole

theorem Command.countDistinct_places (listed : ∀ c ∈ columns, c.Writable) (read : rows.Writable) :
    (Command.countDistinct columns rows window).Places [] rows.filter window := by
  have items : Token.placeholder ∉ commaTokens (columns.map ColumnName.tokens) :=
    placeholder_not_mem_commaTokens (by simp [placeholder_not_mem_column])
  refine ⟨countFromTokens ++ .symbol "(" :: .word "SELECT" :: .word "DISTINCT" ::
    (commaTokens (columns.map ColumnName.tokens) ++ .word "FROM" :: rows.fromTokens), [], [.symbol ")"], ?_, ?_, rfl, rfl, ?_⟩
  · simpa using scans_countDistinct listed read window
  · simpa [List.count_eq_zero, countFromTokens] using ⟨items, placeholder_not_mem_from rows⟩
  · simpa using params_countDistinct columns rows window

end Reading

section Writing

variable {table : String} {names : List String} {filter : Option Condition}

theorem scans_names (plain : ∀ name ∈ names, '\x00' ∉ name.toList) :
    Scans (columnNamesText names).toList (commaTokens (names.map fun name => [.quoted name])) :=
  .joined fun name member => .quoted (plain name member)

theorem placeholder_not_mem_names (names : List String) :
    Token.placeholder ∉ commaTokens (names.map fun name => [.quoted name]) :=
  placeholder_not_mem_commaTokens (by simp)

theorem scans_row (values : List Value) :
    Scans (textOf (boundRow values)).toList
      (.symbol "(" :: (commaTokens (List.replicate values.length [.placeholder]) ++ [.symbol ")"])) := by
  have items : Scans (textOf (Piece.separated ", " (values.map fun v => [.bound v]))).toList
      (commaTokens (values.map fun _ => [.placeholder])) :=
    .separated fun v _ => by simpa [Piece.text] using Scans.placeholder
  rw [List.map_const'] at items
  simpa [boundRow, Piece.text] using items.group

theorem count_row (n : Nat) : (commaTokens (List.replicate n [Token.placeholder])).count .placeholder = n := by
  rw [count_commaTokens fun part member => by rw [List.eq_of_mem_replicate member]; rfl, List.length_replicate]

def assignmentTokens (a : String × Value) : List Token :=
  [.quoted a.1, .symbol "=", .placeholder]

theorem scans_assignments {assignments : List (String × Value)} (plain : ∀ a ∈ assignments, '\x00' ∉ a.1.toList) :
    Scans (textOf (Piece.separated ", " (assignments.map fun a => [.raw (quoted a.1 ++ " = "), .bound a.2]))).toList
      (commaTokens (assignments.map assignmentTokens)) := by
  refine .separated fun a member => ?_
  have whole := (Scans.quoted (plain a member)).append (Scans.equals.append Scans.placeholder.spaced).spaced
  simpa [Piece.text, assignmentTokens] using whole

theorem count_assignments (assignments : List (String × Value)) :
    (commaTokens (assignments.map assignmentTokens)).count .placeholder = assignments.length := by
  rw [count_commaTokens (List.forall_mem_map.2 fun a _ => rfl), List.length_map]

theorem Command.scans_insert (plain : '\x00' ∉ table.toList) (columns : ∀ name ∈ names, '\x00' ∉ name.toList)
    (values : List Value) : Scans (Command.insert table (some names) [values]).text.toList
      (.word "INSERT" :: .word "INTO" :: .quoted table :: .symbol "(" ::
        (commaTokens (names.map fun name => [.quoted name]) ++ .symbol ")" :: .word "VALUES" :: .symbol "(" ::
          (commaTokens (List.replicate values.length [.placeholder]) ++ [.symbol ")"]))) := by
  have row := (Scans.word "VALUES" (by decide)).append (scans_row values).spaced
  have target := (Scans.quoted plain).append ((scans_names columns).group.append row.spaced).spaced
  have whole := (Scans.word "INSERT" (by decide)).append ((Scans.word "INTO" (by decide)).append target.spaced).spaced
  simpa [Command.text, Command.pieces, insertPieces, Piece.separated, Piece.text] using whole

theorem Command.insert_places (plain : '\x00' ∉ table.toList) (columns : ∀ name ∈ names, '\x00' ∉ name.toList)
    (values : List Value) : (Command.insert table (some names) [values]).Places values none none := by
  have listed := List.count_eq_zero_of_not_mem (placeholder_not_mem_names names)
  refine ⟨.word "INSERT" :: .word "INTO" :: .quoted table :: .symbol "(" ::
    (commaTokens (names.map fun name => [.quoted name]) ++ .symbol ")" :: .word "VALUES" :: .symbol "(" ::
      (commaTokens (List.replicate values.length [.placeholder]) ++ [.symbol ")"])), [], [], ?_, ?_, rfl, rfl, ?_⟩
  · simpa [filterTokens, windowTokens] using scans_insert plain columns values
  · simp [listed, count_row]
  · simpa [filterParams, filterPieces, windowParams, windowPieces] using params_insert table (some names) values

theorem Command.scans_update {assignments : List (String × Value)} (plain : '\x00' ∉ table.toList)
    (columns : ∀ a ∈ assignments, '\x00' ∉ a.1.toList) (filtered : ∀ f ∈ filter, f.Writable) :
    Scans (Command.update table assignments filter).text.toList
      (.word "UPDATE" :: .quoted table :: .word "AS" :: .word rootLabel :: .word "SET" ::
        (commaTokens (assignments.map assignmentTokens) ++ filterTokens filter)) := by
  have set := (Scans.word "SET" (by decide)).append ((scans_assignments columns).append (trails_filter filtered)).spaced
  have label := (Scans.word "AS" (by decide)).append ((Scans.word rootLabel (by decide)).append set.spaced).spaced
  have whole := (Scans.word "UPDATE" (by decide)).append ((Scans.quoted plain).append label.spaced).spaced
  simpa [Command.text, Command.pieces, Piece.text] using whole

theorem Command.update_places {assignments : List (String × Value)} (plain : '\x00' ∉ table.toList)
    (columns : ∀ a ∈ assignments, '\x00' ∉ a.1.toList) (filtered : ∀ f ∈ filter, f.Writable) :
    (Command.update table assignments filter).Places (assignments.map Prod.snd) filter none := by
  refine ⟨[.word "UPDATE", .quoted table, .word "AS", .word rootLabel, .word "SET"] ++
    commaTokens (assignments.map assignmentTokens), [], [], ?_, ?_, rfl, rfl, ?_⟩
  · simpa [windowTokens] using scans_update plain columns filtered
  · simp [count_assignments]
  · simpa [windowParams, windowPieces] using params_update table assignments filter

theorem Command.scans_delete (plain : '\x00' ∉ table.toList) (filtered : ∀ f ∈ filter, f.Writable) :
    Scans (Command.delete table filter).text.toList
      (.word "DELETE" :: .word "FROM" :: .quoted table :: .word "AS" :: .word rootLabel :: filterTokens filter) := by
  have label := (Scans.word "AS" (by decide)).append
    ((Scans.word rootLabel (by decide)).append (trails_filter filtered)).spaced
  have target := (Scans.quoted plain).append label.spaced
  have whole := (Scans.word "DELETE" (by decide)).append ((Scans.word "FROM" (by decide)).append target.spaced).spaced
  simpa [Command.text, Command.pieces, Piece.text] using whole

theorem Command.delete_places (plain : '\x00' ∉ table.toList) (filtered : ∀ f ∈ filter, f.Writable) :
    (Command.delete table filter).Places [] filter none := by
  refine ⟨[.word "DELETE", .word "FROM", .quoted table, .word "AS", .word rootLabel], [], [], ?_, rfl, rfl, rfl, ?_⟩
  · simpa [windowTokens] using scans_delete plain filtered
  · simpa [windowParams, windowPieces] using params_delete table filter

end Writing

section Defining

variable {table : String}

theorem Command.unbound_places {c : Command} (tokens : List Token) (scans : Scans c.text.toList tokens)
    (none' : Token.placeholder ∉ tokens) (params : c.params = []) : c.Places [] none none := by
  refine ⟨tokens, [], [], ?_, List.count_eq_zero_of_not_mem none', rfl, rfl, params⟩
  simpa [filterTokens, windowTokens] using scans

structure ColumnDefinition.Writable (c : ColumnDefinition) : Prop where
  name : '\x00' ∉ c.name.toList
  declared : isWord c.declared = true

def ColumnDefinition.tokens (c : ColumnDefinition) : List Token :=
  .quoted c.name :: .word c.declared :: ((if c.key then [.word "PRIMARY", .word "KEY"] else []) ++
    (if c.required then [.word "NOT", .word "NULL"] else []))

theorem ColumnDefinition.text_eq (c : ColumnDefinition) : c.text = quoted c.name ++ " " ++ c.declared ++
    (if c.key then " PRIMARY KEY" else "") ++ (if c.required then " NOT NULL" else "") := rfl

theorem ColumnDefinition.scans {c : ColumnDefinition} (writable : c.Writable) : Scans c.text.toList c.tokens := by
  have key : Trails (if c.key then " PRIMARY KEY" else "").toList (if c.key then [.word "PRIMARY", .word "KEY"] else []) := by
    cases c.key with
    | false => exact .nil
    | true => simpa using ((Scans.word "PRIMARY" (by decide)).append (Scans.word "KEY" (by decide)).spaced).spaced
  have required : Trails (if c.required then " NOT NULL" else "").toList
      (if c.required then [.word "NOT", .word "NULL"] else []) := by
    cases c.required with
    | false => exact .nil
    | true => simpa using ((Scans.word "NOT" (by decide)).append (Scans.word "NULL" (by decide)).spaced).spaced
  have type := (Scans.quoted writable.name).append (Scans.word c.declared writable.declared).spaced
  have whole := (type.append key).append required
  simpa [ColumnDefinition.text_eq, ColumnDefinition.tokens] using whole

theorem ColumnDefinition.placeholder_not_mem (c : ColumnDefinition) : Token.placeholder ∉ c.tokens := by
  unfold tokens
  cases c.key <;> cases c.required <;> simp

structure TableDefinition.Writable (t : TableDefinition) : Prop where
  name : '\x00' ∉ t.name.toList
  columns : ∀ c ∈ t.columns, c.Writable
  key : ∀ name ∈ t.key, '\x00' ∉ name.toList

def TableDefinition.parts (t : TableDefinition) : List (String × List Token) :=
  t.columns.map (fun c => (c.text, c.tokens)) ++
    if t.key.isEmpty then []
    else [("PRIMARY KEY (" ++ columnNamesText t.key ++ ")", .word "PRIMARY" :: .word "KEY" :: .symbol "(" ::
      (commaTokens (t.key.map fun name => [.quoted name]) ++ [.symbol ")"]))]

theorem TableDefinition.text_eq (t : TableDefinition) :
    t.text = "CREATE TABLE " ++ quoted t.name ++ " (" ++ joined ", " (t.parts.map Prod.fst) ++ ")" := by
  have parts : t.parts.map Prod.fst = t.columns.map ColumnDefinition.text ++ keyText t.key := by
    unfold parts keyText
    split <;> simp [columnNamesText]
  rw [parts]
  rfl

theorem TableDefinition.parts_scan {t : TableDefinition} (writable : t.Writable) :
    ∀ part ∈ t.parts, Scans part.1.toList part.2 := by
  intro part member
  rcases List.mem_append.1 member with column | key
  · obtain ⟨c, listed, rfl⟩ := List.mem_map.1 column
    exact ColumnDefinition.scans (writable.columns c listed)
  · split at key
    · cases key
    · rw [List.mem_singleton.1 key]
      have names := (scans_names writable.key).group.spaced
      have whole := (Scans.word "PRIMARY" (by decide)).append ((Scans.word "KEY" (by decide)).append names).spaced
      simpa using whole

theorem TableDefinition.placeholder_not_mem (t : TableDefinition) : ∀ part ∈ t.parts, Token.placeholder ∉ part.2 := by
  intro part member
  rcases List.mem_append.1 member with column | key
  · obtain ⟨c, -, rfl⟩ := List.mem_map.1 column
    exact c.placeholder_not_mem
  · split at key
    · cases key
    · rw [List.mem_singleton.1 key]
      simpa using placeholder_not_mem_names t.key

def TableDefinition.tokens (t : TableDefinition) : List Token :=
  .word "CREATE" :: .word "TABLE" :: .quoted t.name :: .symbol "(" ::
    (commaTokens (t.parts.map Prod.snd) ++ [.symbol ")"])

theorem TableDefinition.scans {t : TableDefinition} (writable : t.Writable) :
    Scans (Command.create t).text.toList t.tokens := by
  have parts := (Scans.joined (TableDefinition.parts_scan writable)).group.spaced
  have target := (Scans.quoted writable.name).append parts
  have whole := (Scans.word "CREATE" (by decide)).append ((Scans.word "TABLE" (by decide)).append target.spaced).spaced
  simpa [Command.create, Command.text, Command.pieces, Piece.text, TableDefinition.text_eq, tokens] using whole

theorem Command.create_places {t : TableDefinition} (writable : t.Writable) : (Command.create t).Places [] none none := by
  have none' : Token.placeholder ∉ commaTokens (t.parts.map Prod.snd) :=
    placeholder_not_mem_commaTokens (List.forall_mem_map.2 t.placeholder_not_mem)
  refine unbound_places t.tokens (TableDefinition.scans writable) ?_ rfl
  simpa [TableDefinition.tokens] using none'

theorem Command.scans_drop (plain : '\x00' ∉ table.toList) : Scans (Command.dropTable table).text.toList
    [.word "DROP", .word "TABLE", .word "IF", .word "EXISTS", .quoted table] := by
  have target := (Scans.word "IF" (by decide)).append
    ((Scans.word "EXISTS" (by decide)).append (Scans.quoted plain).spaced).spaced
  have whole := (Scans.word "DROP" (by decide)).append ((Scans.word "TABLE" (by decide)).append target.spaced).spaced
  simpa [Command.text, Command.pieces, Piece.text] using whole

theorem Command.drop_places (plain : '\x00' ∉ table.toList) : (Command.dropTable table).Places [] none none :=
  unbound_places _ (scans_drop plain) (by simp) rfl

theorem ColumnDefinition.scans_added {column : ColumnDefinition} (plain : '\x00' ∉ table.toList)
    (writable : column.Writable) : Scans (Command.addColumn table column).text.toList
      (.word "ALTER" :: .word "TABLE" :: .quoted table :: .word "ADD" :: .word "COLUMN" :: column.tokens) := by
  have added := (Scans.word "ADD" (by decide)).append
    ((Scans.word "COLUMN" (by decide)).append (ColumnDefinition.scans writable).spaced).spaced
  have whole := (Scans.word "ALTER" (by decide)).append
    ((Scans.word "TABLE" (by decide)).append ((Scans.quoted plain).append added.spaced).spaced).spaced
  simpa [Command.text, Command.pieces, Piece.text] using whole

theorem Command.addColumn_places {column : ColumnDefinition} (plain : '\x00' ∉ table.toList)
    (writable : column.Writable) : (Command.addColumn table column).Places [] none none := by
  refine unbound_places _ (ColumnDefinition.scans_added plain writable) ?_ rfl
  simpa using column.placeholder_not_mem

structure IndexDefinition.Writable (i : IndexDefinition) : Prop where
  name : '\x00' ∉ i.name.toList
  table : '\x00' ∉ i.table.toList
  columns : ∀ name ∈ i.columns, '\x00' ∉ name.toList

theorem IndexDefinition.text_eq (i : IndexDefinition) : i.text =
    "CREATE " ++ (if i.unique then "UNIQUE " else "") ++ "INDEX IF NOT EXISTS " ++ quoted i.name ++ " ON " ++
      quoted i.table ++ " (" ++ columnNamesText i.columns ++ ")" := rfl

def IndexDefinition.tokens (i : IndexDefinition) : List Token :=
  .word "CREATE" :: ((if i.unique then [.word "UNIQUE"] else []) ++ .word "INDEX" :: .word "IF" :: .word "NOT" ::
    .word "EXISTS" :: .quoted i.name :: .word "ON" :: .quoted i.table :: .symbol "(" ::
      (commaTokens (i.columns.map fun name => [.quoted name]) ++ [.symbol ")"]))

theorem IndexDefinition.scans {i : IndexDefinition} (writable : i.Writable) :
    Scans (Command.createIndex i).text.toList i.tokens := by
  have target := (Scans.word "ON" (by decide)).append
    ((Scans.quoted writable.table).append (scans_names writable.columns).group.spaced).spaced
  have guard := (Scans.word "NOT" (by decide)).append
    ((Scans.word "EXISTS" (by decide)).append ((Scans.quoted writable.name).append target.spaced).spaced).spaced
  have index := (Scans.word "INDEX" (by decide)).append ((Scans.word "IF" (by decide)).append guard.spaced).spaced
  have unique : Trails (if i.unique then " UNIQUE" else "").toList (if i.unique then [.word "UNIQUE"] else []) := by
    cases i.unique with
    | false => exact .nil
    | true => simpa using (Scans.word "UNIQUE" (by decide)).spaced
  have whole := ((Scans.word "CREATE" (by decide)).append unique).append index.spaced
  cases unique : i.unique with
  | false => simpa [unique, Command.text, Command.pieces, Piece.text, text_eq, tokens] using whole
  | true => simpa [unique, Command.text, Command.pieces, Piece.text, text_eq, tokens] using whole

theorem Command.createIndex_places {i : IndexDefinition} (writable : i.Writable) :
    (Command.createIndex i).Places [] none none := by
  have none' := placeholder_not_mem_names i.columns
  refine unbound_places i.tokens (IndexDefinition.scans writable) ?_ rfl
  unfold IndexDefinition.tokens
  cases i.unique <;> simpa using none'

end Defining

section Catalogue

theorem scans_string (text : String) (plain : doubled '\'' text.toList = text.toList) (whole : '\x00' ∉ text.toList) :
    Scans ('\'' :: (text.toList ++ ['\''])) [.string text] where
  lexes {after rest} closes tail := by
    have stop : after.head? ≠ some '\'' := by
      intro tick
      rcases closes '\'' tick with same | same | same <;> exact absurd same (by decide)
    have inside := unquote_doubled '\'' text.toList after stop
    rw [plain] at inside
    have first : token? ('\'' :: (text.toList ++ '\'' :: after)) = some (.string text, after) := by
      simp [token?, inside]
    have ended := Lexes.token rfl first tail
    simpa using ended
  whole := by simpa using whole

def tableExistsTokens : List Token :=
  countFromTokens ++ [.word "sqlite_master", .word "WHERE", .word "type", .symbol "=", .string "table", .word "AND",
    .word "name", .symbol "=", .placeholder]

theorem Command.scans_tableExists (name : String) : Scans (Command.tableExists name).text.toList tableExistsTokens := by
  have named := (Scans.word "name" (by decide)).append (Scans.equals.append Scans.placeholder.spaced).spaced
  have kind := (Scans.equals.append ((scans_string "table" rfl (by decide)).append
    ((Scans.word "AND" (by decide)).append named.spaced).spaced).spaced).spaced
  have where' := (Scans.word "WHERE" (by decide)).append ((Scans.word "type" (by decide)).append kind).spaced
  have whole := scans_countFrom ((Scans.word "sqlite_master" (by decide)).append where'.spaced)
  simpa [Command.text, Command.pieces, Piece.text, tableExistsTokens] using whole

theorem Command.tableExists_places (name : String) : (Command.tableExists name).Places [.text name] none none := by
  refine ⟨tableExistsTokens, [], [], ?_, rfl, rfl, rfl, rfl⟩
  simpa [filterTokens, windowTokens] using scans_tableExists name

def tableInfoTokens : List Token :=
  [.word "SELECT", .word "name", .symbol ",", .word "type", .symbol ",", .quoted "notnull", .symbol ",", .word "pk",
    .word "FROM", .word "pragma_table_info", .symbol "(", .placeholder, .symbol ")", .word "ORDER", .word "BY", .word "cid"]

theorem Command.scans_tableInfo (name : String) : Scans (Command.tableInfo name).text.toList tableInfoTokens := by
  have ordered := (Scans.word "ORDER" (by decide)).append
    ((Scans.word "BY" (by decide)).append (Scans.word "cid" (by decide)).spaced).spaced
  have source := (Scans.word "FROM" (by decide)).append
    ((Scans.placeholder.call "pragma_table_info" (by decide)).append ordered.spaced).spaced
  have plain : '\x00' ∉ "notnull".toList := by decide
  have keys := (Scans.word "type" (by decide)).comma
    ((Scans.quoted plain).comma ((Scans.word "pk" (by decide)).append source.spaced))
  have whole := (Scans.word "SELECT" (by decide)).append ((Scans.word "name" (by decide)).comma keys).spaced
  simpa [Command.text, Command.pieces, Piece.text, tableInfoTokens, quoted, quotedWith, doubled] using whole

theorem Command.tableInfo_places (name : String) : (Command.tableInfo name).Places [.text name] none none := by
  refine ⟨tableInfoTokens, [], [], ?_, rfl, rfl, rfl, rfl⟩
  simpa [filterTokens, windowTokens] using scans_tableInfo name

end Catalogue

/-- A command that can be written, with the values that it writes, its filter and its window. -/
inductive Command.Writable : Command → List Value → Option Condition → Option Window → Prop where
  | select {columns : List ColumnName} {rows : Rows} {order : List OrderTerm} {window : Option Window}
    (listed : ∀ c ∈ columns, c.Writable) (read : rows.Writable) (ordered : ∀ t ∈ order, t.column.Writable) :
    Writable (.select columns rows order window) [] rows.filter window
  | count {rows : Rows} (read : rows.Writable) : Writable (.count rows) [] rows.filter none
  | countWindow {rows : Rows} {window : Window} (read : rows.Writable) :
    Writable (.countWindow rows window) [] rows.filter (some window)
  | countDistinct {columns : List ColumnName} {rows : Rows} {window : Option Window}
    (listed : ∀ c ∈ columns, c.Writable) (read : rows.Writable) :
    Writable (.countDistinct columns rows window) [] rows.filter window
  | insert {table : String} {names : List String} {values : List Value} (plain : '\x00' ∉ table.toList)
    (columns : ∀ name ∈ names, '\x00' ∉ name.toList) : Writable (.insert table (some names) [values]) values none none
  | update {table : String} {assignments : List (String × Value)} {filter : Option Condition}
    (plain : '\x00' ∉ table.toList) (columns : ∀ a ∈ assignments, '\x00' ∉ a.1.toList)
    (filtered : ∀ f ∈ filter, f.Writable) :
    Writable (.update table assignments filter) (assignments.map Prod.snd) filter none
  | delete {table : String} {filter : Option Condition} (plain : '\x00' ∉ table.toList)
    (filtered : ∀ f ∈ filter, f.Writable) : Writable (.delete table filter) [] filter none
  | create {t : TableDefinition} (writable : t.Writable) : Writable (.create t) [] none none
  | drop {table : String} (plain : '\x00' ∉ table.toList) : Writable (.dropTable table) [] none none
  | addColumn {table : String} {column : ColumnDefinition} (plain : '\x00' ∉ table.toList)
    (writable : column.Writable) : Writable (.addColumn table column) [] none none
  | createIndex {i : IndexDefinition} (writable : i.Writable) : Writable (.createIndex i) [] none none
  | tableExists (name : String) : Writable (.tableExists name) [.text name] none none
  | tableInfo (name : String) : Writable (.tableInfo name) [.text name] none none

theorem Command.Writable.places {c : Command} {written : List Value} {filter : Option Condition} {window : Option Window}
    (writable : c.Writable written filter window) : c.Places written filter window := by
  cases writable with
  | select listed read ordered => exact select_places listed read ordered
  | count read => exact count_places read
  | countWindow read => exact countWindow_places read _
  | countDistinct listed read => exact countDistinct_places listed read
  | insert plain columns => exact insert_places plain columns _
  | update plain columns filtered => exact update_places plain columns filtered
  | delete plain filtered => exact delete_places plain filtered
  | create writable => exact create_places writable
  | drop plain => exact drop_places plain
  | addColumn plain writable => exact addColumn_places plain writable
  | createIndex writable => exact createIndex_places writable
  | tableExists name => exact tableExists_places name
  | tableInfo name => exact tableInfo_places name

end RecordMapper.Sql
