import RecordMapper.Plan.Write
import RecordMapper.Proofs.Outcome
import RecordMapper.Proofs.Statement.Places

namespace RecordMapper

open RecordMapper.Sql RecordMapper.Text

namespace Selection

def Leaves : Selection → String → Prop
  | .all, _ => True
  | .ignoring names, name => name ∉ names
  | .only names, name => name ∈ names

theorem covers_iff (s : Selection) (name : String) : s.covers name = true ↔ s.Leaves name := by
  cases s <;> simp [covers, Leaves]

variable {s : Selection} {t : Table} {positions : t.Positions}

/-- The positions of a table at which a selection leaves a column, without the checks. -/
def kept (s : Selection) (t : Table) : t.Positions :=
  (List.finRange t.width).filter fun i => s.covers (t.columnAt i).name

theorem mem_kept (i : Fin t.width) : i ∈ s.kept t ↔ s.Leaves (t.columnAt i).name := by
  rw [kept, List.mem_filter, covers_iff]
  exact and_iff_right (List.mem_finRange i)

theorem sorted_kept (s : Selection) (t : Table) : (s.kept t).Pairwise (· < ·) :=
  (List.pairwise_lt_finRange t.width).filter _

theorem kept_eq_nil_iff : s.kept t = [] ↔ ∀ c ∈ t.columns, ¬s.Leaves c.name := by
  rw [List.eq_nil_iff_forall_not_mem]
  constructor
  · intro none c listed leaves
    obtain ⟨i, rfl⟩ := List.get_of_mem listed
    exact none i ((mem_kept i).2 leaves)
  · intro none i member
    exact none _ (List.get_mem _ i) ((mem_kept i).1 member)

theorem find?_unknown : (s.named.find? fun name => !t.hasColumn name) = none ↔ ∀ name ∈ s.named, name ∈ t.columnNames := by
  simp [List.find?_eq_none, Table.hasColumn_iff]

theorem positions_kept (s : Selection) (t : Table) : s.positions t =
    match s.named.find? fun name => !t.hasColumn name with
    | some name => .error (.noSuchColumn t.name name)
    | none => if (s.kept t).isEmpty then .error (.nothingToWrite t.name) else .ok (s.kept t) := rfl

theorem positions_eq_ok_iff : s.positions t = .ok positions ↔
    (∀ name ∈ s.named, name ∈ t.columnNames) ∧ s.kept t ≠ [] ∧ positions = s.kept t := by
  rw [positions_kept, ← find?_unknown]
  cases s.named.find? fun name => !t.hasColumn name with
  | some name => simp
  | none =>
    by_cases empty : s.kept t = []
    · simp [empty]
    · rw [if_neg (by simpa using empty), Except.ok.injEq]
      exact ⟨fun same => ⟨rfl, empty, same.symm⟩, fun same => same.2.2.symm⟩

theorem positions_fails_iff : (∃ fault, s.positions t = .error fault) ↔
    (∃ name ∈ s.named, name ∉ t.columnNames) ∨ ∀ c ∈ t.columns, ¬s.Leaves c.name := by
  rw [← kept_eq_nil_iff]
  constructor
  · rintro ⟨fault, failed⟩
    by_contra fine
    simp only [not_or, not_exists, not_and, not_not] at fine
    rw [positions_eq_ok_iff.2 ⟨fine.1, fine.2, rfl⟩] at failed
    cases failed
  · intro bad
    cases found : s.positions t with
    | error fault => exact ⟨fault, rfl⟩
    | ok positions =>
      obtain ⟨known, some, -⟩ := positions_eq_ok_iff.1 found
      rcases bad with ⟨name, listed, unknown⟩ | none
      · exact absurd (known name listed) unknown
      · exact absurd none some

theorem nodup_kept (s : Selection) (t : Table) : (s.kept t).Nodup :=
  (List.nodup_finRange t.width).filter _

theorem only_append_ignoring (names : List String) (t : Table) :
    ((only names).kept t ++ (ignoring names).kept t).Perm (List.finRange t.width) := by
  apply (List.perm_ext_iff_of_nodup ?_ (List.nodup_finRange _)).2
  · intro i
    rw [List.mem_append, mem_kept, mem_kept]
    exact iff_of_true (em _) (List.mem_finRange i)
  · apply List.nodup_append.2
    refine ⟨nodup_kept _ t, nodup_kept _ t, ?_⟩
    rintro i first _ second rfl
    exact (mem_kept i).1 second ((mem_kept i).1 first)

end Selection

section Texts

variable {t : Table}

/-- Names and values that belong, one after the other, to the columns at the given positions. -/
structure Table.Aligned (t : Table) (row : List Value) (positions : t.Positions) (names : List String)
    (values : List Value) : Prop where
  names : List.Forall₂ (fun i name => t.columnNames[i.val]? = some name) positions names
  values : List.Forall₂ (fun i v => row[i.val]? = some v) positions values

theorem Table.Row.getElem?_eq (row : t.Row) (i : Fin t.width) : row.1[i.val]? = some (row.value i) :=
  List.getElem?_eq_getElem (row.2.symm ▸ i.2)

def Table.picked (positions : t.Positions) (row : List Value) : List Value :=
  (positions.map (row[·]?)).reduceOption

theorem Table.assignments_values (positions : t.Positions) (row : t.Row) :
    (t.assignments positions row).map Prod.snd = picked positions row.1 := by
  rw [assignments, List.map_map, picked, Positions.map, funext row.getElem?_eq]
  show _ = List.filterMap id (List.map (fun i => some (row.value i)) positions)
  rw [List.filterMap_map]
  exact (congrFun List.filterMap_eq_map' _).symm

theorem Table.assignments_names (positions : t.Positions) (row : t.Row) :
    (t.assignments positions row).map Prod.fst = List.map (fun i => (t.columnAt i).name) positions := by
  rw [assignments, List.map_map]
  rfl

theorem Table.assignments_aligned (positions : t.Positions) (row : t.Row) :
    t.Aligned row.1 positions ((t.assignments positions row).map Prod.fst)
      ((t.assignments positions row).map Prod.snd) := by
  constructor <;> rw [assignments, List.map_map, List.forall₂_map_right_iff, List.forall₂_same]
  case names =>
    intro i _
    rw [columnNames, List.getElem?_map, List.getElem?_eq_getElem i.2]
    rfl
  case values => exact fun i _ => row.getElem?_eq i

def insertionText (table : String) (names : List String) : String :=
  "INSERT INTO " ++ quoted table ++ " (" ++ joined ", " (names.map quoted) ++ ") VALUES (" ++
    joined ", " (List.replicate names.length "?") ++ ")"

def updateText (table : String) (names : List String) : String :=
  "UPDATE " ++ quoted table ++ " AS t0 SET " ++ joined ", " (names.map fun name => quoted name ++ " = ?")

def filterText : Option Condition → String
  | none => ""
  | some condition => " WHERE " ++ condition.text

theorem text_boundRow (values : List Value) :
    textOf (boundRow values) = "(" ++ joined ", " (List.replicate values.length "?") ++ ")" := by
  have placeholders : (fun v : Value => textOf [Piece.bound v]) = fun _ => "?" := rfl
  rw [boundRow, textOf_append, textOf_append, textOf_separated, List.map_map, Function.comp_def, placeholders,
    List.map_const']
  rfl

theorem text_insert (table : String) (assignments : List (String × Value)) :
    (Command.insert table (some (assignments.map Prod.fst)) [assignments.map Prod.snd]).text =
      insertionText table (assignments.map Prod.fst) := by
  have row := text_boundRow (assignments.map Prod.snd)
  have words : ") VALUES (" = ")" ++ (" VALUES " ++ "(") := rfl
  have pieces : (Command.insert table (some (assignments.map Prod.fst)) [assignments.map Prod.snd]).text =
      "INSERT INTO " ++ quoted table ++ (" (" ++ columnNamesText (assignments.map Prod.fst) ++ ")") ++ " VALUES " ++
        textOf (boundRow (assignments.map Prod.snd)) := rfl
  rw [pieces, row, List.length_map]
  unfold insertionText columnNamesText
  rw [List.length_map, words]
  simp only [String.append_assoc]

theorem text_update (table : String) (assignments : List (String × Value)) (filter : Option Condition) :
    (Command.update table assignments filter).text =
      updateText table (assignments.map Prod.fst) ++ filterText filter := by
  have names : ((assignments.map fun a => [Piece.raw (quoted a.1 ++ " = "), .bound a.2]).map textOf) =
      (assignments.map Prod.fst).map fun name => quoted name ++ " = ?" := by
    simp [textOf, Piece.text, Function.comp_def, String.append_assoc]
  have rest : textOf (filterPieces filter) = filterText filter := by
    cases filter <;> rfl
  simp [Command.text, Command.pieces, textOf_separated, names, rest, updateText, rootLabel, textOf_cons, Piece.text,
    String.append_assoc]

end Texts

section Writes

variable {t : Table} {row : List Value} {positions : t.Positions}

theorem requireWidth_whole (row : t.Row) : t.requireWidth row.1 = .ok row :=
  dif_pos row.2

theorem requireWidth_eq_ok {whole : t.Row} (fits : t.requireWidth row = .ok whole) : row = whole.1 := by
  unfold Table.requireWidth at fits
  split at fits
  · rw [← Except.ok.inj fits]
  · cases fits

theorem requireWidth_other (other : row.length ≠ t.width) : t.requireWidth row = .error (.binding t.width row.length) :=
  dif_neg other

/-- The statements that write a row at the given positions: every column that they name is the one at its position and
    gets the row's value there, and the parameters of a filter follow behind these. -/
structure Table.WritesAt (t : Table) (positions : t.Positions) (row : List Value) : Prop where
  insertion : ∃ command names values, t.insert positions row = .ok command ∧ t.Aligned row positions names values ∧
    command.statement.sql = insertionText t.name names ∧ command.statement.params = values
  update : ∀ scope filter condition, Table.filterIn scope filter = .ok condition → ∃ command names values,
    t.updateIn scope positions row filter = .ok command ∧ t.Aligned row positions names values ∧
    command.statement.sql = updateText t.name names ++ filterText condition ∧
    command.statement.params = values ++ filterParams condition
  refused : ∀ scope filter failure, Table.filterIn scope filter = .error failure →
    t.updateIn scope positions row filter = .error failure

theorem Table.writesAt (positions : t.Positions) (row : t.Row) : t.WritesAt positions row.1 := by
  have width := requireWidth_whole row
  have aligned := t.assignments_aligned positions row
  constructor
  case insertion =>
    have made : t.insert positions row.1 = .ok (.insert t.name (some ((t.assignments positions row).map Prod.fst))
        [(t.assignments positions row).map Prod.snd]) := by
      rw [Table.insert, width]
      rfl
    have params := Command.params_insert t.name (some ((t.assignments positions row).map Prod.fst))
      ((t.assignments positions row).map Prod.snd)
    exact ⟨_, _, _, made, aligned, text_insert _ _, params⟩
  case update =>
    intro scope filter condition compiled
    have made : t.updateIn scope positions row.1 filter =
        .ok (.update t.name (t.assignments positions row) condition) := by
      rw [Table.updateIn, width, compiled]
      rfl
    have params := Command.params_update t.name (t.assignments positions row) condition
    exact ⟨_, _, _, made, aligned, text_update _ _ _, params⟩
  case refused =>
    intro scope filter failure failed
    rw [Table.updateIn, width, failed]
    rfl

/-- A selection is refused exactly if it names an unknown column or leaves none. Otherwise it stands for the positions of
    the columns that it leaves, in their order; statements write at these positions and nowhere else. What is written
    with only some columns and what is written without them make up the table. A row of another width is not written. -/
theorem Selection.writes_in_place (t : Table) :
    (∀ s : Selection, (∃ fault, s.positions t = .error fault) ↔
      (∃ name ∈ s.named, name ∉ t.columnNames) ∨ ∀ c ∈ t.columns, ¬s.Leaves c.name) ∧
    (∀ (s : Selection) positions, s.positions t = .ok positions →
      positions.Pairwise (· < ·) ∧ (∀ i, i ∈ positions ↔ s.Leaves (t.columnAt i).name) ∧
      ∀ row : List Value, row.length = t.width → t.WritesAt positions row) ∧
    (∀ names positions others, (Selection.only names).positions t = .ok positions →
      (Selection.ignoring names).positions t = .ok others → (positions ++ others).Perm (List.finRange t.width)) ∧
    ∀ (positions : t.Positions) (row : List Value), row.length ≠ t.width →
      t.insert positions row = .error (.binding t.width row.length) ∧
      ∀ scope filter, t.updateIn scope positions row filter = .error (.binding t.width row.length) := by
  refine ⟨fun s => positions_fails_iff, ?_, ?_, ?_⟩
  · intro s positions found
    obtain ⟨-, -, rfl⟩ := positions_eq_ok_iff.1 found
    exact ⟨sorted_kept s t, mem_kept, fun row whole => t.writesAt (s.kept t) ⟨row, whole⟩⟩
  · intro names positions others first second
    obtain ⟨-, -, rfl⟩ := positions_eq_ok_iff.1 first
    obtain ⟨-, -, rfl⟩ := positions_eq_ok_iff.1 second
    exact only_append_ignoring names t
  · intro positions row other
    have width := requireWidth_other other
    constructor
    · rw [Table.insert, width]
      rfl
    · intro scope filter
      rw [Table.updateIn, width]
      rfl

end Writes

section Parcels

def parcelTable : Table :=
  ⟨"parcel", [⟨"id", .integer, false, true⟩, ⟨"to \"?\"", .text, true, false⟩, ⟨"set", .float, true, false⟩,
    ⟨"where", .text, true, false⟩], by decide⟩

def parcelRow : List Value := [.integer 7, .text "Oslo", .null, .text "dock"]

def parcelWords : parcelTable.Positions := [⟨1, by decide⟩, ⟨3, by decide⟩]

def parcelOthers : parcelTable.Positions := [⟨0, by decide⟩, ⟨2, by decide⟩]

theorem writes_in_place_parcel :
    (Selection.only ["where", "to \"?\"", "where"]).positions parcelTable = .ok parcelWords ∧
    (Selection.ignoring ["where", "to \"?\"", "where"]).positions parcelTable = .ok parcelOthers ∧
    (parcelWords ++ parcelOthers).Perm (List.finRange parcelTable.width) ∧ parcelTable.WritesAt parcelWords parcelRow ∧
    parcelTable.insert parcelWords [.null] = .error (.binding 4 1) := by
  have only : (Selection.only ["where", "to \"?\"", "where"]).positions parcelTable = .ok parcelWords := by decide
  have ignoring : (Selection.ignoring ["where", "to \"?\"", "where"]).positions parcelTable = .ok parcelOthers := by
    decide
  obtain ⟨-, found, complete, refused⟩ := Selection.writes_in_place parcelTable
  exact ⟨only, ignoring, complete _ _ _ only ignoring, (found _ _ only).2.2 parcelRow rfl,
    (refused parcelWords [.null] (by decide)).1⟩

end Parcels

end RecordMapper
