import RecordMapper.Proofs.Statement.Parameters
import RecordMapper.Proofs.Statement.Quotes

namespace RecordMapper

open RecordMapper.Store RecordMapper.Text

variable {p : Plan} {rows : Sql.Rows} {order : List Sql.OrderTerm} {window : Option Sql.Window}

theorem sealed_source {s : Sql.Source} (label : Sql.isWord s.label = true) : Sql.Sealed s.text.toList := by
  have written : s.text.toList = (quoted s.table).toList ++ (" AS ".toList ++ s.label.toList) := by
    simp [Sql.Source.text]
  rw [written]
  exact (Sql.sealed_quoted s.table).append
    ((Sql.sealed_of_isBare _ (by decide)).append (Sql.sealed_of_isBare _ (Sql.isBare_of_isWord label)))

structure Sql.Link.Labelled (l : Sql.Link) : Prop where
  source : Sql.isWord l.source.label = true
  left : Sql.isWord l.left.label = true
  right : Sql.isWord l.right.label = true

theorem Sql.Link.Labelled.isSealed {l : Sql.Link} (labelled : l.Labelled) : ∀ piece ∈ l.pieces, piece.IsSealed := by
  have written : (" JOIN " ++ l.source.text ++ " ON ").toList =
      " JOIN ".toList ++ (l.source.text.toList ++ " ON ".toList) := by
    simp
  have source : (Sql.Piece.raw (" JOIN " ++ l.source.text ++ " ON ")).IsSealed := by
    rw [Sql.Piece.IsSealed, Sql.Piece.text, written]
    exact (Sql.sealed_of_isBare _ (by decide)).append
      ((sealed_source labelled.source).append (Sql.sealed_of_isBare _ (by decide)))
  simpa [Sql.Link.pieces] using ⟨source, Sql.Piece.sealed_column labelled.left,
    Sql.Piece.sealed_raw " = " (by decide), Sql.Piece.sealed_column labelled.right⟩

theorem Join.labelled_links (j : Join) (position : Nat) : ∀ l ∈ j.links position, l.Labelled := by
  have root := plain_rootLabel.word
  have child := (plain_childLabel position).word
  have pivot := (plain_pivotLabel position).word
  intro l member
  rcases j with ⟨relation, t, _ | _⟩
  · rw [List.mem_singleton.1 member]
    exact ⟨child, root, child⟩
  · rcases List.mem_pair.1 member with rfl | rfl
    · exact ⟨pivot, root, pivot⟩
    · exact ⟨child, pivot, child⟩

theorem Scope.Finds.label {c : Sql.ColumnName} (found : p.scope.Finds c) : Sql.isWord c.label = true := by
  obtain ⟨ref, resolved⟩ := found
  obtain ⟨e, entry, -, rfl⟩ := Scope.resolve_eq_ok.1 resolved
  exact (plain_labels p e (Scope.entry_mem entry)).word

theorem sealed_items {columns : List Sql.ColumnName} (labels : ∀ c ∈ columns, Sql.isWord c.label = true) :
    ∀ piece ∈ Sql.selectListPieces columns, piece.IsSealed := by
  refine Sql.sealed_separated fun part member => ?_
  obtain ⟨c, listed, rfl⟩ := List.mem_map.1 member
  have title : (Sql.Piece.raw (" AS " ++ quoted (c.label ++ "." ++ c.name))).IsSealed := by
    rw [Sql.Piece.IsSealed, Sql.Piece.text, String.toList_append]
    exact (Sql.sealed_of_isBare _ (by decide)).append (Sql.sealed_quoted _)
  simpa [Sql.itemPieces] using ⟨Sql.Piece.sealed_column (labels c listed), title⟩

theorem Plan.sealed_rows (made : p.rows = .ok rows) : ∀ piece ∈ rows.pieces, piece.IsSealed := by
  simp only [Plan.rows, bind_eq_ok, pure_eq_ok] at made
  obtain ⟨filter, compiled, rfl⟩ := made
  rw [Sql.Rows.pieces, Sql.Rows.fromPieces, List.forall_mem_append, List.forall_mem_cons]
  refine ⟨⟨sealed_source plain_rootLabel.word, ?_⟩, ?_⟩
  · intro piece listed
    obtain ⟨l, linked, inside⟩ := List.mem_flatMap.1 listed
    obtain ⟨position, j, -, own⟩ := mem_positioned linked
    exact (j.labelled_links position l own).isSealed piece inside
  · cases filter with
    | none => exact fun _ none => absurd none List.not_mem_nil
    | some written =>
      have found : ∀ column ∈ Sql.columnsOf written.pieces, p.scope.Finds column := by
        cases filtered : p.filter with
        | none =>
          rw [filtered] at compiled
          cases compiled
        | some test =>
          simp only [filtered, Predicate.conditionOf, bind_eq_ok, pure_eq_ok] at compiled
          obtain ⟨_, compiled, same⟩ := compiled
          cases same
          exact test.condition_columns compiled
      rw [Sql.filterPieces, List.forall_mem_cons]
      exact ⟨Sql.Piece.sealed_raw _ (by decide),
        Sql.sealed_of_isPlain written.isPlain_pieces fun column named => (found column named).label⟩

theorem Plan.sealed_order (ordered : p.orderTerms = .ok order) : ∀ piece ∈ Sql.orderPieces order, piece.IsSealed := by
  have labels : ∀ t ∈ order, Sql.isWord t.column.label = true := by
    intro t listed
    obtain ⟨i, here⟩ := List.getElem?_of_mem listed
    obtain ⟨term, -, found⟩ := forall₂_getElem? (mapM_eq_ok.1 ordered).flip here
    simp only [bind_eq_ok, pure_eq_ok] at found
    obtain ⟨column, resolved, rfl⟩ := found
    exact Scope.Finds.label ⟨term.column, resolved⟩
  rw [Sql.orderPieces]
  split
  · exact fun _ none => absurd none List.not_mem_nil
  · rw [List.forall_mem_cons]
    refine ⟨Sql.Piece.sealed_raw _ (by decide), Sql.sealed_separated fun part member => ?_⟩
    obtain ⟨t, listed, rfl⟩ := List.mem_map.1 member
    have direction : (Sql.Piece.raw (if t.descending then " DESC" else " ASC")).IsSealed :=
      Sql.Piece.sealed_raw _ (by cases t.descending <;> decide)
    simpa [Sql.OrderTerm.pieces] using ⟨Sql.Piece.sealed_column (labels t listed), direction⟩

theorem sealed_window (window : Option Sql.Window) : ∀ piece ∈ Sql.windowPieces window, piece.IsSealed := by
  refine Sql.sealed_of_isPlain ?_ ?_
  · cases window <;> rfl
  · cases window <;> simp [Sql.windowPieces, Sql.columnsOf]

theorem Plan.sealed_select (made : p.rows = .ok rows) (ordered : p.orderTerms = .ok order) :
    Sql.Sealed (Sql.Command.select p.scope.columns rows order window).text.toList := by
  refine Sql.sealed_textOf ?_
  simp only [Sql.Command.pieces, List.forall_mem_append, List.forall_mem_singleton]
  refine ⟨⟨⟨⟨⟨Sql.Piece.sealed_raw _ (by decide), ?_⟩, Sql.Piece.sealed_raw _ (by decide)⟩, p.sealed_rows made⟩,
    p.sealed_order ordered⟩, sealed_window window⟩
  refine sealed_items fun c listed => ?_
  obtain ⟨e, member, written⟩ := List.mem_flatMap.1 listed
  obtain ⟨name, -, rfl⟩ := List.mem_map.1 written
  exact (plain_labels p e member).word

theorem mem_positioned_of_mem {α : Type} (f : Nat → Join → List α) {joins : List Join} {j : Join} (listed : j ∈ joins)
    (start : Nat) : ∃ position, ∀ a ∈ f position j, a ∈ positioned f start joins := by
  induction joins generalizing start with
  | nil => cases listed
  | cons first joins ih =>
    rcases List.mem_cons.1 listed with rfl | later
    · exact ⟨start, fun a own => List.mem_append_left _ own⟩
    · obtain ⟨position, inside⟩ := ih later (start + 1)
      exact ⟨position, fun a own => List.mem_append_right _ (inside a own)⟩

theorem column_mem_of_columnsOf {c : Sql.ColumnName} {pieces : List Sql.Piece} (named : c ∈ Sql.columnsOf pieces) :
    .column c ∈ pieces := by
  obtain ⟨piece, listed, same⟩ := List.mem_filterMap.1 named
  cases piece with
  | column other => exact Option.some.inj same ▸ listed
  | raw text => cases same
  | bound v => cases same

theorem plain_name {c : Sql.ColumnName} (plain : '\x00' ∉ (Sql.Piece.column c).text.toList) : '\x00' ∉ c.name.toList := by
  intro inside
  refine plain ?_
  rw [Sql.Piece.text, Sql.ColumnName.text, String.toList_append]
  exact List.mem_append_right _ (Sql.mem_quoted inside)

theorem plain_table {s : Sql.Source} (plain : '\x00' ∉ s.text.toList) : '\x00' ∉ s.table.toList := by
  intro inside
  refine plain ?_
  rw [Sql.Source.text, String.toList_append, String.toList_append, List.append_assoc]
  exact List.mem_append_left _ (Sql.mem_quoted inside)

structure Sql.Link.Plain (l : Sql.Link) : Prop where
  table : '\x00' ∉ l.source.table.toList
  left : '\x00' ∉ l.left.name.toList
  right : '\x00' ∉ l.right.name.toList

theorem Sql.Link.plain_of_pieces {l : Sql.Link} (none : ∀ piece ∈ l.pieces, '\x00' ∉ piece.text.toList) : l.Plain := by
  simp only [Sql.Link.pieces, List.forall_mem_cons] at none
  obtain ⟨source, left, -, right, -⟩ := none
  refine ⟨plain_table fun inside => source ?_, plain_name left, plain_name right⟩
  rw [Sql.Piece.text, String.toList_append, String.toList_append, List.append_assoc]
  exact List.mem_append_right _ (List.mem_append_left _ inside)

theorem Join.plain_of_links {j : Join} (position place : Nat) (links : ∀ l ∈ j.links position, l.Plain)
    (columns : ∀ e ∈ j.entries place, ∀ name ∈ e.table.columnNames, '\x00' ∉ name.toList) : j.Plain := by
  rcases j with ⟨relation, child, _ | _⟩
  · have link := List.forall_mem_singleton.1 links
    have own := List.forall_mem_singleton.1 columns
    exact ⟨List.forall_mem_singleton.2 ⟨link.table, own⟩, by simpa [linked] using ⟨link.left, link.right⟩⟩
  · obtain ⟨toPivot, link⟩ := List.forall_mem_cons.1 links
    have toChild := List.forall_mem_singleton.1 link
    obtain ⟨between, own⟩ := List.forall_mem_cons.1 columns
    have child := List.forall_mem_singleton.1 own
    refine ⟨List.forall_mem_cons.2 ⟨⟨toPivot.table, between⟩, List.forall_mem_singleton.2 ⟨toChild.table, child⟩⟩, ?_⟩
    simpa [linked] using ⟨toPivot.left, toPivot.right, toChild.right, toChild.left⟩

theorem Plan.plain_of_pieces (made : p.rows = .ok rows)
    (none : ∀ piece ∈ (Sql.Command.select p.scope.columns rows order window).pieces, '\x00' ∉ piece.text.toList) :
    p.Plain := by
  simp only [Plan.rows, bind_eq_ok, pure_eq_ok] at made
  obtain ⟨filter, -, rfl⟩ := made
  simp only [Sql.Command.pieces, Sql.Rows.pieces, Sql.Rows.fromPieces, List.forall_mem_append, List.forall_mem_cons] at none
  obtain ⟨⟨⟨⟨⟨-, listed⟩, -⟩, ⟨root, linked⟩, -⟩, -⟩, -⟩ := none
  have columns : ∀ e ∈ p.scope.entries, ∀ name ∈ e.table.columnNames, '\x00' ∉ name.toList := by
    intro e member name known
    have written : (⟨e.label, name⟩ : Sql.ColumnName) ∈ Sql.columnsOf (Sql.selectListPieces p.scope.columns) := by
      rw [columnsOf_list]
      exact List.mem_flatMap.2 ⟨e, member, List.mem_map.2 ⟨name, known, rfl⟩⟩
    exact plain_name (listed _ (column_mem_of_columnsOf written))
  refine ⟨⟨plain_table root, columns _ List.mem_cons_self⟩, fun j joined => ?_⟩
  obtain ⟨position, links⟩ := mem_positioned_of_mem Join.links joined 0
  obtain ⟨place, entries⟩ := mem_positioned_of_mem Join.entries joined 0
  refine Join.plain_of_links position place (fun l own => ?_) fun e own => ?_
  · exact Sql.Link.plain_of_pieces fun piece inside => linked piece (List.mem_flatMap.2 ⟨l, links l own, inside⟩)
  · exact columns e (List.mem_cons_of_mem _ (entries e own))

/-- A selection that asks anything has no U+0000 in a name. -/
theorem Plan.plain_of_asked {asked : Sql.Command} (made : p.rows = .ok rows) (ordered : p.orderTerms = .ok order)
    (asks : (Sql.Command.select p.scope.columns rows order window).statement.asked = .ok asked) : p.Plain := by
  have whole := Sql.Command.whole_of_asked (p.sealed_select made ordered) asks
  exact p.plain_of_pieces made fun piece listed inside => whole (Sql.mem_textOf listed inside)

end RecordMapper
