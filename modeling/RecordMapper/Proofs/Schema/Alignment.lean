import RecordMapper.Proofs.Query.Holding
import RecordMapper.Schema.Reconciliation

namespace RecordMapper

open RecordMapper.Store RecordMapper.Text

def Store.StoredColumn.told (column : StoredColumn) : LiveColumn :=
  ⟨column.name, column.declared, column.required, Int64.ofNat column.keyPosition⟩

theorem readLive_columns (name : String) (columns : List StoredColumn) :
    Database.readLive name (columns.map fun column => [.text column.name, .text column.declared,
      Value.ofBool column.required, .integer (Int64.ofNat column.keyPosition)]) =
        .ok (columns.map StoredColumn.told) := by
  rw [Database.readLive, mapM_eq_ok, List.forall₂_map_left_iff, List.forall₂_map_right_iff, List.forall₂_same]
  intro column _
  cases required : column.required
  · simp [LiveColumn.ofRow?, Value.ofBool, StoredColumn.told, required]
  · simp [LiveColumn.ofRow?, Value.ofBool, StoredColumn.told, required]

/-- Stored columns that lack none of a descriptor's and conflict with none. -/
def Table.Meets (t : Table) (columns : List StoredColumn) : Prop :=
  t.missingFrom (columns.map StoredColumn.told) = .ok []

/-- A content has the table of a descriptor, under its very name, in line with it. -/
def Table.InLine (t : Table) (c : Content) : Prop :=
  ∃ own, c.table? t.name = some own ∧ own.name = t.name ∧ t.Meets own.columns

section Meeting

variable {t : Table} {live more : List LiveColumn} {c : Column} {l : LiveColumn}

def Table.Suits (t : Table) (live : List LiveColumn) (c : Column) : Prop :=
  ∃ l, LiveColumn.find? live c.name = some l ∧ t.conflictWith? c l = none

theorem Table.missing?_eq_ok {found : Option Column} (sought : t.missing? live c = .ok found) :
    (t.Suits live c ∧ found = none) ∨
      (LiveColumn.find? live c.name = none ∧ c.nullable = true ∧ found = some c) := by
  unfold missing? at sought
  split at sought
  · rename_i l here
    split at sought
    · cases sought
    · rename_i goes
      exact .inl ⟨⟨l, here, goes⟩, (Except.ok.inj sought).symm⟩
  · rename_i absent
    split at sought
    · rename_i nullable
      exact .inr ⟨absent, nullable, (Except.ok.inj sought).symm⟩
    · cases sought

theorem Table.missing?_of_suits (suits : t.Suits live c) : t.missing? live c = .ok none := by
  obtain ⟨l, here, goes⟩ := suits
  simp only [missing?, here, goes]

theorem Table.missingFrom_eq_ok {missing : List Column} (found : t.missingFrom live = .ok missing) :
    t.sameKey live = true ∧ missing.Sublist t.columns ∧ ∀ c ∈ t.columns,
      t.Suits live c ∨ LiveColumn.find? live c.name = none ∧ c.nullable = true ∧ c ∈ missing := by
  unfold missingFrom at found
  split at found
  · rename_i same
    rcases sought : t.columns.mapM (t.missing? live) with conflict | each
    · rw [sought] at found
      cases found
    · rw [sought] at found
      obtain rfl := Except.ok.inj found
      rw [mapM_eq_ok] at sought
      refine ⟨same, ?_⟩
      clear found same
      generalize t.columns = columns at sought ⊢
      induction sought with
      | nil => exact ⟨.slnil, by simp⟩
      | cons first rest ih =>
        rename_i c found columns each
        obtain ⟨sub, all⟩ := ih
        rcases missing?_eq_ok first with ⟨suits, rfl⟩ | ⟨absent, nullable, rfl⟩
        · refine ⟨sub.cons c, fun other member => ?_⟩
          rcases List.mem_cons.1 member with rfl | later
          · exact .inl suits
          · exact all other later
        · refine ⟨sub.cons_cons c, fun other member => ?_⟩
          rcases List.mem_cons.1 member with rfl | later
          · exact .inr ⟨absent, nullable, List.mem_cons_self⟩
          · exact (all other later).imp_right fun lacking => lacking.imp_right fun both => both.imp_right (List.mem_cons_of_mem _)
  · cases found

/-- Nothing is missing where the keys are the same and every column has a live one that goes with it. -/
theorem Table.missingFrom_of_suits (same : t.sameKey live = true) (suits : ∀ c ∈ t.columns, t.Suits live c) :
    t.missingFrom live = .ok [] := by
  have none : t.columns.mapM (t.missing? live) = .ok (t.columns.map fun _ => none) := by
    rw [mapM_eq_ok, List.forall₂_map_right_iff, List.forall₂_same]
    exact fun c listed => missing?_of_suits (suits c listed)
  rw [missingFrom, if_pos same, none]
  exact congrArg Except.ok (by simp)

theorem fitsDeclaration_keptType (d : DataType) : d.fitsDeclaration (keptType d.declared) = true := by
  cases d <;> decide

def Column.told (c : Column) (keyPosition : Nat) : LiveColumn :=
  ⟨c.name, keptType c.dataType.declared, !c.nullable, Int64.ofNat keyPosition⟩

theorem Table.conflictWith?_told (c : Column) (keyPosition : Nat) : t.conflictWith? c (c.told keyPosition) = none := by
  unfold conflictWith?
  rw [Column.told, fitsDeclaration_keptType]
  cases c.nullable <;> rfl

theorem LiveColumn.find?_append (name : String) :
    LiveColumn.find? (live ++ more) name = (LiveColumn.find? live name).or (LiveColumn.find? more name) :=
  List.find?_append

theorem LiveColumn.find?_of_mem (distinct : (live.map fun l => foldCase l.name).Nodup) (member : l ∈ live) :
    LiveColumn.find? live l.name = some l := by
  unfold LiveColumn.find?
  rcases found : live.find? fun other => sameIgnoringCase other.name l.name with _ | other
  · have missed := List.find?_eq_none.1 found l member
    rw [sameIgnoringCase_refl] at missed
    exact absurd rfl missed
  · have same := List.find?_some found
    rw [sameIgnoringCase_iff] at same
    rw [found, List.inj_on_of_nodup_map distinct (List.mem_of_find?_eq_some found) member same]

/-- Columns that were missing meet the descriptor once they are added, as their names differ beyond letter case. -/
theorem Table.missingFrom_added {missing : List Column} (found : t.missingFrom live = .ok missing)
    (distinct : (missing.map fun c => foldCase c.name).Nodup) :
    t.missingFrom (live ++ missing.map fun c => c.told 0) = .ok [] := by
  obtain ⟨same, -, all⟩ := missingFrom_eq_ok found
  refine missingFrom_of_suits ?_ fun c listed => ?_
  · have keyless : (missing.map fun c => c.told 0).filter (fun l => decide (0 < l.keyPosition)) = [] := by
      rw [List.filter_eq_nil_iff]
      intro l member
      obtain ⟨c, -, rfl⟩ := List.mem_map.1 member
      show ¬decide ((0 : Int64) < Int64.ofNat 0) = true
      decide
    rwa [sameKey, LiveColumn.keyNames, List.filter_append, keyless, List.append_nil]
  · rcases all c listed with ⟨l, here, goes⟩ | ⟨absent, nullable, member⟩
    · exact ⟨l, by rw [LiveColumn.find?_append, here, Option.some_or], goes⟩
    · refine ⟨c.told 0, ?_, conflictWith?_told c 0⟩
      rw [LiveColumn.find?_append, absent, Option.none_or]
      refine LiveColumn.find?_of_mem (l := c.told 0) ?_ (List.mem_map_of_mem member)
      rwa [List.map_map]

end Meeting

section Creation

variable {t : Table} {c : Column}

theorem Table.keyPlace_pos (distinct : (t.columnNames.map foldCase).Nodup) (listed : c ∈ t.columns) :
    0 < keyPlace t.definition (c.definition (t.keyColumns.length == 1)) ↔ c.key = true := by
  have member : c ∈ t.keyColumns ↔ c.key = true := by
    rw [keyColumns, List.mem_filter]
    exact ⟨fun both => both.2, fun key => ⟨listed, key⟩⟩
  unfold keyPlace
  rcases Nat.lt_trichotomy t.keyColumns.length 1 with none | one | several
  · have empty : t.keyColumns = [] := List.length_eq_zero_iff.1 (by omega)
    rw [← member, empty]
    simp [Column.definition, definition, empty]
  · have inline : (c.definition (t.keyColumns.length == 1)).key = c.key := by
      simp [Column.definition, one]
    have listless : t.definition.key = [] := by
      simp [definition, one]
    rw [inline, listless]
    cases c.key <;> simp
  · have apart : (c.definition (t.keyColumns.length == 1)).key = false := by
      rw [Column.definition, show (t.keyColumns.length == 1) = false by simp; omega]
      rfl
    have names : t.definition.key = t.keyNames := by
      simp [definition, several]
    rw [apart, names, if_neg (by decide), ← member]
    rcases place : t.keyNames.findIdx? (sameIgnoringCase (c.definition (t.keyColumns.length == 1)).name) with _ | i
    · rw [List.findIdx?_eq_none_iff] at place
      simp only [Nat.lt_irrefl, false_iff]
      intro key
      have missed := place c.name (List.mem_map_of_mem key)
      exact absurd ((sameIgnoringCase_refl c.name).symm.trans missed) (by decide)
    · obtain ⟨bound, same, -⟩ := List.findIdx?_eq_some_iff_getElem.1 place
      simp only [Nat.zero_lt_succ, true_iff]
      obtain ⟨own, key, named⟩ := List.mem_map.1 (List.getElem_mem bound)
      rw [← named, sameIgnoringCase_iff] at same
      rw [columnNames, List.map_map] at distinct
      have one := List.inj_on_of_nodup_map distinct listed (List.mem_filter.1 key).1 same
      rwa [one]

theorem ofNat_pos {n : Nat} (few : n < 9223372036854775808) : 0 < Int64.ofNat n ↔ 0 < n := by
  rw [Int64.lt_iff_toInt_lt, Int64.toInt_ofNat_of_lt few]
  exact Int.natCast_pos

theorem sameMembers_iff (a b : List String) : sameMembers a b = true ↔ ∀ name, name ∈ a ↔ name ∈ b := by
  simp only [sameMembers, Bool.and_eq_true, List.all_eq_true, List.contains_iff_mem]
  exact ⟨fun both name => ⟨both.1 name, both.2 name⟩, fun same => ⟨fun name => (same name).1, fun name => (same name).2⟩⟩

/-- A table that is created from a descriptor meets it. No table has more columns than a place in the key can tell. -/
theorem Table.meets_newTable (distinct : (t.columnNames.map foldCase).Nodup)
    (few : t.columns.length < 9223372036854775808) : t.Meets (newTable t.definition).columns := by
  have columns : (newTable t.definition).columns.map StoredColumn.told =
      t.columns.map fun c => c.told (keyPlace t.definition (c.definition (t.keyColumns.length == 1))) := by
    simp only [newTable, definition, List.map_map]
    rfl
  rw [Meets, columns]
  refine missingFrom_of_suits ?_ fun c listed => ?_
  · rw [sameKey, sameMembers_iff]
    intro name
    simp only [LiveColumn.keyNames, keyNames, List.mem_map, List.mem_filter, decide_eq_true_eq, keyColumns]
    constructor
    · rintro ⟨_, ⟨⟨c, listed, rfl⟩, inKey⟩, rfl⟩
      have place := keyPlace_le t (c.definition (t.keyColumns.length == 1)) (List.mem_map_of_mem listed)
      have key := (ofNat_pos (Nat.lt_of_le_of_lt place few)).1 inKey
      exact ⟨c.name, ⟨c, ⟨listed, (keyPlace_pos distinct listed).1 key⟩, rfl⟩, rfl⟩
    · rintro ⟨_, ⟨c, ⟨listed, key⟩, rfl⟩, rfl⟩
      have place := keyPlace_le t (c.definition (t.keyColumns.length == 1)) (List.mem_map_of_mem listed)
      have inKey := (ofNat_pos (Nat.lt_of_le_of_lt place few)).2 ((keyPlace_pos distinct listed).2 key)
      exact ⟨_, ⟨⟨c, listed, rfl⟩, inKey⟩, rfl⟩
  · refine ⟨_, ?_, conflictWith?_told c (keyPlace t.definition (c.definition (t.keyColumns.length == 1)))⟩
    refine LiveColumn.find?_of_mem (l := c.told _) ?_ (List.mem_map_of_mem listed)
    rw [List.map_map]
    rw [columnNames, List.map_map] at distinct
    exact distinct

end Creation

end RecordMapper
