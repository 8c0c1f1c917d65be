import RecordMapper.Proofs.Query.ObjectGraph
import RecordMapper.Proofs.Schema.Alignment
import RecordMapper.Proofs.Unit.Ensuring

namespace RecordMapper

open RecordMapper.Store RecordMapper.Text

section Contents

variable {c : Content} {name : String}

theorem table?_createTable_other {t : Sql.TableDefinition} (other : sameIgnoringCase t.name name = false) :
    (createTable c t).table? name = c.table? name := by
  have apart : (newTable t).name = t.name := rfl
  rw [Content.table?, createTable, List.find?_append, List.find?_cons_of_neg (by rw [apart, other]; decide),
    List.find?_nil, Option.or_none, Content.table?]

theorem table?_replace_other {own : StoredTable} (other : sameIgnoringCase own.name name = false) :
    (c.replace own).table? name = c.table? name := by
  rw [Content.table?_replace]
  rcases found : c.table? name with _ | t
  · rfl
  · have apart : ¬sameIgnoringCase t.name own.name = true := by
      intro same
      have named := (sameIgnoringCase_iff _ _).1 (Content.table?_mem found).2
      rw [(sameIgnoringCase_iff _ _).1 same] at named
      exact absurd (((sameIgnoringCase_iff _ _).2 named).symm.trans other) (by decide)
    rw [Option.map_some, if_neg apart]

theorem table?_of_exists (distinct : c.Distinct) (present : tableExists c name = true) :
    ∃ own, c.table? name = some own ∧ own.name = name := by
  obtain ⟨t, member, named⟩ := List.any_eq_true.1 present
  rw [beq_iff_eq] at named
  rcases found : c.table? name with _ | own
  · have missed := List.find?_eq_none.1 found t member
    rw [named, sameIgnoringCase_refl] at missed
    exact absurd rfl missed
  · obtain ⟨known, same⟩ := Content.table?_mem found
    rw [sameIgnoringCase_iff, ← named] at same
    exact ⟨own, rfl, (List.inj_on_of_nodup_map distinct known member same) ▸ named⟩

theorem exists_of_table? {own : StoredTable} (found : c.table? name = some own) (named : own.name = name) :
    tableExists c name = true :=
  List.any_eq_true.2 ⟨own, (Content.table?_mem found).1, beq_iff_eq.2 named⟩

theorem Table.inLine_createTable {t : Table} {mark : Sql.Mark} (checked : checkCreate c t.definition mark = .ok ())
    (few : t.columns.length < 9223372036854775808) : t.InLine (createTable c t.definition) := by
  have unrepeated := (checkCreate_eq_ok checked).2
  rw [definition_names] at unrepeated
  exact ⟨_, table?_createTable checked, rfl, t.meets_newTable (nodup_of_repeated? unrepeated).1 few⟩

end Contents

section Reach

namespace ShapeGraph

variable {g : ShapeGraph}

def Elsewhere (tables : List (Except Failure Table)) (name : String) : Prop :=
  ∀ t, .ok t ∈ tables → sameIgnoringCase t.name name = false

/-- Tables that have descriptors, not too many columns, and names that differ beyond letter case. -/
inductive Apart : List (Except Failure Table) → Prop where
  | nil : Apart []
  | failed {failure : Failure} {tables : List (Except Failure Table)} (apart : Apart tables) :
      Apart (.error failure :: tables)
  | cons {t : Table} {tables : List (Except Failure Table)} (few : t.columns.length < 9223372036854775808)
      (other : Elsewhere tables t.name) (apart : Apart tables) : Apart (.ok t :: tables)

theorem name_of_described {i : Fin g.size} {d : Descriptor g.size} (described : (g.shape i).descriptor = .ok d) :
    d.table.name = (g.shape i).table :=
  (Descriptor.resolve_eq_ok described).1

def Differ (tables : List (Except Failure Table)) : Prop :=
  ∀ t t' : Table, .ok t ∈ tables → .ok t' ∈ tables → foldCase t.name = foldCase t'.name → t.name = t'.name

theorem Differ.tail {entry : Except Failure Table} {tables : List (Except Failure Table)}
    (differ : Differ (entry :: tables)) : Differ tables :=
  fun t t' one two => differ t t' (List.mem_cons_of_mem _ one) (List.mem_cons_of_mem _ two)

theorem Differ.elsewhere {t : Table} {tables : List (Except Failure Table)} (differ : Differ (.ok t :: tables))
    (other : ∀ t' : Table, .ok t' ∈ tables → t'.name ≠ t.name) : Elsewhere tables t.name := by
  intro t' member
  rw [Bool.eq_false_iff]
  intro same
  exact other t' member (differ t' t (List.mem_cons_of_mem _ member) List.mem_cons_self
    ((sameIgnoringCase_iff _ _).1 same))

theorem reachFrom_apart (unmet : List String) (pending : List (Fin g.size)) :
    (∀ t : Table, .ok t ∈ g.reachFrom unmet pending → t.name ∈ unmet) ∧
      (Differ (g.reachFrom unmet pending) →
        (∀ t : Table, .ok t ∈ g.reachFrom unmet pending → t.columns.length < 9223372036854775808) →
        Apart (g.reachFrom unmet pending)) := by
  induction unmet, pending using reachFrom.induct (g := g) with
  | case1 unmet =>
    rw [reachFrom]
    exact ⟨fun t none => (nomatch none), fun _ _ => .nil⟩
  | case2 unmet child later failure described =>
    rw [reachFrom, described]
    exact ⟨fun t none => by simp at none, fun _ _ => .failed .nil⟩
  | case3 unmet child later d described member ih =>
    rw [reachFrom, described]
    simp only [dif_pos member]
    have own : d.table.name = (g.shape child).table := name_of_described described
    obtain ⟨left, apart⟩ := ih
    refine ⟨fun t listed => ?_, fun differ few => ?_⟩
    · rcases List.mem_cons.1 listed with same | listed
      · rw [Except.ok.inj same, own]
        exact member
      · exact List.mem_of_mem_filter (left t listed)
    · refine .cons (few d.table List.mem_cons_self) ?_
        (apart differ.tail fun t member => few t (List.mem_cons_of_mem _ member))
      refine differ.elsewhere fun t listed same => ?_
      have other := left t listed
      simp [without, same, own] at other
  | case4 unmet child later d described met ih =>
    rw [reachFrom, described]
    simp only [dif_neg met]
    exact ih

theorem apart_reach {d : Descriptor g.size} (differ : Differ (g.reach d))
    (few : ∀ t : Table, .ok t ∈ g.reach d → t.columns.length < 9223372036854775808) : Apart (g.reach d) := by
  obtain ⟨unmet, apart⟩ := g.reachFrom_apart (without d.table.name g.tableNames) (d.relations.map Relation.child)
  refine .cons (few d.table List.mem_cons_self) ?_ (apart differ.tail fun t member => few t (List.mem_cons_of_mem _ member))
  refine differ.elsewhere fun t member same => ?_
  have left := unmet t member
  simp [without, same] at left

end ShapeGraph

end Reach

namespace Database

open ShapeGraph

variable {α β : Type} {enforces : Bool}

section Aligning

variable {t : Table} {policy : Policy}

def Aligned (t : Table) (c c' : Content) : Prop :=
  t.InLine c' ∧ ∀ name, sameIgnoringCase t.name name = false → c'.table? name = c.table? name

theorem ensures_define {command : Sql.Command} (plain : isControl command = false) :
    Ensures enforces (define command) fun c _ c' => (writes c command = false ∧ c' = c) ∨
      checkCommand c enforces command = .ok () ∧ ∃ effect, effectOf c enforces command = .ok effect ∧
        c' = effect.content := by
  unfold define
  refine ((ensures_execute plain).bind fun _ => ensures_pure ()).mono fun c _ c' post => ?_
  obtain ⟨n, _, executed, -, rfl⟩ := post
  exact executed

theorem ensures_created : Ensures enforces (define t.create) fun c _ c' =>
    (∃ mark, checkCreate c t.definition mark = .ok ()) ∧ c' = createTable c t.definition := by
  refine (ensures_define rfl).mono fun c _ c' post => ?_
  rcases post with ⟨none, -⟩ | ⟨checked, effect, done, rfl⟩
  · cases none
  · cases done
    simp only [Table.create, Sql.Command.create, checkCommand, bind_eq_ok] at checked
    obtain ⟨_, -, checked⟩ := checked
    exact ⟨⟨_, checked⟩, rfl⟩

theorem ensures_create (few : t.columns.length < 9223372036854775808) :
    Ensures enforces (define t.create) fun c _ c' => Aligned t c c' := by
  refine ensures_created.mono fun c _ c' post => ?_
  obtain ⟨⟨_, checked⟩, rfl⟩ := post
  exact ⟨t.inLine_createTable checked few, fun name other => table?_createTable_other other⟩

theorem ensures_drop : Ensures enforces (define (.dropTable t.name)) fun c _ c' =>
    ∀ name, sameIgnoringCase t.name name = false → c'.table? name = c.table? name := by
  refine (ensures_define rfl).mono fun c _ c' post name other => ?_
  rcases post with ⟨-, rfl⟩ | ⟨-, effect, done, rfl⟩
  · rfl
  · rcases dropEffect_content done with same | same <;> rw [same]
    exact table?_dropTable c ((sameIgnoringCase_comm _ _).trans other)

theorem ensures_recreate (few : t.columns.length < 9223372036854775808) :
    Ensures enforces (recreate t) fun c _ c' => Aligned t c c' := by
  unfold recreate
  refine (ensures_drop.bind fun _ => (ensures_create few).bind fun _ => ensures_note _).mono fun c _ c' post => ?_
  obtain ⟨_, dropped, apart, _, created, aligned, rfl⟩ := post
  exact ⟨aligned.1, fun name other => (aligned.2 name other).trans (apart name other)⟩

theorem ensures_createAbsent (few : t.columns.length < 9223372036854775808) :
    Ensures enforces (createAbsent t) fun c _ c' => Aligned t c c' := by
  unfold createAbsent
  refine ((ensures_create few).bind fun _ => ensures_note _).mono fun c _ c' post => ?_
  obtain ⟨_, created, aligned, rfl⟩ := post
  exact aligned

def told (c : Content) (name : String) : List LiveColumn :=
  ((c.table? name).map fun own => own.columns.map StoredColumn.told).getD []

theorem readLive_tableInfo (c : Content) (name : String) :
    readLive name (tableInfo c name) = .ok (told c name) := by
  unfold tableInfo told
  cases c.table? name with
  | none => rfl
  | some own => exact readLive_columns name own.columns

theorem ensures_liveColumns (name : String) :
    Ensures enforces (liveColumns name) fun c live c' => live = told c name ∧ c' = c := by
  unfold liveColumns query Engine.query
  have queried : Ensures enforces (onEngine (Engine.fold (Sql.Command.tableInfo name).statement
      (fun rows row => .ok (rows ++ [row])) [])) _ := ensures_fold _ _ rfl fun _ => rfl
  refine (queried.bind fun rows => ensures_known _).mono fun c live c' post => ?_
  obtain ⟨rows, _, ⟨read, rfl⟩, known, rfl⟩ := post
  rw [rowsOf, Engine.foldlM_collected] at read
  rw [← Except.ok.inj read, List.nil_append, readLive_tableInfo] at known
  exact ⟨(Except.ok.inj known).symm, rfl⟩

theorem ensures_tableExists (name : String) :
    Ensures enforces (Database.tableExists name) fun c present c' => present = Store.tableExists c name ∧ c' = c := by
  unfold Database.tableExists
  have counted : Ensures enforces (scalar (Sql.Command.tableExists name).statement) _ :=
    ensures_scalar (m := fun c => if Store.tableExists c name then 1 else 0) rfl (fun _ => rfl) fun _ => rfl
  refine (counted.bind fun n => ensures_pure _).mono fun c present c' post => ?_
  obtain ⟨n, _, ⟨rfl, rfl⟩, rfl, rfl⟩ := post
  refine ⟨?_, rfl⟩
  cases Store.tableExists c' name <;> decide

def added (column : Column) : StoredColumn :=
  ⟨column.name, keptType column.dataType.declared, !column.nullable, 0, none⟩

theorem ensures_addColumn (column : Column) :
    Ensures enforces (define (t.addColumn column)) fun c _ c' => ∃ own, c.table? t.name = some own ∧
      own.columnIndex? column.name = none ∧ c' = c.replace (own.widened (added column)) := by
  refine (ensures_define rfl).mono fun c _ c' post => ?_
  rcases post with ⟨none, -⟩ | ⟨checked, effect, done, rfl⟩
  · cases none
  · cases done
    simp only [Table.addColumn, checkCommand, bind_eq_ok] at checked
    obtain ⟨_, -, own, found, checked⟩ := checked
    rcases present : c.table? t.name with _ | other
    · simp [tableOf, present] at found
    · obtain rfl : other = own := by simpa [tableOf, present] using found
      rcases index : other.columnIndex? (column.definition false).name with _ | i
      · refine ⟨other, rfl, index, ?_⟩
        simp only [Store.addColumn, present]
        rfl
      · simp [index] at checked

theorem columnIndex?_widened {own : StoredTable} {column : StoredColumn} {name : String}
    (absent : (own.widened column).columnIndex? name = none) :
    own.columnIndex? name = none ∧ sameIgnoringCase column.name name = false := by
  rw [StoredTable.columnIndex?, StoredTable.widened, List.findIdx?_eq_none_iff] at absent
  refine ⟨?_, absent column (List.mem_append_right _ (List.mem_singleton_self column))⟩
  rw [StoredTable.columnIndex?, List.findIdx?_eq_none_iff]
  exact fun other member => absent other (List.mem_append_left _ member)

/-- What adding columns one after the other says of the content before and after. -/
structure Widened (t : Table) (missing : List Column) (own : StoredTable) (c' : Content) : Prop where
  distinct : (missing.map fun column => foldCase column.name).Nodup
  absent : ∀ column ∈ missing, own.columnIndex? column.name = none
  stands : ∃ own', c'.table? t.name = some own' ∧ own'.name = own.name ∧
    own'.columns.map StoredColumn.told = own.columns.map StoredColumn.told ++ missing.map fun column => column.told 0

theorem ensures_addColumns (missing : List Column) :
    Ensures enforces (missing.forM fun column => define (t.addColumn column)) fun c _ c' =>
      (∀ own, c.table? t.name = some own → Widened t missing own c') ∧
      ∀ name, sameIgnoringCase t.name name = false → c'.table? name = c.table? name := by
  induction missing with
  | nil =>
    refine (ensures_pure _).mono fun c _ c' post => ?_
    obtain ⟨-, rfl⟩ := post
    refine ⟨fun own found => ⟨List.nodup_nil, by simp, own, found, rfl, ?_⟩, fun name _ => rfl⟩
    rw [List.map_nil, List.append_nil]
  | cons column missing ih =>
    refine Ensures.mono ((ensures_addColumn column).bind fun _ => ih) fun c _ c' post => ?_
    obtain ⟨_, middle, ⟨own, found, absent, rfl⟩, later, others⟩ := post
    have named : sameIgnoringCase own.name t.name = true := (Content.table?_mem found).2
    have widened : (c.replace (own.widened (added column))).table? t.name = some (own.widened (added column)) := by
      rw [Content.table?_replace, found, Option.map_some, if_pos]
      exact sameIgnoringCase_refl own.name
    obtain ⟨distinct, missed, own', found', name', columns'⟩ := later _ widened
    refine ⟨fun other known => ?_, fun name other => ?_⟩
    · obtain rfl := Option.some.inj (found.symm.trans known)
      refine ⟨?_, ?_, own', found', name', ?_⟩
      · rw [List.map_cons, List.nodup_cons]
        refine ⟨fun member => ?_, distinct⟩
        obtain ⟨other, later, same⟩ := List.mem_map.1 member
        have apart := (columnIndex?_widened (missed other later)).2
        exact absurd (((sameIgnoringCase_iff _ _).2 same.symm).symm.trans apart) (by decide)
      · intro other member
        rcases List.mem_cons.1 member with rfl | later
        · exact absent
        · exact (columnIndex?_widened (missed other later)).1
      · rw [columns', StoredTable.widened, List.map_append, List.map_cons, List.append_assoc]
        rfl
    · rw [others name other]
      refine table?_replace_other ?_
      rw [sameIgnoringCase] at other ⊢
      rw [show (own.widened (added column)).name = own.name from rfl, (sameIgnoringCase_iff _ _).1 named]
      exact other

theorem ensures_addMissing : Ensures enforces (addMissing t) fun c _ c' =>
    ∀ own, c.table? t.name = some own → own.name = t.name → Aligned t c c' := by
  unfold addMissing
  have noted (missing : List Column) : Ensures enforces (if !missing.isEmpty then
      noteSchema ("reconciled table " ++ t.name ++ ": added " ++ joined ", " (missing.map Column.name))
    else pure ()) fun c _ c' => c' = c := by
    split
    · exact ensures_note _
    · exact (ensures_pure ()).mono fun _ _ _ post => post.2
  refine ((ensures_liveColumns t.name).bind fun live => (ensures_known _).bind fun missing =>
    (ensures_addColumns missing).bind fun _ => noted missing).mono fun c _ c' post => ?_
  obtain ⟨live, _, ⟨rfl, rfl⟩, missing, _, ⟨sought, rfl⟩, _, _, ⟨stands, others⟩, rfl⟩ := post
  rintro own found named
  obtain ⟨distinct, -, own', found', name', columns'⟩ := stands own found
  rw [mapError_eq_ok, told, found] at sought
  refine ⟨⟨own', found', name'.trans named, ?_⟩, others⟩
  rw [Table.Meets, columns']
  exact Table.missingFrom_added sought distinct

theorem contains_drop (policy : Policy) : policy.contains .drop = policy.dropTable := by
  obtain ⟨drop, reconcile, shallow⟩ := policy
  cases drop <;> cases reconcile <;> cases shallow <;> rfl

theorem contains_reconcile (policy : Policy) : policy.contains .reconcile = policy.reconcileTable := by
  obtain ⟨drop, reconcile, shallow⟩ := policy
  cases drop <;> cases reconcile <;> cases shallow <;> rfl

theorem contains_shallow (policy : Policy) : policy.contains .shallowOnly = policy.shallow := by
  obtain ⟨drop, reconcile, shallow⟩ := policy
  cases drop <;> cases reconcile <;> cases shallow <;> rfl

/-- Under a policy that drops or reconciles, a table is in line once that has succeeded. -/
theorem ensures_align (few : t.columns.length < 9223372036854775808)
    (brings : policy.dropTable = true ∨ policy.reconcileTable = true) :
    Ensures enforces (align policy t) fun c _ c' => Aligned t c c' := by
  unfold align
  rw [contains_drop, contains_reconcile]
  split
  · exact ensures_recreate few
  · rename_i kept
    rw [if_pos (brings.resolve_left kept)]
    have chosen : ∀ present : Bool, Ensures enforces
        (if (!present) = true then createAbsent t else addMissing t) fun c _ c' =>
          (present = true → ∃ own, c.table? t.name = some own ∧ own.name = t.name) → Aligned t c c' := by
      intro present
      cases present with
      | false => exact (ensures_createAbsent few).mono fun _ _ _ post _ => post
      | true =>
        refine ensures_addMissing.mono fun c _ c' post finds => ?_
        obtain ⟨own, found, named⟩ := finds rfl
        exact post own found named
    refine ((ensures_tableExists t.name).distinct.bind chosen).mono fun c _ c' post => ?_
    obtain ⟨present, _, ⟨distinct, rfl, rfl⟩, aligned⟩ := post
    exact aligned fun here => table?_of_exists distinct here

theorem ensures_alignAll (brings : policy.dropTable = true ∨ policy.reconcileTable = true)
    {tables : List (Except Failure Table)} (apart : Apart tables) :
    Ensures enforces (alignAll policy tables) fun c _ c' =>
      (∀ entry ∈ tables, ∃ t : Table, entry = .ok t ∧ t.InLine c') ∧
        ∀ name, Elsewhere tables name → c'.table? name = c.table? name := by
  induction apart with
  | nil => exact (ensures_pure _).mono fun c _ c' post => ⟨by simp, fun name _ => by rw [post.2]⟩
  | failed apart ih =>
    rename_i failure tables
    intro db a after sound done
    have first : alignAll policy (.error failure :: tables) =
      (known (.error failure) >>= align policy) >>= fun _ => alignAll policy tables := rfl
    rw [first, run_bind, run_bind, run_known] at done
    cases done
  | cons few other apart ih =>
    rename_i t tables
    have first : alignAll policy (.ok t :: tables) = align policy t >>= fun _ => alignAll policy tables := rfl
    rw [first]
    refine ((ensures_align few brings).bind fun _ => ih).mono fun c _ c' post => ?_
    obtain ⟨_, middle, ⟨⟨own, found, named, meets⟩, others⟩, aligned, kept⟩ := post
    refine ⟨fun entry member => ?_, fun name elsewhere => ?_⟩
    · rcases List.mem_cons.1 member with rfl | later
      · exact ⟨t, rfl, own, (kept t.name other).trans found, named, meets⟩
      · exact aligned entry later
    · rw [kept name fun t' later => elsewhere t' (List.mem_cons_of_mem _ later)]
      exact others name (elsewhere t List.mem_cons_self)

end Aligning

section Reading

variable {t : Table} {policy : Policy} {name : String} {db middle after : Database}

theorem tableExists_reads (name : String) (db : Database) :
    ∃ after, (Database.tableExists name).run db = (.ok (Store.tableExists db.engine.store.content name), after) ∧
      Reads db after := by
  have text : (Sql.Command.tableExists name).text =
      "SELECT COUNT(*) FROM sqlite_master WHERE type = 'table' AND name = ?" := rfl
  have ready := Engine.ready_of_text text (by decide +kernel) (show _ = 1 by decide +kernel)
  obtain ⟨engine, ran, reads⟩ := query_reads db (c := .tableExists name) rfl (fun _ => rfl) rfl ready.1
    ready.2 (fun _ => rfl) (fun _ => rfl) rfl
  refine ⟨_, ?_, reads⟩
  have counted : (scalar (Sql.Command.tableExists name).statement).run db =
      (.ok (Int64.ofNat (if Store.tableExists db.engine.store.content name then 1 else 0)), { db with engine }) := by
    rw [scalar, run_onEngine, Engine.scalar, run_bind, ran]
    rfl
  rw [Database.tableExists, run_bind, counted]
  cases Store.tableExists db.engine.store.content name <;> rfl

theorem liveColumns_reads (name : String) (db : Database) :
    ∃ after, (liveColumns name).run db = (.ok (told db.engine.store.content name), after) ∧ Reads db after := by
  have text : (Sql.Command.tableInfo name).text =
      "SELECT name, type, \"notnull\", pk FROM pragma_table_info(?) ORDER BY cid" := rfl
  have ready := Engine.ready_of_text text (by decide +kernel) (show _ = 1 by decide +kernel)
  obtain ⟨engine, ran, reads⟩ := query_reads db (c := .tableInfo name) rfl (fun _ => rfl) rfl ready.1
    ready.2 (fun _ => rfl) (fun _ => rfl) rfl
  refine ⟨_, ?_, reads⟩
  rw [liveColumns, run_bind, query, run_onEngine, ran]
  simp only []
  rw [run_known, readLive_tableInfo]

/-- Nothing is done to a table that is in line. -/
theorem align_reads (keeps : policy.dropTable = false) (brings : policy.reconcileTable = true)
    (aligned : t.InLine db.engine.store.content) :
    ∃ after, (align policy t).run db = (.ok (), after) ∧ Reads db after := by
  obtain ⟨own, found, named, meets⟩ := aligned
  obtain ⟨first, exists', reads⟩ := tableExists_reads t.name db
  obtain ⟨second, live, reads'⟩ := liveColumns_reads t.name first
  refine ⟨second, ?_, reads.trans reads'⟩
  rw [exists_of_table? found named] at exists'
  have none : t.missingFrom (told first.engine.store.content t.name) = .ok [] := by
    rw [reads.content, told, found]
    exact meets
  unfold align
  rw [contains_drop, contains_reconcile, keeps, brings]
  simp only [Bool.false_eq_true, if_false, if_true, run_bind, exists', Bool.not_true]
  rw [addMissing, run_bind, live]
  simp only []
  rw [run_bind, run_known, none]
  rfl

theorem alignAll_reads (keeps : policy.dropTable = false) (brings : policy.reconcileTable = true)
    {tables : List (Except Failure Table)}
    (aligned : ∀ entry ∈ tables, ∃ t : Table, entry = .ok t ∧ t.InLine db.engine.store.content) :
    ∃ after, (alignAll policy tables).run db = (.ok (), after) ∧ Reads db after := by
  induction tables generalizing db with
  | nil => exact ⟨db, rfl, .refl db⟩
  | cons entry tables ih =>
    obtain ⟨t, rfl, here⟩ := aligned entry List.mem_cons_self
    obtain ⟨middle, one, reads⟩ := align_reads keeps brings here
    have rest : ∀ entry ∈ tables, ∃ t : Table, entry = .ok t ∧ t.InLine middle.engine.store.content := by
      intro entry later
      rw [reads.content]
      exact aligned entry (List.mem_cons_of_mem _ later)
    obtain ⟨after, two, reads'⟩ := ih rest
    have first : alignAll policy (.ok t :: tables) = align policy t >>= fun _ => alignAll policy tables := rfl
    refine ⟨after, ?_, reads.trans reads'⟩
    rw [first, run_bind, one]
    exact two

end Reading

section Reaching

variable {g : ShapeGraph} {policy : Policy} {db : Database}

def reached (g : ShapeGraph) (policy : Policy) (d : Descriptor g.size) : List (Except Failure Table) :=
  if policy.contains .shallowOnly then [.ok d.table] else g.reach d

theorem apart_reached (d : Descriptor g.size)
    (differ : Differ (g.reach d))
    (few : ∀ t : Table, .ok t ∈ g.reach d → t.columns.length < 9223372036854775808) : Apart (reached g policy d) := by
  have own : .ok d.table ∈ g.reach d := List.mem_cons_self
  unfold reached
  split
  · exact .cons (few _ own) (fun t none => nomatch none) .nil
  · exact ShapeGraph.apart_reach differ few

/-- What reconciling brings in line stays so: a policy that drops or reconciles is followed by one that only reconciles,
    which succeeds, defines nothing, and leaves what is seen and what the file holds as it was. -/
theorem reconcile_idempotent (g : ShapeGraph) (policy : Policy) (d : Descriptor g.size)
    (brings : policy.dropTable = true ∨ policy.reconcileTable = true)
    (differ : Differ (g.reach d))
    (few : ∀ t : Table, .ok t ∈ g.reach d → t.columns.length < 9223372036854775808) (db after : Database)
    (sound : Sound enforces db) (done : (reconcile g policy d).run db = (.ok (), after)) :
    ∃ again, (reconcile g ⟨false, true, policy.shallow⟩ d).run after = (.ok (), again) ∧
      again.engine.store.content = after.engine.store.content ∧
      again.engine.store.file.content = after.engine.store.file.content ∧
      ∃ events : List Event, again.engine.log = events.foldl Log.record after.engine.log ∧
        ∀ e ∈ events, e.category ≠ .ddl := by
  obtain ⟨kept, ⟨aligned, -⟩, ready⟩ := atomically_eq_ok (ensures_alignAll brings (apart_reached d differ few)) sound done
  have same : reached g ⟨false, true, policy.shallow⟩ d = reached g policy d := by
    simp only [reached, contains_shallow]
  have reads : ∀ before : Database, before.engine.store.content = after.engine.store.content →
      ∃ last, (alignAll ⟨false, true, policy.shallow⟩ (reached g policy d)).run before = (.ok (), last) ∧
        Reads before last :=
    fun before unchanged => alignAll_reads rfl rfl fun entry member => unchanged ▸ aligned entry member
  obtain ⟨again, ran, -, file, content, log⟩ := atomically_reads kept ready reads
  refine ⟨again, ?_, content, file, log⟩
  rw [← same] at ran
  exact ran

end Reaching

end Database

section Shelf

theorem shelf_reach : shelf.reach ⟨artistTable, [albums]⟩ = [.ok artistTable, .ok albumTable] := by
  have described : (shelf.shape albums.child).descriptor = .ok ⟨albumTable, []⟩ := rfl
  have name : (shelf.shape albums.child).table = "album" := rfl
  have unmet : "album" ∈ ShapeGraph.without artistTable.name shelf.tableNames := by decide
  simp [ShapeGraph.reach, ShapeGraph.reachFrom, described, name, unmet]

theorem shelf_sound : Database.Sound true shelfDatabase := by
  have distinct : (shelfContent.tables.map fun t => foldCase t.name).Nodup := by decide
  exact ⟨rfl, distinct, fun _ _ none => (nomatch none), fun _ => rfl⟩

theorem recreate_shelf : ∃ after,
    (Database.reconcile shelf .drop ⟨artistTable, [albums]⟩).run shelfDatabase = (.ok (), after) := by
  have shallow : Policy.drop.contains .shallowOnly = false := rfl
  have succeeds : ((Database.atomically (Database.alignAll .drop [.ok artistTable, .ok albumTable])).run
      shelfDatabase).1.isOk = true := by
    decide +kernel
  rw [Database.reconcile, shallow, if_neg (by decide), shelf_reach]
  rcases ran : (Database.atomically (Database.alignAll .drop [.ok artistTable, .ok albumTable])).run shelfDatabase
    with ⟨failure | ⟨⟩, after⟩
  · rw [ran] at succeeds
    cases succeeds
  · exact ⟨after, rfl⟩

theorem reconcile_idempotent_recreated : ShapeGraph.Differ (shelf.reach ⟨artistTable, [albums]⟩) ∧
    (∀ t : Table, .ok t ∈ shelf.reach ⟨artistTable, [albums]⟩ → t.columns.length < 9223372036854775808) ∧
    Database.Sound true shelfDatabase ∧ ∃ after again,
      (Database.reconcile shelf .drop ⟨artistTable, [albums]⟩).run shelfDatabase = (.ok (), after) ∧
      (Database.reconcile shelf .reconcile ⟨artistTable, [albums]⟩).run after = (.ok (), again) ∧
      again.engine.store.content = after.engine.store.content := by
  have differ : ShapeGraph.Differ (shelf.reach ⟨artistTable, [albums]⟩) := by
    rw [shelf_reach]
    intro t t' one two same
    simp only [List.mem_cons, Except.ok.injEq, List.not_mem_nil, or_false] at one two
    rcases one with rfl | rfl <;> rcases two with rfl | rfl <;> first | rfl | exact absurd same (by decide)
  have few : ∀ t : Table, .ok t ∈ shelf.reach ⟨artistTable, [albums]⟩ → t.columns.length < 9223372036854775808 := by
    rw [shelf_reach]
    intro t member
    simp only [List.mem_cons, Except.ok.injEq, List.not_mem_nil, or_false] at member
    rcases member with rfl | rfl <;> decide
  obtain ⟨after, done⟩ := recreate_shelf
  obtain ⟨again, ran, content, -⟩ :=
    Database.reconcile_idempotent shelf .drop ⟨artistTable, [albums]⟩ (.inl rfl) differ few shelfDatabase after
      shelf_sound done
  exact ⟨differ, few, shelf_sound, after, again, done, ran, content⟩

end Shelf

end RecordMapper
