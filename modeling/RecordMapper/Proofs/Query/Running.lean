import Mathlib.Algebra.Group.Nat.Defs
import RecordMapper.Proofs.Hydration.Grouping
import RecordMapper.Proofs.Unit.Connection
import RecordMapper.Query

namespace RecordMapper

open RecordMapper.Store

theorem Store.Outline.Ended.rows_eq {o after : Outline} {command : Sql.Command} {rows : Rows}
    (reads : ∀ c, writes c command = false) (ended : o.Ended command (.ok rows) after) :
    rows = rowsOf o.content command := by
  cases ended with
  | read => rfl
  | written writing =>
    rw [reads] at writing
    cases writing

theorem Store.Outline.Ended.touches_nothing {o after : Outline} {command : Sql.Command}
    {outcome : Except FaultCause Rows} (reads : ∀ c, writes c command = false) (ended : o.Ended command outcome after) :
    o.Untouched after := by
  cases ended with
  | refused touched => exact touched
  | read _ touched => exact touched
  | written writing =>
    rw [reads] at writing
    cases writing

namespace Engine

variable {β : Type}

theorem foldlM_takeRow (take : β → List Value → Except Failure β) (rows : List (List Value)) (start : β) :
    (given rows).foldlM (takeRow take) start = rows.foldlM take start := by
  rw [given, List.foldlM_map]
  rfl

theorem fold_eq_ok {command : Sql.Command} {take : β → List Value → Except Failure β} {start last : β} {engine : Engine}
    (plain : isControl command = false) (reads : ∀ c, writes c command = false)
    (done : ((fold command.statement take start).run engine).1 = .ok last) :
    (rowsOf engine.store.content command).foldlM (takeRow take) start = .ok last := by
  unfold fold at done
  rcases statement_cases (isPlain_statement plain).inside _ engine with
    ⟨failure, after, failed, -⟩ | ⟨asked, rows, after, asks, ended, goes⟩
  · rw [failed] at done
    cases done
  · rw [goes] at done
    obtain rfl := eq_of_asked asks
    have all := ended.rows_eq reads
    rw [outline, ← State.content_eq] at all
    rw [← all]
    rcases taken : rows.foldlM (takeRow take) start with failure | result
    · rw [taken] at done
      cases done
    · rw [taken] at done
      have value : (Except.ok result : Except Failure β) = .ok last := done
      rw [value]

/-- A command that only reads, has as many parameters as places, suits the content and can be said of its rows. -/
structure Readable (engine : Engine) (command : Sql.Command) : Prop where
  plain : isControl command = false
  reads : ∀ c, writes c command = false
  asked : command.statement.asked = .ok command
  counted : command.statement.placeholders = command.statement.params.length
  loaded : engine.store.connection.loaded = some engine.store.content
  checked : checkCommand engine.store.content engine.store.connection.enforces command = .ok ()
  examined : examine engine.store.content command = .ok ()

theorem ready_of_text {command : Sql.Command} {text : String} (same : command.text = text)
    (whole : Sql.cutToken? text = none) (places : Sql.placeholderCount text = command.params.length) :
    command.statement.asked = .ok command ∧
      command.statement.placeholders = command.statement.params.length := by
  subst same
  refine ⟨?_, places⟩
  rw [Sql.Command.statement, whole]

/-- A command that suits the schema as it is loaded is ready. -/
theorem prepare_ready {engine : Engine} {command : Sql.Command}
    (loaded : engine.store.connection.loaded = some engine.store.content)
    (checked : checkCommand engine.store.content engine.store.connection.enforces command = .ok ()) (sql : String) :
    engine.store.prepare sql command = (.ok (), engine.store.keep sql) := by
  unfold State.prepare State.check
  rw [loaded]
  simp only [checked]
  split <;> rfl

theorem execute_runs {engine : Engine} {command : Sql.Command} {effect : Effect} {n : Nat}
    (plain : isControl command = false) (writing : writes engine.store.content command = true)
    (asked : command.statement.asked = .ok command)
    (counted : command.statement.placeholders = command.statement.params.length)
    (loaded : engine.store.connection.loaded = some engine.store.content)
    (checked : checkCommand engine.store.content engine.store.connection.enforces command = .ok ())
    (examined : examine engine.store.content command = .ok ())
    (done : effectOf engine.store.content engine.store.connection.enforces command = .ok effect)
    (changes : effect.counted = some n) (free : engine.store.lockedByOther = false)
    (current : engine.store.isOutdated = false) (met : engine.store.breaksLate effect.content = false) :
    ((execute command.statement).run engine).1 = .ok n := by
  have succeeds : ((engine.store.keep command.statement.sql).run command.statement.sql command).1 = .ok [] :=
    State.run_succeeds _ plain writing checked examined done free current met
  obtain ⟨effect', done', told⟩ := (engine.store.keep command.statement.sql).run_changes plain writing succeeds
  obtain rfl := Except.ok.inj (done.symm.trans done')
  have told := told n changes
  have params : checkParams command.statement = pure () := if_pos counted
  unfold execute prepare
  rcases ran : (engine.store.keep command.statement.sql).run command.statement.sql command with ⟨outcome, after⟩
  rw [ran] at succeeds told
  obtain rfl : outcome = .ok [] := succeeds
  simp only [run_bind, run_acting, asked, Except.mapError, prepare_ready loaded checked, params, run_pure, run, ran]
  exact congrArg Except.ok told

theorem fold_ready {command : Sql.Command} {take : β → List Value → Except Failure β} {start last : β}
    {engine : Engine} {store : Store.State} (plain : isControl command = false) (reads : ∀ c, writes c command = false)
    (asked : command.statement.asked = .ok command)
    (counted : command.statement.placeholders = command.statement.params.length)
    (checked : checkCommand engine.store.content engine.store.connection.enforces command = .ok ())
    (examined : examine engine.store.content command = .ok ())
    (prepared : engine.store.prepare command.statement.sql command = (.ok (), store))
    (folded : (rowsOf engine.store.content command).foldlM (takeRow take) start = .ok last) :
    ∃ after, (fold command.statement take start).run engine = (.ok last, after) ∧
      engine.outline.Untouched after.outline ∧ ∃ level note, after.log = engine.log.record
        (.ofStatement level (categoryOf command.statement) note command.statement.sql command.statement.params) := by
  have same : store.outline = engine.store.outline := by
    have ready := engine.store.prepare_outline command.statement.sql command
    rwa [prepared] at ready
  have content : store.content = engine.store.content := by
    rw [State.content_eq, State.content_eq, same]
  have enforces : store.connection.enforces = engine.store.connection.enforces := congrArg Outline.enforces same
  have ran : ∃ after, store.run command.statement.sql command = (.ok (rowsOf engine.store.content command), after) := by
    have seen : store.fixView.loadSchema.content = store.content := by
      rw [State.content_eq, State.content_eq, State.outline_loadSchema, State.outline_fixView, Outline.content_fixed]
    rw [← content, ← enforces] at checked
    rw [← content] at examined ⊢
    rw [store.run_plain _ plain, State.runPlain]
    simp only [checked, reads, Bool.false_eq_true, if_false, seen, examined]
    split
    · exact ⟨_, rfl⟩
    · exact ⟨_, rfl⟩
  obtain ⟨after, ran⟩ := ran
  have untouched : engine.outline.Untouched after.outline := by
    have ended := store.run_ended command.statement.sql command plain
    rw [ran, same] at ended
    exact ended.touches_nothing reads
  have params : checkParams command.statement = pure () := if_pos counted
  unfold fold prepare
  simp only [run_bind, run_acting, asked, Except.mapError, prepared, params, run_pure, run, ran, fold.liftExcept, folded]
  exact ⟨_, rfl, untouched, _, _, rfl⟩

theorem Readable.runs {command : Sql.Command} {take : β → List Value → Except Failure β} {start last : β}
    {engine : Engine} (readable : Readable engine command)
    (folded : (rowsOf engine.store.content command).foldlM (takeRow take) start = .ok last) :
    ((fold command.statement take start).run engine).1 = .ok last := by
  obtain ⟨plain, reads, asked, counted, loaded, checked, examined⟩ := readable
  obtain ⟨after, ran, -⟩ := fold_ready plain reads asked counted checked examined (prepare_ready loaded checked _) folded
  rw [ran]

theorem foldlM_collected (rows before : List (List Value)) :
    (given rows).foldlM (takeRow fun rows row => .ok (rows ++ [row])) before = .ok (before ++ rows) := by
  rw [foldlM_takeRow]
  induction rows generalizing before with
  | nil => exact congrArg _ (List.append_nil before).symm
  | cons row rows ih =>
    rw [List.foldlM_cons]
    exact (ih (before ++ [row])).trans (congrArg _ (List.append_assoc _ _ _))

theorem query_eq_ok {command : Sql.Command} {rows : List (List Value)} {engine : Engine}
    (plain : isControl command = false) (reads : ∀ c, writes c command = false)
    (given : rowsOf engine.store.content command = given rows) {result : List (List Value)}
    (done : ((query command.statement).run engine).1 = .ok result) : result = rows := by
  have taken := fold_eq_ok plain reads done
  rw [given, foldlM_collected] at taken
  exact (Except.ok.inj taken).symm

theorem scalar_eq_ok {command : Sql.Command} {m : Nat} {engine : Engine}
    (plain : isControl command = false) (reads : ∀ c, writes c command = false)
    (one : rowsOf engine.store.content command = given [countRow m]) {n : Int64}
    (done : ((scalar command.statement).run engine).1 = .ok n) : n = Int64.ofNat m := by
  unfold scalar at done
  rw [run_bind] at done
  rcases ran : (query command.statement).run engine with ⟨failure | rows, after⟩
  · rw [ran] at done
    cases done
  · have rows := query_eq_ok plain reads one (congrArg Prod.fst ran)
    subst rows
    rw [ran] at done
    exact (Except.ok.inj done).symm

end Engine

theorem foldlM_append {ε α β : Type} {f : α → Except ε β} {entries : List α} {before after : List β}
    (done : entries.foldlM (fun results a => do let b ← f a; pure (results ++ [b])) before = .ok after) :
    ∃ results, after = before ++ results ∧ List.Forall₂ (fun a b => f a = .ok b) entries results := by
  induction entries generalizing before with
  | nil => exact ⟨[], ((List.append_nil _).trans (pure_eq_ok.1 done)).symm, .nil⟩
  | cons a entries ih =>
    rw [List.foldlM_cons, bind_eq_ok] at done
    obtain ⟨grown, first, rest⟩ := done
    obtain ⟨b, here, appended⟩ := bind_eq_ok.1 first
    obtain rfl := pure_eq_ok.1 appended
    obtain ⟨results, rfl, others⟩ := ih rest
    exact ⟨b :: results, List.append_assoc _ _ _, .cons here others⟩

theorem foldlM_append_ok {ε α β : Type} {f : α → Except ε β} {entries : List α} {results : List β}
    (reads : List.Forall₂ (fun a b => f a = .ok b) entries results) (before : List β) :
    entries.foldlM (fun results a => do let b ← f a; pure (results ++ [b])) before = .ok (before ++ results) := by
  induction reads generalizing before with
  | nil => exact congrArg _ (List.append_nil before).symm
  | cons first rest ih =>
    rw [List.foldlM_cons, bind_eq_ok]
    exact ⟨_, bind_eq_ok.2 ⟨_, first, rfl⟩, (ih _).trans (congrArg _ (List.append_assoc _ _ _))⟩

namespace Query

variable {g : ShapeGraph} {s : Fin g.size} {q : Query g s}

theorem selectStatement_eq_ok {statement : Sql.Statement} (made : q.selectStatement = .ok statement) :
    ∃ rows order, q.plan.rows = .ok rows ∧
      statement = (Sql.Command.select q.plan.scope.columns rows order
        (if q.plan.joins.isEmpty then q.plan.paging.map Paging.window else none)).statement := by
  unfold selectStatement Plan.select at made
  rcases compiled : q.plan.rows with fault | rows
  · rw [compiled] at made
    cases made
  · rcases ordered : q.plan.orderTerms with fault | order
    · rw [compiled, ordered] at made
      cases made
    · rw [compiled, ordered] at made
      exact ⟨rows, order, rfl, (Except.ok.inj made).symm⟩

end Query

namespace Database

variable {α β : Type} {db : Database}

theorem run_known (outcome : Except Failure α) : (known outcome).run db = (outcome, db) := rfl

theorem run_onEngine (act : Engine.Action α) :
    (onEngine act).run db = ((act.run db.engine).1, { db with engine := (act.run db.engine).2 }) := rfl

theorem bind_run_ok {act : Action α} {next : α → Action β} {b : β} (done : ((act >>= next).run db).1 = .ok b) :
    ∃ a after, act.run db = (.ok a, after) ∧ ((next a).run after).1 = .ok b :=
  run_bind_ok done

theorem known_bind_run_ok {outcome : Except Failure α} {next : α → Action β} {b : β}
    (done : ((known outcome >>= next).run db).1 = .ok b) : ∃ a, outcome = .ok a ∧ ((next a).run db).1 = .ok b := by
  obtain ⟨a, after, first, rest⟩ := bind_run_ok done
  have parts := Prod.mk.inj first
  exact ⟨a, parts.1, parts.2 ▸ rest⟩

theorem onEngine_bind_run_ok {act : Engine.Action α} {next : α → Action β} {b : β}
    (done : ((onEngine act >>= next).run db).1 = .ok b) :
    ∃ a after, (act.run db.engine).1 = .ok a ∧ ((next a).run after).1 = .ok b := by
  obtain ⟨a, after, first, rest⟩ := bind_run_ok done
  exact ⟨a, after, (Prod.mk.inj first).1, rest⟩

theorem onEngine_run_ok {act : Engine.Action α} {a : α} (done : ((onEngine act).run db).1 = .ok a) :
    (act.run db.engine).1 = .ok a := done

variable {g : ShapeGraph} {s : Fin g.size} {q : Query g s} {records : List (Loaded g s)}

def windowOf (q : Query g s) : Option Sql.Window :=
  if q.plan.joins.isEmpty then q.plan.paging.map Paging.window else none

theorem selectJoined_taking (q : Query g s) (statement : Sql.Statement) :
    selectJoined q statement =
      onEngine (Engine.fold statement Hydration.taking (Hydration.empty q.plan.root q.loaders)) >>= fun hydration =>
        known (hydration.finish.mapError .decoding) >>= fun records =>
          pure (match q.plan.heldPaging? with | some paging => paging.apply records | none => records) := by
  unfold selectJoined
  congr 3
  funext h row
  rw [Hydration.taking]
  rcases h.push row with ⟨_ | _, _⟩ <;> rfl

theorem select_joined_eq_ok (joined : q.loaders.isEmpty = false) (done : ((select q).run db).1 = .ok records) :
    ∃ rows order hydration all, q.plan.rows = .ok rows ∧
      (Store.select db.engine.store.content q.plan.scope.columns rows order (windowOf q)).foldlM Hydration.taking
        (Hydration.empty q.plan.root q.loaders) = .ok hydration ∧
      hydration.finish = .ok all ∧
      records = match q.plan.heldPaging? with
        | some paging => paging.apply all
        | none => all := by
  obtain ⟨statement, made, rest⟩ := known_bind_run_ok done
  obtain ⟨rows, order, compiled, rfl⟩ := Query.selectStatement_eq_ok made
  rw [if_neg (by simp [joined]), selectJoined_taking] at rest
  obtain ⟨hydration, after, folded, rest⟩ := onEngine_bind_run_ok rest
  obtain ⟨all, finished, rest⟩ := known_bind_run_ok rest
  have taken := Engine.fold_eq_ok rfl (fun _ => rfl) folded
  rw [rowsOf, Engine.foldlM_takeRow] at taken
  exact ⟨rows, order, hydration, all, compiled, taken, mapError_eq_ok.1 finished, (Except.ok.inj rest).symm⟩

theorem select_joined_runs {command : Sql.Command} {rows : List (List Value)} {hydration : Hydration g.size}
    (joined : q.loaders.isEmpty = false) (made : q.selectStatement = .ok command.statement)
    (readable : db.engine.Readable command) (read : rowsOf db.engine.store.content command = given rows)
    (taken : rows.foldlM Hydration.taking (Hydration.empty q.plan.root q.loaders) = .ok hydration)
    (finished : hydration.finish = .ok records) :
    ((select q).run db).1 = .ok (match q.plan.heldPaging? with
      | some paging => paging.apply records
      | none => records) := by
  have folded : ((Engine.fold command.statement Hydration.taking
      (Hydration.empty q.plan.root q.loaders)).run db.engine).1 = .ok hydration := by
    apply readable.runs
    rw [read, Engine.foldlM_takeRow, taken]
  unfold select
  rw [run_bind, run_known, made]
  simp only [joined, Bool.false_eq_true, if_false]
  rw [selectJoined_taking, run_bind, run_onEngine, folded]
  simp only []
  rw [run_bind, run_known, finished]
  rfl

theorem select_plain_eq_ok (plain : q.loaders.isEmpty = true) (done : ((select q).run db).1 = .ok records) :
    ∃ rows order, q.plan.rows = .ok rows ∧
      (Store.select db.engine.store.content q.plan.scope.columns rows order (windowOf q)).mapM
        (Loaded.readOne g s q.plan.root) = .ok records := by
  obtain ⟨statement, made, rest⟩ := known_bind_run_ok done
  obtain ⟨rows, order, compiled, rfl⟩ := Query.selectStatement_eq_ok made
  rw [if_pos plain, selectPlain] at rest
  have taken := Engine.fold_eq_ok rfl (fun _ => rfl) (onEngine_run_ok rest)
  rw [rowsOf, Engine.foldlM_takeRow] at taken
  refine ⟨rows, order, compiled, ?_⟩
  obtain ⟨results, same, reads⟩ := foldlM_append taken
  rw [List.nil_append] at same
  rw [same, windowOf, mapM_eq_ok]
  exact reads.imp fun row record read => mapError_eq_ok.1 read

theorem select_plain_runs {command : Sql.Command} {rows : List (List Value)} (plain : q.loaders.isEmpty = true)
    (made : q.selectStatement = .ok command.statement) (readable : db.engine.Readable command)
    (read : rowsOf db.engine.store.content command = given rows)
    (decoded : List.Forall₂ (fun row l => Loaded.readOne g s q.plan.root row = .ok l) rows records) :
    ((select q).run db).1 = .ok records := by
  have taken : ((Engine.fold command.statement (fun records row => do
      let record ← (Loaded.readOne g s q.plan.root row).mapError .decoding
      pure (records ++ [record])) []).run db.engine).1 = .ok records := by
    apply readable.runs
    rw [read, Engine.foldlM_takeRow]
    exact foldlM_append_ok (decoded.imp fun row l one => mapError_eq_ok.2 one) []
  unfold select
  rw [run_bind, run_known, made]
  simp only [plain, if_true]
  rw [selectPlain, run_onEngine, taken]

def numberOf (c : Content) (q : Query g s) (rows : Sql.Rows) : Nat :=
  if q.plan.joins.isEmpty then
    match q.plan.paging with
    | none => Store.count c rows
    | some paging => Store.countWindow c rows paging.window
  else
    Store.countDistinct c q.plan.identityColumns rows (q.plan.paging.map Paging.window)

theorem countOf_eq_ok {number : Int64} {n : Nat} (given : countOf number = .ok n) : number.toInt.toNat = n := by
  unfold countOf at given
  split at given
  · cases given
  · exact Except.ok.inj given

theorem countOf_ofNat {m : Nat} (few : m < 2 ^ 63) : countOf (Int64.ofNat m) = .ok m := by
  rw [countOf, Int64.toInt_ofNat_of_lt few, if_neg (Int.not_lt.2 (Int.natCast_nonneg m)), Int.toNat_natCast]

theorem count_eq_ok {n : Nat} (done : ((count q).run db).1 = .ok n) :
    ∃ rows, q.plan.rows = .ok rows ∧
      n = (Int64.ofNat (numberOf db.engine.store.content q rows)).toInt.toNat := by
  obtain ⟨statement, made, rest⟩ := known_bind_run_ok done
  obtain ⟨number, after, counted, rest⟩ := onEngine_bind_run_ok rest
  rw [run_known] at rest
  have value : number.toInt.toNat = n := countOf_eq_ok rest
  rw [← value]
  rcases compiled : q.plan.rows with fault | rows
  · rw [Query.countStatement, Plan.count, compiled] at made
    cases made
  · rw [Query.countStatement, Plan.count, compiled] at made
    refine ⟨rows, rfl, ?_⟩
    unfold numberOf
    by_cases joined : q.plan.joins.isEmpty = true
    · rcases paged : q.plan.paging with _ | paging
      · rw [if_pos joined]
        simp only [if_pos joined, paged] at made
        obtain rfl := Except.ok.inj made
        rw [Engine.scalar_eq_ok rfl (fun _ => rfl) rfl counted]
      · rw [if_pos joined]
        simp only [if_pos joined, paged] at made
        obtain rfl := Except.ok.inj made
        rw [Engine.scalar_eq_ok rfl (fun _ => rfl) rfl counted]
    · rw [if_neg joined]
      simp only [if_neg joined] at made
      obtain rfl := Except.ok.inj made
      rw [Engine.scalar_eq_ok rfl (fun _ => rfl) rfl counted]

theorem count_runs {command : Sql.Command} {m : Nat} (made : q.countStatement = .ok command.statement)
    (readable : db.engine.Readable command) (one : rowsOf db.engine.store.content command = given [countRow m])
    (few : m < 2 ^ 63) : ((count q).run db).1 = .ok m := by
  have queried : ((Engine.query command.statement).run db.engine).1 = .ok [countRow m] := by
    apply readable.runs
    rw [one, Engine.foldlM_takeRow]
    rfl
  have counted : ((Engine.scalar command.statement).run db.engine).1 = .ok (Int64.ofNat m) := by
    unfold Engine.scalar
    rw [run_bind]
    rcases ran : (Engine.query command.statement).run db.engine with ⟨outcome, after⟩
    rw [ran] at queried
    have same : outcome = .ok [countRow m] := queried
    subst same
    rfl
  unfold count
  rw [run_bind, run_known, made]
  simp only []
  rw [run_bind, scalar, run_onEngine, counted]
  exact countOf_ofNat few

end Database

end RecordMapper
