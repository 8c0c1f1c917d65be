import RecordMapper.Proofs.Schema.Growth
import RecordMapper.Proofs.Store.Guarding
import RecordMapper.Proofs.Unit.Invariance

namespace RecordMapper

open RecordMapper.Store

def shapesTables : Sql.Command → Bool
  | .createTable .. | .dropTable _ | .addColumn .. => true
  | _ => false

/-- A command of the mapper's own, which shapes tables only if that is allowed. -/
structure Issued (shaping : Bool) (command : Sql.Command) : Prop where
  mapped : IsMapped command
  shapes : shapesTables command = true → shaping = true

section Commands

variable {shaping : Bool} {command : Sql.Command}

def Sql.Command.IsQuiet (command : Sql.Command) : Prop :=
  isControl command = false ∧ IsMapped command ∧ shapesTables command = false

theorem Sql.Command.IsQuiet.issued (quiet : command.IsQuiet) : Issued shaping command :=
  ⟨quiet.2.1, fun shapes => absurd (quiet.2.2.symm.trans shapes) Bool.false_ne_true⟩

theorem Plan.select_quiet {p : Plan} (made : p.select = .ok command) : command.IsQuiet := by
  simp only [select, bind_eq_ok, pure_eq_ok] at made
  obtain ⟨rows, -, order, -, rfl⟩ := made
  exact ⟨rfl, trivial, rfl⟩

theorem Plan.count_quiet {p : Plan} (made : p.count = .ok command) : command.IsQuiet := by
  simp only [count, bind_eq_ok] at made
  obtain ⟨rows, -, made⟩ := made
  split at made
  · split at made <;> (obtain rfl := pure_eq_ok.1 made; exact ⟨rfl, trivial, rfl⟩)
  · obtain rfl := pure_eq_ok.1 made
    exact ⟨rfl, trivial, rfl⟩

theorem Table.insert_quiet {t : Table} {positions : t.Positions} {row : List Value}
    (made : t.insert positions row = .ok command) : command.IsQuiet := by
  simp only [insert, bind_eq_ok, pure_eq_ok] at made
  obtain ⟨_, -, rfl⟩ := made
  exact ⟨rfl, rfl, rfl⟩

theorem Table.update_quiet {t : Table} {positions : t.Positions} {row : List Value} {filter : Option Predicate}
    (made : t.update positions row filter = .ok command) : command.IsQuiet := by
  simp only [update, updateIn, bind_eq_ok, pure_eq_ok] at made
  obtain ⟨_, -, condition, -, rfl⟩ := made
  exact ⟨rfl, trivial, rfl⟩

theorem Table.delete_quiet {t : Table} {filter : Option Predicate} (made : t.delete filter = .ok command) :
    command.IsQuiet := by
  simp only [delete, deleteIn, bind_eq_ok, pure_eq_ok] at made
  obtain ⟨condition, -, rfl⟩ := made
  exact ⟨rfl, trivial, rfl⟩

theorem issued_of_aligns {policy : Policy} {among : String → Prop} (command : Sql.Command)
    (asked : Database.Aligns policy among command) : Issued true command := by
  refine ⟨?_, fun _ => rfl⟩
  cases command with
  | createTable | addColumn => exact asked
  | tableExists | tableInfo | dropTable => trivial
  | _ => cases asked

end Commands

namespace Database

variable {g : ShapeGraph} {s : Fin g.size} {q : Query g s} {shaping : Bool}

section Actions

theorem does_select (q : Query g s) : Does (Issued shaping) (select q) := by
  refine Does.of_known fun statement made => ?_
  simp only [Query.selectStatement, mapError_eq_ok, map_eq_ok] at made
  obtain ⟨command, made, rfl⟩ := made
  have quiet := Plan.select_quiet made
  split
  · exact does_fold _ _ quiet.1 quiet.issued
  · exact Does.bind (does_fold _ _ quiet.1 quiet.issued) fun _ => Does.bind (does_known _) fun _ => does_pure _

theorem does_count (q : Query g s) : Does (Issued shaping) (count q) := by
  refine Does.of_known fun statement made => ?_
  simp only [Query.countStatement, mapError_eq_ok, map_eq_ok] at made
  obtain ⟨command, made, rfl⟩ := made
  have quiet := Plan.count_quiet made
  exact Does.bind (does_scalar quiet.1 quiet.issued) fun _ => does_known _

theorem does_insertEach (q : Query g s) (positions : q.plan.root.Positions) (records : List (g.shape s).Record) :
    Does (Issued shaping) (insertEach q positions records) := by
  induction records with
  | nil => exact does_pure 0
  | cons r rest ih =>
    refine Does.of_known fun statement made => ?_
    simp only [Query.insertStatement, map_eq_ok] at made
    obtain ⟨command, made, rfl⟩ := made
    have quiet := Table.insert_quiet made
    exact Does.bind (does_execute quiet.1 quiet.issued) fun _ => ih.bind fun _ => does_pure _

theorem does_insertRows (t : Table) (positions : t.Positions) (rows : List (List Value)) :
    Does (Issued shaping) (insertRows t positions rows) := by
  induction rows with
  | nil => exact does_pure 0
  | cons row rest ih =>
    refine Does.of_known fun command made => ?_
    have quiet := Table.insert_quiet made
    exact Does.bind (does_execute quiet.1 quiet.issued) fun _ => ih.bind fun _ => does_pure _

theorem does_update (q : Query g s) (r : (g.shape s).Record) (selection : Selection) :
    Does (Issued shaping) (update q r selection) := by
  refine Does.of_known fun statement made => ?_
  simp only [Query.updateStatement, bind_eq_ok, pure_eq_ok] at made
  obtain ⟨_, -, positions, -, command, made, rfl⟩ := made
  have quiet := Table.update_quiet made
  exact does_execute quiet.1 quiet.issued

theorem does_delete (q : Query g s) : Does (Issued shaping) (delete q) := by
  refine Does.of_known fun statement made => ?_
  simp only [Query.deleteStatement, bind_eq_ok, pure_eq_ok] at made
  obtain ⟨_, -, command, made, rfl⟩ := made
  have quiet := Table.delete_quiet made
  exact does_execute quiet.1 quiet.issued

theorem does_index (q : Query g s) (columns : List String) (unique : Bool) :
    Does (Issued shaping) (index q columns unique) :=
  Does.bind (does_known _) fun _ => Does.bind (does_execute rfl ⟨trivial, Bool.noConfusion⟩) fun _ =>
    Does.bind (does_note _) fun _ => does_pure _

theorem confined_alignAll (policy : Policy) (tables : List (Except Failure Table)) :
    Confined (Issued true) (atomically (alignAll policy tables)) :=
  confined_atomically ((does_alignAny policy tables).mono issued_of_aligns).confined

theorem confined_reconcile (g : ShapeGraph) (policy : Policy) (d : Descriptor g.size) :
    Confined (Issued true) (reconcile g policy d) :=
  confined_alignAll policy _

end Actions

end Database

section Requests

variable {g : ShapeGraph}

namespace Request

def isRaw : Request g → Bool
  | .execute .. | .query .. | .scalar .. => true
  | _ => false

def reshapes : Request g → Bool
  | .typed _ origin _ _ => origin.key.isSome || origin.policy.isSome
  | .reconcile .. => true
  | _ => false

open Database

theorem confined_origin {s : Fin g.size} (origin : Origin) :
    Confined (Issued (origin.key.isSome || origin.policy.isSome)) (origin.query (g := g) (s := s)) := by
  obtain ⟨_ | key, policy⟩ := origin
  · cases policy with
    | none => exact (Does.bind (does_known _) fun _ => does_pure _).confined
    | some policy =>
      exact Confined.of_known fun d _ => (confined_reconcile g policy d).bind fun _ => confined_pure _
  · exact Confined.of_known fun d _ => (confined_reconcile g _ d).bind fun _ => confined_pure _

theorem confined_purpose {s : Fin g.size} {shaping : Bool} (q : Query g s) (purpose : Purpose g s) :
    Confined (Issued shaping) (purpose.answer q) := by
  cases purpose with
  | create | plan => exact confined_pure _
  | select => exact ((does_select q).bind fun _ => does_pure _).confined
  | first => exact (((does_select q.first).bind fun _ => does_pure _).bind fun _ => does_pure _).confined
  | count => exact ((does_count q).bind fun _ => does_pure _).confined
  | insert records selection =>
    exact Confined.bind (Confined.of_known fun positions _ =>
      confined_atomically (does_insertEach q positions records).confined) fun _ => confined_pure _
  | update record selection => exact ((does_update q record selection).bind fun _ => does_pure _).confined
  | delete => exact ((does_delete q).bind fun _ => does_pure _).confined
  | index columns unique => exact ((does_index q columns unique).bind fun _ => does_pure _).confined

theorem confined_ofAction {α : Type} {may : Sql.Command → Prop} {act : Action α} (confined : Confined may act) :
    Confined may (Answering.ofAction act) :=
  ⟨confined.keeps, confined.stands⟩

theorem confined_known {α : Type} {may : Sql.Command → Prop} (outcome : Except Refusal α) :
    Confined may (Answering.known outcome) :=
  ⟨fun _ _ _ holds => holds, fun _ _ stands => stands⟩

theorem confined_untyped (request : Request g) (mapped : request.isRaw = false) :
    Confined (Issued request.reshapes) request.untyped := by
  cases request with
  | execute | query | scalar => cases mapped
  | typed | refused => exact confined_pure _
  | tableExists table =>
    exact (Does.bind (Does.bind (does_scalar rfl ⟨trivial, Bool.noConfusion⟩) fun _ => does_pure _)
      fun _ => does_pure _).confined
  | live table =>
    exact (Does.bind (Does.bind (does_query rfl ⟨trivial, Bool.noConfusion⟩) fun _ => does_known _)
      fun _ => does_pure _).confined
  | inTransaction | flush => exact ⟨fun _ _ _ holds => holds, fun _ _ stands => stands.of_same rfl rfl⟩
  | reconcile table policy =>
    exact (confined_alignAll policy _).bind fun _ => confined_pure _
  | planRows plan =>
    refine (Does.of_known fun command made => ?_).confined
    have quiet := Plan.select_quiet (mapError_eq_ok.1 made)
    exact Does.bind (does_query quiet.1 quiet.issued) fun _ => does_pure _
  | planCount plan =>
    refine (Does.of_known fun command made => ?_).confined
    have quiet := Plan.count_quiet (mapError_eq_ok.1 made)
    exact Does.bind (does_scalar quiet.1 quiet.issued) fun _ => does_pure _
  | insertRows table rows selection =>
    exact (Does.bind (does_known _) fun positions =>
      (does_insertRows table positions rows).bind fun _ => does_pure _).confined
  | updateRows table row filter selection =>
    refine (Does.bind (does_known _) fun positions => Does.of_known fun command made => ?_).confined
    have quiet := Table.update_quiet made
    exact Does.bind (does_execute quiet.1 quiet.issued) fun _ => does_pure _
  | deleteRows table filter =>
    refine (Does.of_known fun command made => ?_).confined
    have quiet := Table.delete_quiet made
    exact Does.bind (does_execute quiet.1 quiet.issued) fun _ => does_pure _

/-- A request whose statement the caller has not written changes contents by commands of the mapper's own alone. -/
theorem confined (request : Request g) (mapped : request.isRaw = false) :
    Confined (Issued request.reshapes) request.answer := by
  cases request with
  | refused why => exact confined_known _
  | typed s origin refinements purpose =>
    exact (confined_ofAction (confined_origin origin)).bind fun first => (confined_known _).bind fun q =>
      confined_ofAction (confined_purpose q purpose)
  | _ =>
    simp only [answer]
    exact confined_ofAction (confined_untyped _ mapped)

end Request

end Requests

end RecordMapper
