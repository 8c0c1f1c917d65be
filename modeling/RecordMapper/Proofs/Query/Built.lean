import Mathlib.Data.List.Nodup
import RecordMapper.Proofs.Outcome
import RecordMapper.Proofs.Query.Rows
import RecordMapper.Query

namespace RecordMapper

namespace Query

variable {g : ShapeGraph} {s : Fin g.size}

/-- Queries that the refinements lead to. What is joined are relations that the shape has. -/
inductive Built : Query g s → Prop where
  | table {d : Descriptor g.size} (described : (g.shape s).descriptor = .ok d) : Built (.ofTable d.table)
  | keyedBy {key : List String} {d : Descriptor g.size} (described : (g.shape s).descriptorKeyedBy key = .ok d) :
    Built (.ofTable d.table)
  | filter {q : Query g s} (p : Predicate) (built : q.Built) : Built (q.filter p)
  | order {q : Query g s} (column : String) (descending : Bool) (built : q.Built) : Built (q.order column descending)
  | limit {q : Query g s} (limit skip : UInt64) (built : q.Built) : Built (q.limit limit skip)
  | skip {q : Query g s} (skip : UInt64) (built : q.Built) : Built (q.skip skip)
  | join {q after : Query g s} {r : Relation g.size} {on equals : String} (built : q.Built)
    (declared : (g.shape s).relation? r.name = some r) (joined : q.join r on equals = .ok after) : Built after
  | joinPivot {q after : Query g s} {pivot : Fin g.size} {r : Relation g.size} {on equals and is : String}
    (built : q.Built) (declared : (g.shape s).relation? r.name = some r)
    (joined : q.joinPivot pivot r on equals and is = .ok after) : Built after

structure Known (s : Fin g.size) (l : Loader g.size) : Prop where
  declared : (g.shape s).relation? l.relation = some ⟨l.relation, l.child⟩
  described : ∃ d, (g.shape l.child).descriptor = .ok d ∧ l.table = d.table

structure Fits (q : Query g s) : Prop where
  root : ∃ key d, (g.shape s).descriptorKeyedBy key = .ok d ∧ q.plan.root = d.table
  loads : List.Forall₂ Loader.Loads q.loaders q.plan.joins
  known : ∀ l ∈ q.loaders, Known s l
  tables : (q.plan.scope.entries.map fun e => e.table.name).Nodup

theorem positioned_append {α : Type} (f : Nat → Join → List α) (start : Nat) (joins others : List Join) :
    positioned f start (joins ++ others) = positioned f start joins ++ positioned f (start + joins.length) others := by
  induction joins generalizing start with
  | nil => rfl
  | cons j joins ih =>
    have next : start + 1 + joins.length = start + (joins.length + 1) := by omega
    rw [List.cons_append, positioned, ih, positioned, List.append_assoc, List.length_cons, next]

theorem refuseRepeats_go {j : Join} {seen : List String} {tables : List Table} (distinct : seen.Nodup)
    (new : Join.refuseRepeats.go j seen tables = .ok ()) : (seen ++ tables.map Table.name).Nodup := by
  induction tables generalizing seen with
  | nil => simpa using distinct
  | cons t tables ih =>
    rw [Join.refuseRepeats.go] at new
    split at new
    · cases new
    · rename_i fresh
      have longer : (seen ++ [t.name]).Nodup := by
        rw [List.nodup_append]
        refine ⟨distinct, List.nodup_singleton _, ?_⟩
        intro name member other single same
        rw [List.mem_singleton.1 single] at same
        exact fresh (same ▸ member)
      have all := ih longer new
      rwa [List.append_assoc, List.singleton_append] at all

theorem push_eq_ok {q after : Query g s} {join : Join} {loader : Loader g.size}
    (pushed : q.push join loader = .ok after) :
    join.validate q.plan.root = .ok () ∧ join.refuseRepeats q.plan.scope = .ok () ∧
      after = ⟨{ q.plan with joins := q.plan.joins ++ [join] }, q.loaders ++ [loader]⟩ := by
  simp only [push, bind_eq_ok, pure_eq_ok, mapError_eq_ok] at pushed
  obtain ⟨_, valid, _, new, rfl⟩ := pushed
  exact ⟨valid, new, rfl⟩

theorem push_tables {q after : Query g s} {join : Join} {loader : Loader g.size}
    (distinct : (q.plan.scope.entries.map fun e => e.table.name).Nodup) (pushed : q.push join loader = .ok after) :
    (after.plan.scope.entries.map fun e => e.table.name).Nodup := by
  obtain ⟨-, new, rfl⟩ := push_eq_ok pushed
  have names := refuseRepeats_go distinct new
  have entries : (scopeOf q.plan.root (q.plan.joins ++ [join])).entries =
      q.plan.scope.entries ++ join.entries (0 + q.plan.joins.length) := by
    rw [Plan.scope, scopeOf, scopeOf, Scope.entries, Scope.entries, positioned_append, positioned, positioned,
      List.append_nil, List.cons_append]
  have joined : (join.entries (0 + q.plan.joins.length)).map (fun e => e.table.name) =
      join.tables.map Table.name := by
    rcases join with ⟨relation, child, _ | _⟩ <;> rfl
  show ((scopeOf q.plan.root (q.plan.joins ++ [join])).entries.map _).Nodup
  rwa [entries, List.map_append, joined]

theorem push_fits {q after : Query g s} {join : Join} {loader : Loader g.size} (fits : q.Fits)
    (loads : loader.Loads join) (known : Known s loader) (pushed : q.push join loader = .ok after) : after.Fits := by
  have tables := push_tables fits.tables pushed
  obtain ⟨-, -, rfl⟩ := push_eq_ok pushed
  refine ⟨fits.root, List.rel_append fits.loads (.cons loads .nil), ?_, tables⟩
  intro l member
  rcases List.mem_append.1 member with before | last
  · exact fits.known l before
  · rwa [List.mem_singleton.1 last]

theorem ofTable_fits {key : List String} {d : Descriptor g.size}
    (described : (g.shape s).descriptorKeyedBy key = .ok d) : (ofTable d.table : Query g s).Fits := by
  refine ⟨⟨key, d, described, rfl⟩, .nil, ?_, List.nodup_singleton _⟩
  intro l member
  cases member

theorem Built.fits {q : Query g s} (built : q.Built) : q.Fits := by
  induction built with
  | table described => exact ofTable_fits described
  | keyedBy described => exact ofTable_fits described
  | filter p built ih => exact ⟨ih.root, ih.loads, ih.known, ih.tables⟩
  | order column descending built ih => exact ⟨ih.root, ih.loads, ih.known, ih.tables⟩
  | limit limit skip built ih => exact ⟨ih.root, ih.loads, ih.known, ih.tables⟩
  | skip skip built ih => exact ⟨ih.root, ih.loads, ih.known, ih.tables⟩
  | join built declared joined ih =>
    simp only [Query.join, bind_eq_ok] at joined
    obtain ⟨child, described, pushed⟩ := joined
    exact push_fits ih ⟨rfl, rfl, rfl⟩ ⟨declared, child, described, rfl⟩ pushed
  | joinPivot built declared joined ih =>
    simp only [Query.joinPivot, bind_eq_ok] at joined
    obtain ⟨between, -, child, described, pushed⟩ := joined
    exact push_fits ih ⟨rfl, rfl, rfl⟩ ⟨declared, child, described, rfl⟩ pushed

theorem children_sublist (start : Nat) (joins : List Join) :
    (joins.map fun j => j.child.name).Sublist
      ((positioned Join.entries start joins).map fun e => e.table.name) := by
  induction joins generalizing start with
  | nil => exact .slnil
  | cons j joins ih =>
    have child : [j.child.name].Sublist ((j.entries start).map fun e => e.table.name) := by
      rcases j with ⟨relation, child, _ | _⟩
      · exact .refl _
      · exact .cons _ (.refl _)
    rw [positioned, List.map_append]
    exact child.append (ih (start + 1))

theorem map_loads {α : Type} {n : Nat} {loaders : List (Loader n)} {joins : List Join} {f : Loader n → α}
    {f' : Join → α} (loads : List.Forall₂ Loader.Loads loaders joins) (same : ∀ l j, l.Loads j → f l = f' j) :
    loaders.map f = joins.map f' := by
  induction loads with
  | nil => rfl
  | cons loads rest ih => rw [List.map_cons, List.map_cons, same _ _ loads, ih]

theorem Fits.loaders_isEmpty {q : Query g s} (fits : q.Fits) : q.loaders.isEmpty = q.plan.joins.isEmpty := by
  rw [Bool.eq_iff_iff, List.isEmpty_iff_length_eq_zero, List.isEmpty_iff_length_eq_zero, fits.loads.length_eq]

theorem Fits.relation_names {q : Query g s} (fits : q.Fits) :
    q.loaders.map Loader.relation = q.plan.joins.map Join.relation :=
  map_loads fits.loads fun _ _ loads => loads.relation

theorem Fits.child_names {q : Query g s} (fits : q.Fits) :
    q.loaders.map (fun l => l.table.name) = q.plan.joins.map fun j => j.child.name :=
  map_loads fits.loads fun _ _ loads => congrArg Table.name loads.table

theorem Fits.children {q : Query g s} (fits : q.Fits) : (q.loaders.map fun l => l.table.name).Nodup := by
  have all := fits.tables
  rw [Plan.scope, scopeOf, Scope.entries, List.map_cons, List.nodup_cons] at all
  rw [fits.child_names]
  exact all.2.sublist (children_sublist 0 q.plan.joins)

theorem Fits.root_apart {q : Query g s} (fits : q.Fits) {l : Loader g.size} (listed : l ∈ q.loaders) :
    q.plan.root.name ≠ l.table.name := by
  intro same
  have all := fits.tables
  rw [Plan.scope, scopeOf, Scope.entries, List.map_cons, List.nodup_cons] at all
  refine all.1 ((children_sublist 0 q.plan.joins).subset ?_)
  rw [← fits.child_names]
  exact List.mem_map.2 ⟨l, listed, same.symm⟩

theorem Fits.relations {q : Query g s} (fits : q.Fits) : (q.loaders.map Loader.relation).Nodup := by
  have distinct := fits.children
  refine List.Nodup.map_on ?_ (List.Nodup.of_map _ distinct)
  intro a first b second same
  obtain ⟨declaredA, d, describedA, tableA⟩ := fits.known a first
  obtain ⟨declaredB, e, describedB, tableB⟩ := fits.known b second
  have child : a.child = b.child := by
    rw [same, declaredB, Option.some.injEq, Relation.mk.injEq] at declaredA
    exact declaredA.2.symm
  have table : a.table = b.table := by
    rw [child, describedB, Except.ok.injEq] at describedA
    rw [tableA, tableB, describedA]
  exact List.inj_on_of_nodup_map distinct first second (congrArg Table.name table)

end Query

end RecordMapper
