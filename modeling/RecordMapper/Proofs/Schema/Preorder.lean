import Mathlib.Logic.Relation
import RecordMapper.Proofs.Schema.Idempotence

namespace RecordMapper

open RecordMapper.Store RecordMapper.Text

namespace ShapeGraph

variable {g : ShapeGraph} {policy : Policy} {d : Descriptor g.size} {met met' : List String}
  {pending : List (Except Failure (Descriptor g.size))} {order : List (Descriptor g.size)} {db after : Database}
  {outcome : Except Failure (List String)}

def below (g : ShapeGraph) (policy : Policy) (d : Descriptor g.size) : List (Except Failure (Descriptor g.size)) :=
  if policy.contains .shallowOnly then [] else d.relations.map fun r => (g.shape r.child).descriptor

/-- A recursion that has ended: from the names met and the descriptors pending, the descriptors whose tables it has
    dealt with, and the names met in the end or the failure. -/
inductive Visit (g : ShapeGraph) (policy : Policy) : List String → List (Except Failure (Descriptor g.size)) →
    Database → List (Descriptor g.size) → Except Failure (List String) → Database → Prop where
  | done {met : List String} {db : Database} : Visit g policy met [] db [] (.ok met) db
  | undescribed {met : List String} {failure : Failure} {later : List (Except Failure (Descriptor g.size))}
      {db : Database} : Visit g policy met (.error failure :: later) db [] (.error failure) db
  | again {met : List String} {d : Descriptor g.size} {later : List (Except Failure (Descriptor g.size))}
      {db after : Database} {order : List (Descriptor g.size)} {outcome : Except Failure (List String)}
      (known : d.table.name ∈ met) (rest : Visit g policy met later db order outcome after) :
      Visit g policy met (.ok d :: later) db order outcome after
  | rejected {met : List String} {d : Descriptor g.size} {later : List (Except Failure (Descriptor g.size))}
      {db after : Database} {failure : Failure} (fresh : d.table.name ∉ met)
      (aligned : (Database.align policy d.table).run db = (.error failure, after)) :
      Visit g policy met (.ok d :: later) db [d] (.error failure) after
  | stopped {met : List String} {d : Descriptor g.size} {later : List (Except Failure (Descriptor g.size))}
      {db between after : Database} {order : List (Descriptor g.size)} {failure : Failure} (fresh : d.table.name ∉ met)
      (aligned : (Database.align policy d.table).run db = (.ok (), between))
      (inner : Visit g policy (d.table.name :: met) (g.below policy d) between order (.error failure) after) :
      Visit g policy met (.ok d :: later) db (d :: order) (.error failure) after
  | through {met met' : List String} {d : Descriptor g.size} {later : List (Except Failure (Descriptor g.size))}
      {db between left after : Database} {order order' : List (Descriptor g.size)}
      {outcome : Except Failure (List String)} (fresh : d.table.name ∉ met)
      (aligned : (Database.align policy d.table).run db = (.ok (), between))
      (inner : Visit g policy (d.table.name :: met) (g.below policy d) between order (.ok met') left)
      (rest : Visit g policy met' later left order' outcome after) :
      Visit g policy met (.ok d :: later) db (d :: (order ++ order')) outcome after

/-- The depth-first order from the descriptors pending, without those whose names have been met. -/
inductive Preorder (g : ShapeGraph) (policy : Policy) : List String → List (Except Failure (Descriptor g.size)) →
    List (Descriptor g.size) → List String → Prop where
  | nil {met : List String} : Preorder g policy met [] [] met
  | again {met met' : List String} {d : Descriptor g.size} {later : List (Except Failure (Descriptor g.size))}
      {order : List (Descriptor g.size)} (known : d.table.name ∈ met) (rest : Preorder g policy met later order met') :
      Preorder g policy met (.ok d :: later) order met'
  | first {met met' met'' : List String} {d : Descriptor g.size} {later : List (Except Failure (Descriptor g.size))}
      {order order' : List (Descriptor g.size)} (fresh : d.table.name ∉ met)
      (inner : Preorder g policy (d.table.name :: met) (g.below policy d) order met')
      (rest : Preorder g policy met' later order' met'') :
      Preorder g policy met (.ok d :: later) (d :: (order ++ order')) met''

theorem Visit.preorder (visit : Visit g policy met pending db order outcome after) (ended : outcome = .ok met') :
    Preorder g policy met pending order met' := by
  induction visit generalizing met' with
  | done =>
    cases ended
    exact .nil
  | undescribed => cases ended
  | again known _ ih => exact .again known (ih ended)
  | rejected => cases ended
  | stopped => cases ended
  | through fresh _ _ _ inner rest => exact .first fresh (inner rfl) (rest ended)

namespace Preorder

theorem mem_met (preorder : Preorder g policy met pending order met') (name : String) :
    name ∈ met' ↔ name ∈ met ∨ ∃ d ∈ order, d.table.name = name := by
  induction preorder with
  | nil => simp
  | again _ _ ih => exact ih
  | first _ _ _ inner rest =>
    rw [rest, inner]
    simp only [List.mem_cons, List.mem_append]
    constructor
    · rintro (((rfl | known) | ⟨d, listed, rfl⟩) | ⟨d, listed, rfl⟩)
      · exact .inr ⟨_, .inl rfl, rfl⟩
      · exact .inl known
      · exact .inr ⟨d, .inr (.inl listed), rfl⟩
      · exact .inr ⟨d, .inr (.inr listed), rfl⟩
    · rintro (known | ⟨d, rfl | within | later, rfl⟩)
      · exact .inl (.inl (.inr known))
      · exact .inl (.inl (.inl rfl))
      · exact .inl (.inr ⟨d, within, rfl⟩)
      · exact .inr ⟨d, later, rfl⟩

theorem nodup (preorder : Preorder g policy met pending order met') :
    (order.map fun d => d.table.name).Nodup ∧ ∀ d ∈ order, d.table.name ∉ met := by
  induction preorder with
  | nil => exact ⟨List.nodup_nil, fun d none => absurd none List.not_mem_nil⟩
  | again _ _ ih => exact ih
  | first fresh inner rest ihInner ihRest =>
    rename_i met met' met'' d later order order'
    have left (e : Descriptor g.size) (within : e ∈ order) : e.table.name ≠ d.table.name ∧ e.table.name ∉ met :=
      not_or.1 fun known => ihInner.2 e within (List.mem_cons.2 known)
    have right (e : Descriptor g.size) (behind : e ∈ order') (name : String)
        (known : name = d.table.name ∨ name ∈ met ∨ ∃ e ∈ order, e.table.name = name) : e.table.name ≠ name := by
      intro same
      apply ihRest.2 e behind
      rw [inner.mem_met, List.mem_cons, same, or_assoc]
      exact known
    constructor
    · rw [List.map_cons, List.map_append, List.nodup_cons, List.nodup_append]
      refine ⟨?_, ihInner.1, ihRest.1, ?_⟩
      · intro repeated
        rcases List.mem_append.1 repeated with within | behind
        · obtain ⟨e, within, same⟩ := List.mem_map.1 within
          exact (left e within).1 same
        · obtain ⟨e, behind, same⟩ := List.mem_map.1 behind
          exact right e behind _ (.inl rfl) same
      · intro name one name' two same
        obtain ⟨e, within, rfl⟩ := List.mem_map.1 one
        obtain ⟨e', behind, rfl⟩ := List.mem_map.1 two
        exact right e' behind _ (.inr (.inr ⟨e, within, rfl⟩)) same.symm
    · intro e member known
      rcases List.mem_cons.1 member with rfl | member
      · exact fresh known
      · rcases List.mem_append.1 member with within | behind
        · exact (left e within).2 known
        · exact right e behind _ (.inr (.inl known)) rfl

theorem reachable (preorder : Preorder g policy met pending order met') :
    ∀ e ∈ order, ∃ d, .ok d ∈ pending ∧ Relation.ReflTransGen (fun d e => .ok e ∈ g.below policy d) d e := by
  induction preorder with
  | nil => exact fun e none => absurd none List.not_mem_nil
  | again _ _ ih =>
    intro e member
    obtain ⟨d, listed, path⟩ := ih e member
    exact ⟨d, List.mem_cons_of_mem _ listed, path⟩
  | first _ _ _ inner rest =>
    intro e member
    rcases List.mem_cons.1 member with rfl | member
    · exact ⟨e, List.mem_cons_self, .refl⟩
    · rcases List.mem_append.1 member with within | behind
      · obtain ⟨d, leads, path⟩ := inner e within
        exact ⟨_, List.mem_cons_self, .head leads path⟩
      · obtain ⟨d, listed, path⟩ := rest e behind
        exact ⟨d, List.mem_cons_of_mem _ listed, path⟩

theorem met_pending (preorder : Preorder g policy met pending order met') :
    ∀ entry ∈ pending, ∃ d, entry = .ok d ∧ d.table.name ∈ met' := by
  induction preorder with
  | nil => exact fun entry none => absurd none List.not_mem_nil
  | again known rest ih =>
    intro entry member
    rcases List.mem_cons.1 member with rfl | later
    · exact ⟨_, rfl, (rest.mem_met _).2 (.inl known)⟩
    · exact ih entry later
  | first _ inner rest _ ih =>
    intro entry member
    rcases List.mem_cons.1 member with rfl | later
    · exact ⟨_, rfl, (rest.mem_met _).2 (.inl ((inner.mem_met _).2 (.inl List.mem_cons_self)))⟩
    · exact ih entry later

theorem met_below (preorder : Preorder g policy met pending order met') :
    ∀ d ∈ order, ∀ entry ∈ g.below policy d, ∃ e, entry = .ok e ∧ e.table.name ∈ met' := by
  induction preorder with
  | nil => exact fun d none => absurd none List.not_mem_nil
  | again _ _ ih => exact ih
  | first _ inner rest ihInner ihRest =>
    have kept {entry : Except Failure (Descriptor g.size)} :
        (∃ e, entry = .ok e ∧ e.table.name ∈ _) → ∃ e, entry = .ok e ∧ e.table.name ∈ _ :=
      fun ⟨e, same, met⟩ => ⟨e, same, (rest.mem_met _).2 (.inl met)⟩
    intro d member entry leads
    rcases List.mem_cons.1 member with rfl | member
    · exact kept (inner.met_pending entry leads)
    · rcases List.mem_append.1 member with within | behind
      · exact kept (ihInner d within entry leads)
      · exact ihRest d behind entry leads

end Preorder

section Ending

def unmet (g : ShapeGraph) (met : List String) : List String :=
  g.tableNames.filter fun name => decide (name ∉ met)

theorem without_unmet (name : String) (met : List String) : without name (g.unmet met) = g.unmet (name :: met) := by
  rw [without, unmet, unmet, List.filter_filter]
  apply List.filter_congr
  intro other _
  simp [bne, beq_eq_decide, not_or]

theorem mem_tableNames (i : Fin g.size) : (g.shape i).table ∈ g.tableNames :=
  List.mem_map_of_mem (List.mem_finRange i)

theorem relation_of_below {e : Descriptor g.size} (leads : .ok e ∈ g.below policy d) :
    ∃ r ∈ d.relations, (g.shape r.child).descriptor = .ok e := by
  unfold below at leads
  split at leads
  · cases leads
  · exact List.mem_map.1 leads

theorem mem_tableNames_of_below {e : Descriptor g.size} (leads : .ok e ∈ g.below policy d) :
    e.table.name ∈ g.tableNames := by
  obtain ⟨r, -, described⟩ := relation_of_below leads
  rw [name_of_described described]
  exact mem_tableNames r.child

/-- Every name that is met for the first time leaves fewer to be met. -/
theorem unmet_length_lt {name : String} (listed : name ∈ g.tableNames) (fresh : name ∉ met) :
    (g.unmet (name :: met)).length < (g.unmet met).length := by
  rw [← without_unmet]
  apply length_without_lt
  exact List.mem_filter.2 ⟨listed, decide_eq_true fresh⟩

theorem unmet_length_le (kept : ∀ name ∈ met, name ∈ met') : (g.unmet met').length ≤ (g.unmet met).length := by
  apply List.Sublist.length_le
  apply List.monotone_filter_right
  intro name fresh
  rw [decide_eq_true_eq] at fresh ⊢
  exact fun known => fresh (kept name known)

theorem exists_visit_of_listed (listed : ∀ d, .ok d ∈ pending → d.table.name ∈ g.tableNames) :
    ∃ order outcome after, Visit g policy met pending db order outcome after := by
  -- The names left to be met bound the recursion into a descriptor, and those that come after it share that bound.
  induction size : (g.unmet met).length using Nat.strong_induction_on generalizing met pending db with
  | _ n deeper =>
    subst size
    induction pending generalizing db with
    | nil => exact ⟨[], _, db, .done⟩
    | cons entry later ih =>
      have others : ∀ d, .ok d ∈ later → d.table.name ∈ g.tableNames :=
        fun d member => listed d (List.mem_cons_of_mem _ member)
      cases entry with
      | error failure => exact ⟨[], _, db, .undescribed⟩
      | ok d =>
        by_cases known : d.table.name ∈ met
        · obtain ⟨order, outcome, after, rest⟩ := ih others
          exact ⟨order, outcome, after, .again known rest⟩
        · have fewer : (g.unmet (d.table.name :: met)).length < (g.unmet met).length :=
            unmet_length_lt (listed d List.mem_cons_self) known
          rcases aligned : (Database.align policy d.table).run db with ⟨failure | ⟨⟩, between⟩
          · exact ⟨[d], _, between, .rejected known aligned⟩
          · have within : ∃ order outcome left,
                Visit g policy (d.table.name :: met) (g.below policy d) between order outcome left :=
              deeper _ fewer (fun e leads => mem_tableNames_of_below leads) rfl
            obtain ⟨order, outcome, left, inner⟩ := within
            cases outcome with
            | error failure => exact ⟨d :: order, _, left, .stopped known aligned inner⟩
            | ok met' =>
              have kept : ∀ name ∈ d.table.name :: met, name ∈ met' :=
                fun name known => ((inner.preorder rfl).mem_met name).2 (.inl known)
              have behind : ∃ order' outcome after, Visit g policy met' later left order' outcome after :=
                deeper _ ((unmet_length_le kept).trans_lt fewer) others rfl
              obtain ⟨order', outcome, after, rest⟩ := behind
              exact ⟨d :: (order ++ order'), outcome, after, .through known aligned inner rest⟩

/-- From whatever root, under whatever policy and on whatever database, the recursion ends. -/
theorem exists_visit (g : ShapeGraph) (policy : Policy) (d : Descriptor g.size) (db : Database) :
    ∃ order outcome after, Visit g policy [] [.ok d] db order outcome after := by
  rcases aligned : (Database.align policy d.table).run db with ⟨failure | ⟨⟩, between⟩
  · exact ⟨[d], _, between, .rejected List.not_mem_nil aligned⟩
  · have within : ∃ order outcome left, Visit g policy [d.table.name] (g.below policy d) between order outcome left :=
      exists_visit_of_listed fun e leads => mem_tableNames_of_below leads
    obtain ⟨order, outcome, left, inner⟩ := within
    cases outcome with
    | error failure => exact ⟨d :: order, _, left, .stopped List.not_mem_nil aligned inner⟩
    | ok met' => exact ⟨d :: (order ++ []), _, left, .through List.not_mem_nil aligned inner .done⟩

end Ending

section Reaching

variable {later : List (Fin g.size)} {child : Fin g.size} {failure : Failure}

theorem reachFrom_undescribed {unmet : List String} (described : (g.shape child).descriptor = .error failure) :
    g.reachFrom unmet (child :: later) = [.error failure] := by
  rw [reachFrom, described]

theorem reachFrom_again (described : (g.shape child).descriptor = .ok d) (known : d.table.name ∈ met) :
    g.reachFrom (g.unmet met) (child :: later) = g.reachFrom (g.unmet met) later := by
  have met : (g.shape child).table ∉ g.unmet met := by
    rw [← name_of_described described]
    intro listed
    exact of_decide_eq_true (List.mem_filter.1 listed).2 known
  rw [reachFrom, described]
  simp only [dif_neg met]

theorem reachFrom_first (described : (g.shape child).descriptor = .ok d) (fresh : d.table.name ∉ met) :
    g.reachFrom (g.unmet met) (child :: later) = .ok d.table ::
      g.reachFrom (g.unmet (d.table.name :: met)) (d.relations.map Relation.child ++ later) := by
  have named := name_of_described described
  have unmet : (g.shape child).table ∈ g.unmet met :=
    List.mem_filter.2 ⟨mem_tableNames child, decide_eq_true (named ▸ fresh)⟩
  rw [reachFrom, described]
  simp only [dif_pos unmet, without_unmet, named]

theorem reach_eq (g : ShapeGraph) (d : Descriptor g.size) :
    g.reach d = .ok d.table :: g.reachFrom (g.unmet [d.table.name]) (d.relations.map Relation.child) := by
  rw [reach, ← without_unmet]
  have all : g.unmet [] = g.tableNames := by simp [unmet]
  rw [all]

def described (g : ShapeGraph) (children : List (Fin g.size)) : List (Except Failure (Descriptor g.size)) :=
  children.map fun child => (g.shape child).descriptor

theorem below_eq (deep : policy.contains .shallowOnly = false) (d : Descriptor g.size) :
    g.below policy d = g.described (d.relations.map Relation.child) := by
  rw [below, deep, if_neg (by decide), described, List.map_map]
  rfl

/-- The search with one list of all that is pending leads to the tables in their depth-first order. -/
theorem Preorder.reachFrom (deep : policy.contains .shallowOnly = false) (preorder : Preorder g policy met pending order met')
    (children : List (Fin g.size)) (same : pending = g.described children) (later : List (Fin g.size)) :
    g.reachFrom (g.unmet met) (children ++ later) =
      order.map (fun d => .ok d.table) ++ g.reachFrom (g.unmet met') later := by
  induction preorder generalizing children later with
  | nil =>
    obtain rfl := List.map_eq_nil_iff.1 same.symm
    rfl
  | again known rest ih =>
    obtain ⟨child, children, rfl, head, tail⟩ := List.map_eq_cons_iff.1 same.symm
    rw [List.cons_append, reachFrom_again head known, ih children tail.symm later]
  | first fresh inner rest ihInner ihRest =>
    obtain ⟨child, children, rfl, head, tail⟩ := List.map_eq_cons_iff.1 same.symm
    rw [List.cons_append, reachFrom_first head fresh, ihInner _ (below_eq deep _) _, ihRest children tail.symm later]
    simp

theorem below_of_shallow (shallow : policy.contains .shallowOnly = true) (d : Descriptor g.size) :
    g.below policy d = [] := by
  rw [below, if_pos shallow]

theorem Preorder.reached (preorder : Preorder g policy [] [.ok d] order met') :
    Database.reached g policy d = (order.map Descriptor.table).map .ok := by
  cases preorder with
  | again known => cases known
  | first fresh inner rest =>
    cases rest
    unfold Database.reached
    split
    · rename_i shallow
      rw [below_of_shallow shallow] at inner
      cases inner
      rfl
    · rename_i deep
      rw [Bool.not_eq_true] at deep
      have all := inner.reachFrom deep _ (below_eq deep d) []
      rw [List.append_nil, ShapeGraph.reachFrom, List.append_nil] at all
      rw [reach_eq, all, List.append_nil, List.map_map]
      rfl

theorem Preorder.eq_singleton (preorder : Preorder g policy [] [.ok d] order met')
    (shallow : policy.contains .shallowOnly = true) : order = [d] := by
  cases preorder with
  | again known => cases known
  | first fresh inner rest =>
    cases rest
    rw [below_of_shallow shallow] at inner
    cases inner
    rfl

theorem run_alignAll_cons (policy : Policy) (t : Table) (tables : List (Except Failure Table)) (db : Database) :
    (∀ failure after, (Database.align policy t).run db = (.error failure, after) →
      (Database.alignAll policy (.ok t :: tables)).run db = (.error failure, after)) ∧
    ∀ between, (Database.align policy t).run db = (.ok (), between) →
      (Database.alignAll policy (.ok t :: tables)).run db = (Database.alignAll policy tables).run between := by
  have first : Database.alignAll policy (.ok t :: tables) =
      Database.align policy t >>= fun _ => Database.alignAll policy tables := rfl
  constructor
  · intro failure after aligned
    rw [first, run_bind, aligned]
  · intro between aligned
    rw [first, run_bind, aligned]

def carriedOn (g : ShapeGraph) (policy : Policy) (later : List (Fin g.size)) (after : Database) :
    Except Failure (List String) → Except Failure Unit × Database
  | .ok met => (Database.alignAll policy (g.reachFrom (g.unmet met) later)).run after
  | .error failure => (.error failure, after)

/-- A recursion does what bringing the tables that it leads to in line does, and goes on with those that come later. -/
theorem Visit.run (deep : policy.contains .shallowOnly = false) (visit : Visit g policy met pending db order outcome after)
    (children : List (Fin g.size)) (same : pending = g.described children) (later : List (Fin g.size)) :
    (Database.alignAll policy (g.reachFrom (g.unmet met) (children ++ later))).run db =
      g.carriedOn policy later after outcome := by
  induction visit generalizing children later with
  | done =>
    obtain rfl := List.map_eq_nil_iff.1 same.symm
    rfl
  | undescribed =>
    obtain ⟨child, children, rfl, head, tail⟩ := List.map_eq_cons_iff.1 same.symm
    rw [List.cons_append, reachFrom_undescribed head]
    rfl
  | again known rest ih =>
    obtain ⟨child, children, rfl, head, tail⟩ := List.map_eq_cons_iff.1 same.symm
    rw [List.cons_append, reachFrom_again head known, ih children tail.symm later]
  | rejected fresh aligned =>
    obtain ⟨child, children, rfl, head, tail⟩ := List.map_eq_cons_iff.1 same.symm
    rw [List.cons_append, reachFrom_first head fresh]
    exact (run_alignAll_cons _ _ _ _).1 _ _ aligned
  | stopped fresh aligned inner ih =>
    obtain ⟨child, children, rfl, head, tail⟩ := List.map_eq_cons_iff.1 same.symm
    rw [List.cons_append, reachFrom_first head fresh]
    exact ((run_alignAll_cons _ _ _ _).2 _ aligned).trans (ih _ (below_eq deep _) _)
  | through fresh aligned inner rest ihInner ihRest =>
    obtain ⟨child, children, rfl, head, tail⟩ := List.map_eq_cons_iff.1 same.symm
    rw [List.cons_append, reachFrom_first head fresh]
    exact ((run_alignAll_cons _ _ _ _).2 _ aligned).trans
      ((ihInner _ (below_eq deep _) _).trans (ihRest children tail.symm later))

theorem Visit.run_below {between : Database} (visit : Visit g policy [d.table.name] (g.below policy d) between order outcome after) :
    (Database.alignAll policy (Database.reached g policy d).tail).run between = (outcome.map fun _ => (), after) := by
  unfold Database.reached
  split
  · rename_i shallow
    rw [below_of_shallow shallow] at visit
    cases visit
    rfl
  · rename_i deep
    rw [Bool.not_eq_true] at deep
    have all := visit.run deep _ (below_eq deep d) []
    rw [List.append_nil] at all
    rw [reach_eq, List.tail_cons, all]
    cases outcome with
    | error failure => rfl
    | ok met' =>
      rw [carriedOn, ShapeGraph.reachFrom]
      rfl

theorem Visit.run_reached (visit : Visit g policy [] [.ok d] db order outcome after) :
    (Database.alignAll policy (Database.reached g policy d)).run db = (outcome.map fun _ => (), after) := by
  have reached : Database.reached g policy d = .ok d.table :: (Database.reached g policy d).tail := by
    unfold Database.reached
    split <;> rfl
  rw [reached]
  cases visit with
  | again known => cases known
  | rejected fresh aligned => exact (run_alignAll_cons _ _ _ _).1 _ _ aligned
  | stopped fresh aligned inner => exact ((run_alignAll_cons _ _ _ _).2 _ aligned).trans inner.run_below
  | through fresh aligned inner rest =>
    cases rest
    exact ((run_alignAll_cons _ _ _ _).2 _ aligned).trans inner.run_below

end Reaching

end ShapeGraph

end RecordMapper
