import Mathlib.Data.List.Forall2
import Mathlib.Data.List.Perm.Basic

namespace RecordMapper

variable {σ ε α β : Type}

@[simp] theorem bind_eq_ok {x : Except ε α} {f : α → Except ε β} {b : β} :
    x >>= f = .ok b ↔ ∃ a, x = .ok a ∧ f a = .ok b := by
  cases x with
  | error e => simp [bind, Except.bind]
  | ok a => simp [bind, Except.bind]

theorem bind_unit_eq_ok {x : Except ε Unit} {f : Unit → Except ε β} {b : β} :
    x >>= f = .ok b ↔ x = .ok () ∧ f () = .ok b := by
  cases x with
  | error e => simp [bind, Except.bind]
  | ok a => simp [bind, Except.bind]

@[simp] theorem pure_eq_ok {a b : α} : (pure a : Except ε α) = .ok b ↔ a = b := by
  simp [pure, Except.pure]

@[simp] theorem throw_ne_ok {e : ε} {a : α} : (throw e : Except ε α) ≠ .ok a := by
  simp [throw, throwThe, MonadExceptOf.throw]

@[simp] theorem mapError_eq_ok {ε' : Type} {x : Except ε α} {f : ε → ε'} {a : α} :
    x.mapError f = .ok a ↔ x = .ok a := by
  cases x <;> simp [Except.mapError]

theorem mapM_eq_ok {f : α → Except ε β} {entries : List α} {results : List β} :
    entries.mapM f = .ok results ↔ List.Forall₂ (fun a b => f a = .ok b) entries results := by
  induction entries generalizing results with
  | nil => rw [List.mapM_nil, pure_eq_ok, List.forall₂_nil_left_iff, eq_comm]
  | cons a entries ih =>
    rw [List.mapM_cons, List.forall₂_cons_left_iff]
    simp only [bind_eq_ok, pure_eq_ok, ih]
    constructor
    · rintro ⟨b, first, rest, others, rfl⟩
      exact ⟨b, rest, first, others, rfl⟩
    · rintro ⟨b, rest, first, others, rfl⟩
      exact ⟨b, first, rest, others, rfl⟩

theorem map_eq_ok {x : Except ε α} {f : α → β} {b : β} : x.map f = .ok b ↔ ∃ a, x = .ok a ∧ f a = b := by
  cases x <;> simp [Except.map]

theorem map_eq_error {x : Except ε α} {f : α → β} {e : ε} : x.map f = .error e ↔ x = .error e := by
  cases x <;> simp [Except.map]

theorem mapError_ne {ε' : Type} {x : Except ε α} {f : ε → ε'} {e' : ε'} (other : ∀ e, f e ≠ e') :
    x.mapError f ≠ .error e' := by
  cases x with
  | error e => exact fun same => other e (Except.error.inj same)
  | ok a => exact fun same => by cases same

theorem bind_eq_error {x : Except ε α} {f : α → Except ε β} {e : ε} (failed : x >>= f = .error e) :
    x = .error e ∨ ∃ a, x = .ok a ∧ f a = .error e := by
  cases x with
  | error e' => exact .inl (congrArg Except.error (Except.error.inj failed))
  | ok a => exact .inr ⟨a, rfl, failed⟩

theorem foldlM_eq_error {f : β → α → Except ε β} {entries : List α} {start : β} {e : ε}
    (failed : entries.foldlM f start = .error e) : ∃ a ∈ entries, ∃ b, f b a = .error e := by
  induction entries generalizing start with
  | nil => cases failed
  | cons a entries ih =>
    rw [List.foldlM_cons] at failed
    rcases bind_eq_error failed with first | ⟨next, -, rest⟩
    · exact ⟨a, List.mem_cons_self, start, first⟩
    · obtain ⟨a', later, b, failed⟩ := ih rest
      exact ⟨a', List.mem_cons_of_mem _ later, b, failed⟩

theorem mapM_eq_error {f : α → Except ε β} {entries : List α} {e : ε} (failed : entries.mapM f = .error e) :
    ∃ a ∈ entries, f a = .error e := by
  induction entries with
  | nil => cases failed
  | cons a entries ih =>
    rw [List.mapM_cons] at failed
    rcases bind_eq_error failed with first | ⟨b, -, rest⟩
    · exact ⟨a, List.mem_cons_self, first⟩
    · rcases bind_eq_error rest with failed | ⟨_, -, none⟩
      · obtain ⟨a', later, failed⟩ := ih failed
        exact ⟨a', List.mem_cons_of_mem _ later, failed⟩
      · cases none

theorem forIn_eq_ok {body : α → PUnit → Except ε (ForInStep PUnit)} {entries : List α}
    (each : ∀ a ∈ entries, body a ⟨⟩ = .ok (.yield ⟨⟩)) : forIn entries PUnit.unit body = .ok ⟨⟩ := by
  induction entries with
  | nil => rfl
  | cons a entries ih =>
    rw [List.forall_mem_cons] at each
    rw [List.forIn_cons, each.1]
    exact ih each.2

theorem isOk_iff {x : Except ε α} : x.isOk = true ↔ ∃ a, x = .ok a := by
  cases x <;> simp [Except.isOk, Except.toBool]

theorem isOk_eq_false_iff {x : Except ε α} : x.isOk = false ↔ ∃ e, x = .error e := by
  cases x <;> simp [Except.isOk, Except.toBool]

/-- A traversal succeeds exactly if every step does. -/
theorem isOk_mapM (f : α → Except ε β) (entries : List α) :
    (entries.mapM f).isOk = entries.all fun a => (f a).isOk := by
  induction entries with
  | nil => rfl
  | cons a entries ih =>
    rw [List.mapM_cons, List.all_cons, ← ih]
    cases f a with
    | error e => rfl
    | ok b => cases entries.mapM f <;> rfl

theorem exists_mapM_iff {f : α → Except ε β} {entries : List α} :
    (∃ results, entries.mapM f = .ok results) ↔ ∀ a ∈ entries, ∃ b, f a = .ok b := by
  simp only [← isOk_iff, isOk_mapM, List.all_eq_true]

theorem mapM_perm {f : α → Except ε β} {entries others : List α} {results results' : List β}
    (perm : entries.Perm others) (read : entries.mapM f = .ok results) (also : others.mapM f = .ok results') :
    results.Perm results' := by
  have outcomes {entries : List α} {results : List β} (read : entries.mapM f = .ok results) :
      entries.map f = results.map .ok := by
    rw [mapM_eq_ok] at read
    exact List.forall₂_eq_eq_eq ▸ List.forall₂_map_right_iff.2 (List.forall₂_map_left_iff.2 read)
  apply (List.map_perm_map_iff fun a b same => Except.ok.inj (ε := ε) same).1
  rw [← outcomes read, ← outcomes also]
  exact perm.map f

theorem forall₂_getElem? {α β : Type} {R : α → β → Prop} {as : List α} {bs : List β} (all : List.Forall₂ R as bs)
    {j : Nat} {a : α} (here : as[j]? = some a) : ∃ b, bs[j]? = some b ∧ R a b := by
  induction all generalizing j with
  | nil => simp at here
  | cons first rest ih =>
    cases j with
    | zero =>
      obtain rfl := Option.some.inj here
      exact ⟨_, rfl, first⟩
    | succ j => exact ih here

theorem run_bind (act : ExceptT ε (StateM σ) α) (next : α → ExceptT ε (StateM σ) β) (s : σ) :
    (act >>= next).run s =
      match act.run s with
      | (.ok a, s) => (next a).run s
      | (.error e, s) => (.error e, s) := by
  simp only [bind, ExceptT.bind, ExceptT.run, ExceptT.mk, StateT.bind, ExceptT.bindCont]
  rcases act s with ⟨_ | _, _⟩ <;> rfl

theorem run_bind_ok {act : ExceptT ε (StateM σ) α} {next : α → ExceptT ε (StateM σ) β} {s : σ} {b : β}
    (done : ((act >>= next).run s).1 = .ok b) :
    ∃ a after, act.run s = (.ok a, after) ∧ ((next a).run after).1 = .ok b := by
  rw [run_bind] at done
  rcases first : act.run s with ⟨failure | a, after⟩
  · rw [first] at done
    cases done
  · rw [first] at done
    exact ⟨a, after, rfl, done⟩

theorem run_pure (a : α) (s : σ) : (pure a : ExceptT ε (StateM σ) α).run s = (.ok a, s) := rfl

end RecordMapper
