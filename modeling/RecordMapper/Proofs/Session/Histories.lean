import RecordMapper.Proofs.Session.Requests

namespace RecordMapper

open RecordMapper.Store

variable {g : ShapeGraph} {n : Nat}

inductive Step.Asks (may : Request g → Prop) : Step g n → Prop where
  | request {k : Fin n} {request : Request g} {caught : Bool} (allowed : may request) :
      Asks may (.request k request caught)
  | unit {k : Fin n} {steps : List (Step g n)} {ending : Ending} {caught : Bool}
      (all : ∀ step ∈ steps, Asks may step) : Asks may (.unit k steps ending caught)

/-- A request whose statement the caller has not written, and that brings tables in line only if that is allowed. -/
structure Request.Typed (shaping : Bool) (request : Request g) : Prop where
  mapped : request.isRaw = false
  shapes : request.reshapes = true → shaping = true

theorem Request.Typed.confined {shaping : Bool} {request : Request g} (typed : request.Typed shaping) :
    Database.Confined (Issued shaping) request.answer :=
  (request.confined typed.mapped).mono fun _ issued => ⟨issued.mapped, fun shapes => typed.shapes (issued.shapes shapes)⟩

namespace Session

variable {good : Content → Prop} {shaping : Bool} {s : Session n} {f k : Fin n}

/-- Something holds of a file, and of all that the handles on it see. -/
def Keeps (good : Content → Prop) (s : Session n) (f : Fin n) : Prop :=
  ∀ j, (s.handle j).file = f → (s.database j).engine.outline.Holds good

theorem Keeps.mono {better : Content → Prop} (keeps : s.Keeps good f) (weaker : ∀ c, good c → better c) :
    s.Keeps better f :=
  fun j within => (keeps j within).mono weaker

theorem file_replace (db : Database) (j : Fin n) : ((s.replace k db).handle j).file = (s.handle j).file := by
  by_cases own : j = k
  · subst own
    have left : (s.replace j db).handle j =
        ⟨(s.handle j).file, db.engine.store.connection, db.nest, { db.engine.log with forwarded := [] }⟩ :=
      handle_setHandle j s _
    rw [left]
  · rw [handle_replace_other own]

theorem handle_drain (s : Session n) (j : Fin n) :
    s.drain.2.handle j = { s.handle j with log := (s.handle j).log.drain.2 } :=
  Vector.getElem_map _ j.isLt

theorem outline_database (s : Session n) (j : Fin n) : (s.database j).engine.outline =
    ⟨s.content (s.handle j).file, (s.handle j).connection.explicit, (s.handle j).connection.enforces,
      (s.handle j).connection.view.map fun v => (v.content, v.changed)⟩ := rfl

theorem outline_replace (db : Database) : ((s.replace k db).database k).engine.outline = db.engine.outline := by
  have left : (s.replace k db).handle k =
      ⟨(s.handle k).file, db.engine.store.connection, db.nest, { db.engine.log with forwarded := [] }⟩ :=
    handle_setHandle k s _
  rw [outline_database, left, content_replace, if_pos rfl]
  rfl

theorem Keeps.replace {db : Database} (keeps : s.Keeps good f)
    (own : (s.handle k).file = f → db.engine.outline.Holds good) : (s.replace k db).Keeps good f := by
  intro j within
  rw [file_replace] at within
  by_cases same : j = k
  · subst same
    rw [outline_replace]
    exact own within
  · have before := keeps j within
    rw [outline_database] at before ⊢
    rw [handle_replace_other same, content_replace]
    split
    · rename_i shared
      exact ⟨(own (shared.symm.trans within)).kept, before.seen, before.outside⟩
    · exact before

theorem Keeps.setNest (keeps : s.Keeps good f) (nest : Nest) :
    (s.setHandle k { s.handle k with nest }).Keeps good f := by
  intro j within
  by_cases same : j = k
  · subst same
    rw [handle_setHandle] at within
    have before := keeps j within
    rw [outline_database] at before ⊢
    rw [handle_setHandle]
    exact before
  · have other := handle_setHandle_other (s := s) same { s.handle k with nest }
    rw [other] at within
    have before := keeps j within
    rw [outline_database] at before ⊢
    rw [other]
    exact before

theorem Keeps.drain (keeps : s.Keeps good f) : s.drain.2.Keeps good f := by
  intro j within
  rw [handle_drain] at within
  have before := keeps j within
  rw [outline_database] at before ⊢
  rw [handle_drain]
  exact before

theorem Keeps.report (keeps : s.Keeps good f) (outcome : Except Refusal (Answer g)) (inner : Option (List (Report g))) :
    (s.report k outcome inner).2.Keeps good f :=
  keeps.drain

theorem Keeps.ask (kept : Content.KeptBy (Issued shaping) good) (keeps : s.Keeps good f) {request : Request g}
    (typed : request.Typed shaping) : (s.ask k request).2.Keeps good f :=
  keeps.replace fun within => typed.confined.keeps good kept _ (keeps k within)

theorem Keeps.of_outside {better : Content → Prop} (keeps : s.Keeps good f)
    (outside : ∀ j, (s.handle j).file = f → (s.database j).engine.outline.explicit = false) (own : better (s.content f)) :
    s.Keeps better f := by
  intro j within
  have unseen := (keeps j within).outside (outside j within)
  refine ⟨?_, fun content changed seen => ?_, fun _ => unseen⟩
  · rw [outline_database, within]
    exact own
  · rw [unseen] at seen
    cases seen

/-- So many units are open on a handle, inside a transaction unless there are none. -/
def Stands (s : Session n) (j : Fin n) (frames : Nat) : Prop :=
  Database.host.Stands frames (s.database j)

theorem Stands.of_handle {after : Session n} {j : Fin n} {frames : Nat} (stands : s.Stands j frames)
    (nest : (after.handle j).nest = (s.handle j).nest)
    (explicit : (after.handle j).connection.explicit = (s.handle j).connection.explicit) : after.Stands j frames :=
  UnitHost.Stands.of_same stands (congrArg not explicit) (congrArg Nest.depth nest)

theorem Stands.replace_other {db : Database} {j : Fin n} {frames : Nat} (stands : s.Stands j frames) (other : j ≠ k) :
    (s.replace k db).Stands j frames :=
  stands.of_handle (congrArg Handle.nest (handle_replace_other other db))
    (congrArg (fun own : Handle n => own.connection.explicit) (handle_replace_other other db))

theorem Stands.ask {j : Fin n} {frames : Nat} (stands : s.Stands j frames) {request : Request g}
    (typed : request.Typed shaping) : (s.ask k request).2.Stands j frames := by
  by_cases same : j = k
  · subst same
    exact (typed.confined.stands frames _ stands).of_same (autocommit_replace j s _)
      (congrArg Nest.depth (nest_replace j s _))
  · exact stands.replace_other same

theorem Stands.report {j : Fin n} {frames : Nat} (stands : s.Stands j frames) (outcome : Except Refusal (Answer g))
    (inner : Option (List (Report g))) : (s.report k outcome inner).2.Stands j frames := by
  have nest : (s.drain.2.handle j).nest = (s.handle j).nest := by rw [handle_drain]
  have explicit : (s.drain.2.handle j).connection.explicit = (s.handle j).connection.explicit := by rw [handle_drain]
  exact stands.of_handle nest explicit

theorem handle_start {settings : Settings} {openable : List String} {keeps : Bool}
    (started : start settings openable n keeps = .ok s) (j : Fin n) :
    s.content (s.handle j).file = .empty ∧ (s.handle j).nest = .initial ∧
      (s.handle j).connection = .make j settings.foreignKeys .empty := by
  unfold start at started
  split at started
  · cases started
  · obtain rfl := Except.ok.inj started
    have blank (i : Fin n) : ((Vector.replicate n File.empty).get i).content = .empty :=
      congrArg File.content (Vector.getElem_replicate i.isLt)
    have opened (place : Place) : ((Vector.ofFn (openHandle settings place keeps)).map fun h : Handle n =>
        { h with log.forwarded := [] }).get j = { openHandle settings place keeps j with log.forwarded := [] } := by
      have own : (Vector.ofFn (openHandle settings place keeps))[j.val] = openHandle settings place keeps j :=
        Vector.getElem_ofFn j.isLt
      refine (Vector.getElem_map _ j.isLt).trans ?_
      rw [own]
    rw [handle, opened, content, blank]
    exact ⟨rfl, rfl, rfl⟩

theorem keeps_start {settings : Settings} {openable : List String} {keeps : Bool}
    (started : start settings openable n keeps = .ok s) (empty : good .empty) : s.Keeps good f := by
  intro j _
  obtain ⟨blank, -, connection⟩ := handle_start started j
  rw [outline_database, blank, connection]
  exact ⟨empty, fun _ _ none => absurd none (Option.some_ne_none _).symm, fun _ => rfl⟩

theorem stands_start {settings : Settings} {openable : List String} {keeps : Bool}
    (started : start settings openable n keeps = .ok s) (j : Fin n) : s.Stands j 0 := by
  obtain ⟨-, nest, connection⟩ := handle_start started j
  exact ⟨congrArg (fun own : Connection => !own.explicit) connection, Nat.zero_le _, fun _ => congrArg Nest.depth nest⟩

theorem Stands.idle {j : Fin n} (stands : s.Stands j 0) : Database.Idle (s.database j) := by
  refine ⟨decide_eq_false (Nat.not_lt.2 (Nat.le_of_eq (stands.shut rfl))), ?_⟩
  have autocommit : (!(s.database j).engine.outline.explicit) = true := stands.autocommit
  exact (Bool.not_eq_true' _).mp autocommit

end Session

variable {good : Content → Prop} {shaping : Bool} {f j : Fin n}

theorem runBody_keeps {holds : Session n → Prop} {steps : List (Step g n)}
    (each : ∀ step ∈ steps, ∀ s, holds s → holds (step.run s).2) (s : Session n) (before : holds s) :
    holds (runBody steps s).2.2 := by
  induction steps generalizing s with
  | nil =>
    rw [runBody]
    exact before
  | cons step rest ih =>
    have first := each step List.mem_cons_self s before
    rw [runBody]
    rcases ended : step.run s with ⟨report, after⟩
    rw [ended] at first
    simp only []
    split
    · exact first
    · exact ih (fun later member => each later (List.mem_cons_of_mem _ member)) after first

theorem Session.run_holds {holds : Session n → Prop} {steps : List (Step g n)}
    (each : ∀ step ∈ steps, ∀ s, holds s → holds (step.run s).2) (s : Session n) (before : holds s) :
    holds (s.run steps).2 := by
  induction steps generalizing s with
  | nil => exact before
  | cons step rest ih =>
    rw [Session.run]
    exact ih (fun later member => each later (List.mem_cons_of_mem _ member)) _ (each step List.mem_cons_self s before)

theorem Step.run_keeps (kept : Content.KeptBy (Issued shaping) good) {step : Step g n}
    (asks : step.Asks (Request.Typed shaping)) (s : Session n) (keeps : s.Keeps good f) :
    (step.run s).2.Keeps good f := by
  induction asks generalizing s with
  | @request k request caught typed =>
    rw [Step.run]
    exact (keeps.ask kept typed).report _ _
  | @unit k steps ending caught all ih =>
    rw [Step.run]
    refine Session.Keeps.report ?_ _ _
    refine (Session.host k).run_keeps (fun w : Session n × Option (List (Report g)) => w.1.Keeps good f)
      (fun nest w before => before.setNest nest) (fun c w before => ?_) (fun e w before => ?_) (fun w before => ?_) keeps
    · exact before.replace fun within => Database.control_holds c _ (before k within)
    · exact before.replace fun within => before k within
    · exact runBody_keeps ih w.1 before

/-- A step leaves as many units open on a handle as it finds. -/
theorem Step.run_stands {step : Step g n} (asks : step.Asks (Request.Typed shaping)) (s : Session n) {frames : Nat}
    (stands : s.Stands j frames) : (step.run s).2.Stands j frames := by
  induction asks generalizing s frames with
  | @request k request caught typed =>
    rw [Step.run]
    exact (stands.ask typed).report _ _
  | @unit k steps ending caught all ih =>
    have body (frames : Nat) (s : Session n) (before : s.Stands j frames) : (runBody steps s).2.2.Stands j frames :=
      runBody_keeps (fun step member s before => ih step member s before) s before
    rw [Step.run]
    refine Session.Stands.report ?_ _ _
    by_cases same : j = k
    · subst same
      refine UnitHost.Stands.of_same ((Session.host_obedient j).run_stands (fun frames w before => ?_)
        (stands.of_same rfl rfl)) rfl rfl
      exact (body frames w.1 (before.of_same rfl rfl)).of_same rfl rfl
    · refine (Session.host k).run_keeps (fun w : Session n × Option (List (Report g)) => w.1.Stands j frames)
        (fun nest w before => ?_) (fun c w before => before.replace_other same)
        (fun e w before => before.replace_other same) (fun w before => body frames w.1 before) stands
      have other : (w.1.setHandle k { w.1.handle k with nest }).handle j = w.1.handle j :=
        Session.handle_setHandle_other same _
      exact before.of_handle (congrArg Handle.nest other)
        (congrArg (fun own : Handle n => own.connection.explicit) other)

/-- What the commands keep that may be asked for holds of a file, and of all that is seen of it, after any history. -/
theorem Session.run_keeps (kept : Content.KeptBy (Issued shaping) good) {steps : List (Step g n)}
    (asks : ∀ step ∈ steps, step.Asks (Request.Typed shaping)) (s : Session n) (keeps : s.Keeps good f) :
    (s.run steps).2.Keeps good f :=
  run_holds (fun step member s before => step.run_keeps kept (asks step member) s before) s keeps

/-- Sessions that steps lead to whose statements no caller has written. -/
def Session.Reached (s : Session n) : Prop :=
  ∃ settings openable keeps s₀, Session.start settings openable n keeps = .ok s₀ ∧
    ∃ (g : ShapeGraph) (steps : List (Step g n)), (∀ step ∈ steps, step.Asks (Request.Typed true)) ∧
      s = (s₀.run steps).2

theorem Session.Reached.keeps {s : Session n} (reached : s.Reached) (kept : Content.KeptBy (Issued true) good)
    (empty : good .empty) : s.Keeps good f := by
  obtain ⟨settings, openable, keeps, s₀, started, g, steps, asks, rfl⟩ := reached
  exact s₀.run_keeps kept asks (keeps_start started empty)

theorem Session.Reached.idle {s : Session n} (reached : s.Reached) (j : Fin n) : Database.Idle (s.database j) := by
  obtain ⟨settings, openable, keeps, s₀, started, g, steps, asks, rfl⟩ := reached
  have each : ∀ step ∈ steps, ∀ s : Session n, s.Stands j 0 → (step.run s).2.Stands j 0 :=
    fun step member s before => step.run_stands (asks step member) s before
  exact (s₀.run_holds each (stands_start started j)).idle

end RecordMapper
