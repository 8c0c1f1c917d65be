import RecordMapper.Proofs.Store.Effects

namespace RecordMapper.Store

/-- What of a state matters to transactions. `seen` is the content fixed by a transaction, and whether it has
    been changed since. -/
structure Outline where
  kept : Content
  explicit : Bool
  enforces : Bool
  seen : Option (Content × Bool)

namespace Outline

def content (o : Outline) : Content :=
  (o.seen.map Prod.fst).getD o.kept

def base (o : Outline) : Option Content :=
  if o.explicit then some o.kept else none

def published (o : Outline) : Content :=
  match o.seen with
  | some (content, true) => content
  | _ => o.kept

def closed (o : Outline) (kept : Content) : Outline :=
  ⟨kept, false, o.enforces, none⟩

def fixed (o : Outline) : Outline :=
  if o.explicit && o.seen.isNone then { o with seen := some (o.kept, false) } else o

def accepting (o : Outline) (command : Sql.Command) (effect : Effect) : Outline :=
  match o.fixed.seen with
  | some (_, changed) =>
    { o with seen := some (effect.content, changed || State.isChange effect || redefines command) }
  | none => { o with kept := effect.content }

@[simp] theorem kept_fixed (o : Outline) : o.fixed.kept = o.kept := by
  unfold fixed
  split <;> rfl

@[simp] theorem content_fixed (o : Outline) : o.fixed.content = o.content := by
  unfold fixed
  split
  · rename_i unseen
    have none : o.seen = none := by simpa using (Bool.and_eq_true_iff.1 unseen).2
    simp [content, none]
  · rfl

@[simp] theorem explicit_fixed (o : Outline) : o.fixed.explicit = o.explicit := by
  unfold fixed
  split <;> rfl

@[simp] theorem enforces_fixed (o : Outline) : o.fixed.enforces = o.enforces := by
  unfold fixed
  split <;> rfl

@[simp] theorem fixed_fixed (o : Outline) : o.fixed.fixed = o.fixed := by
  rw [fixed]
  split
  · rename_i unseen
    unfold fixed at unseen
    split at unseen
    · simp at unseen
    · contradiction
  · rfl

@[simp] theorem base_fixed (o : Outline) : o.fixed.base = o.base := by
  simp [base]

def Untouched (before after : Outline) : Prop :=
  after = before ∨ after = before.fixed

def Lapsed (before after : Outline) : Prop :=
  before.explicit = true ∧ after = before.closed before.kept

/-- How a command that neither begins nor ends a transaction ends: refused, read, or written. -/
inductive Ended (o : Outline) (command : Sql.Command) : Except FaultCause Rows → Outline → Prop where
  | refused {cause : FaultCause} {after : Outline} (touched : Untouched o after) :
      Ended o command (.error cause) after
  | read {after : Outline} (reading : writes o.content command = false) (touched : Untouched o after) :
      Ended o command (.ok (rowsOf o.content command)) after
  | written {effect : Effect} (writing : writes o.content command = true)
      (checked : checkCommand o.content o.enforces command = .ok ())
      (done : effectOf o.content o.enforces command = .ok effect) :
      Ended o command (.ok []) (o.accepting command effect)

end Outline

def demarcates : Sql.Command → Bool
  | .begin | .commit | .rollback => true
  | _ => false

def isControl : Sql.Command → Bool
  | .begin | .commit | .rollback | .insertOrRollback .. => true
  | _ => false

theorem isControl_of_demarcates {command : Sql.Command} (asks : demarcates command = true) :
    isControl command = true := by
  cases command <;> first | rfl | cases asks

namespace State

def outline (s : State) : Outline :=
  ⟨s.file.content, s.connection.explicit, s.connection.enforces,
    s.connection.view.map fun v => (v.content, v.changed)⟩

variable (s : State)

theorem content_eq : s.content = s.outline.content := by
  rcases s with ⟨file, ⟨id, enforces, explicit, view, changes, cached, loaded⟩⟩
  cases view <;> rfl

@[simp] theorem outline_loadSchema : s.loadSchema.outline = s.outline := rfl

@[simp] theorem outline_withChanges (n : Nat) : (s.withChanges n).outline = s.outline := rfl

@[simp] theorem outline_keep (sql : String) : (s.keep sql).outline = s.outline := rfl

@[simp] theorem outline_settle (sql : String) (command : Sql.Command) :
    (s.settle sql command).outline = s.outline := by
  unfold settle
  split <;> rfl

@[simp] theorem outline_takeLock : s.takeLock.outline = s.outline := by
  rcases s with ⟨file, ⟨id, enforces, explicit, view, changes, cached, loaded⟩⟩
  cases view <;> rfl

@[simp] theorem outline_fixView : s.fixView.outline = s.outline.fixed := by
  rcases s with ⟨file, ⟨id, enforces, explicit, view, changes, cached, loaded⟩⟩
  cases explicit <;> cases view <;> rfl

theorem checkAnew_outline (command : Sql.Command) : (s.checkAnew command).2.outline = s.outline := by
  unfold checkAnew
  split <;> rfl

theorem check_outline (command : Sql.Command) : (s.check command).2.outline = s.outline := by
  unfold check
  split
  · exact s.checkAnew_outline command
  · split
    · rfl
    · split
      · exact s.checkAnew_outline command
      · rfl

theorem prepare_outline (sql : String) (command : Sql.Command) : (s.prepare sql command).2.outline = s.outline := by
  have checked := s.check_outline command
  unfold prepare
  split
  · rfl
  · split
    · rename_i failed
      rw [failed] at checked
      exact checked
    · rename_i passed
      rw [passed] at checked
      exact checked

theorem prepare_anywhere {command : Sql.Command}
    (checked : ∀ c, checkCommand c s.connection.enforces command = .ok ()) (sql : String) :
    ∃ after, s.prepare sql command = (.ok (), after) := by
  unfold prepare check checkAnew
  split
  · exact ⟨_, rfl⟩
  · simp only [checked]
    cases s.connection.loaded <;> exact ⟨_, rfl⟩

@[simp] theorem outline_setExpired (sql : String) (expired : Bool) :
    ({ s with connection := s.connection.setExpired sql expired } : State).outline = s.outline := rfl

theorem outline_lock (locks : Bool) :
    s.outline.Untouched (if locks then s.fixView.takeLock else s).outline := by
  cases locks with
  | false => exact .inl rfl
  | true => exact .inr (by simp)

theorem refuseStale_failed (sql : String) (command : Sql.Command) (cause : FaultCause) :
    (∃ fault, (s.refuseStale sql command cause).1 = .error fault) ∧
      s.outline.Untouched (s.refuseStale sql command cause).2.outline := by
  simp only [refuseStale]
  split
  · exact ⟨⟨_, rfl⟩, .inl rfl⟩
  · exact ⟨⟨_, rfl⟩, s.outline_lock _⟩

theorem outline_accept_fixed (command : Sql.Command) (effect : Effect) :
    (s.fixView.takeLock.accept command effect).outline = s.outline.accepting command effect := by
  rcases s with ⟨file, ⟨id, enforces, explicit, view, changes, cached, loaded⟩⟩
  cases explicit <;> cases view <;> rfl

/-- A change that is refused touches nothing, and one that is not is its effect. -/
theorem write_cases (command : Sql.Command) :
    (∃ fault, (s.write command).1 = .error fault ∧ s.outline.Untouched (s.write command).2.outline) ∨
      ∃ effect, effectOf s.content s.connection.enforces command = .ok effect ∧ (s.write command).1 = .ok [] ∧
        (s.write command).2.outline = s.outline.accepting command effect ∧
        ∀ n, effect.counted = some n → (s.write command).2.connection.changes = n := by
  have locked : s.fixView.takeLock.outline = s.outline.fixed := by simp
  have content : s.fixView.takeLock.content = s.content := by simp [content_eq, locked]
  have enforces : s.fixView.takeLock.connection.enforces = s.connection.enforces :=
    congrArg Outline.enforces locked |>.trans (Outline.enforces_fixed _)
  simp only [write]
  split
  · refine .inl ⟨_, rfl, .inl ?_⟩
    split <;> simp
  · split
    · refine .inl ⟨_, rfl, .inr ?_⟩
      split <;> simp
    · rename_i effect ran
      obtain ⟨-, -, done⟩ := bind_eq_ok.1 ran
      rw [content, enforces] at done
      split
      · refine .inl ⟨_, rfl, .inr ?_⟩
        split <;> simp
      · refine .inr ⟨effect, done, rfl, ?_, ?_⟩
        · rw [outline_loadSchema, ← outline_accept_fixed]
          split <;> simp
        · intro n counted
          simp only [counted]
          rfl

theorem runPlain_ended (sql : String) (command : Sql.Command) :
    s.outline.Ended command (s.runPlain sql command).1 (s.runPlain sql command).2.outline := by
  have enforces : s.connection.enforces = s.outline.enforces := rfl
  unfold runPlain
  split
  · rw [content_eq]
    refine .read ?_ (.inl rfl)
    cases command <;> simp_all [looks, writes]
  · split
    · obtain ⟨⟨fault, refused⟩, touched⟩ := s.refuseStale_failed sql command _
      rw [refused]
      exact .refused touched
    · rename_i checked
      split
      · rename_i writing
        rcases s.write_cases command with ⟨fault, failed, touched⟩ | ⟨effect, done, succeeded, taken, -⟩
        · rcases written : s.write command with ⟨outcome, after⟩
          rw [written] at failed touched
          cases failed
          exact .refused touched
        · rcases written : s.write command with ⟨outcome, after⟩
          rw [written] at succeeded taken
          cases succeeded
          rw [content_eq, enforces] at done checked
          rw [content_eq] at writing
          simpa [taken] using Outline.Ended.written writing checked done
      · rename_i reading
        have seen : s.fixView.loadSchema.content = s.outline.content := by simp [content_eq]
        rw [content_eq] at reading
        simp only [seen]
        cases examine s.outline.content command with
        | error cause => exact .refused (.inr s.outline_fixView)
        | ok => exact .read (by simpa using reading) (.inr s.outline_fixView)

theorem run_plain (sql : String) {command : Sql.Command} (plain : isControl command = false) :
    s.run sql command = s.runPlain sql command := by
  unfold run
  split
  iterate 4 cases plain
  rfl

theorem run_ended (sql : String) (command : Sql.Command) (plain : isControl command = false) :
    s.outline.Ended command (s.run sql command).1 (s.run sql command).2.outline := by
  rw [s.run_plain sql plain]
  exact s.runPlain_ended sql command

theorem changes_settle (sql : String) (command : Sql.Command) :
    (s.settle sql command).connection.changes = s.connection.changes := by
  unfold settle
  split <;> rfl

theorem run_changes {sql : String} {command : Sql.Command} (plain : isControl command = false)
    (writing : writes s.content command = true) {rows : Rows} (succeeded : (s.run sql command).1 = .ok rows) :
    ∃ effect, effectOf s.content s.connection.enforces command = .ok effect ∧
      ∀ n, effect.counted = some n → (s.run sql command).2.connection.changes = n := by
  rw [s.run_plain sql plain] at succeeded ⊢
  unfold runPlain at succeeded ⊢
  split at succeeded
  · rename_i blind
    cases command <;> simp_all [looks, writes]
  · rename_i seeing
    split at succeeded
    · rename_i fault refused
      obtain ⟨⟨_, stale⟩, -⟩ := s.refuseStale_failed sql command fault.cause
      rw [stale] at succeeded
      cases succeeded
    · rename_i checked
      simp only [writing, if_true, seeing] at succeeded ⊢
      rcases s.write_cases command with ⟨fault, failed, -⟩ | ⟨effect, done, written, -, changes⟩
      · rcases outcome : s.write command with ⟨_ | _, after⟩
        · rw [outcome] at succeeded
          cases succeeded
        · rw [outcome] at failed
          cases failed
      · refine ⟨effect, done, fun n counted => ?_⟩
        have told := changes n counted
        rcases outcome : s.write command with ⟨_ | _, after⟩
        · rw [outcome] at written
          cases written
        · rw [outcome] at told
          exact (after.changes_settle sql command).trans told

theorem run_succeeds {sql : String} {command : Sql.Command} {effect : Effect} (plain : isControl command = false)
    (writing : writes s.content command = true)
    (checked : checkCommand s.content s.connection.enforces command = .ok ())
    (examined : examine s.content command = .ok ())
    (done : effectOf s.content s.connection.enforces command = .ok effect) (free : s.lockedByOther = false)
    (current : s.isOutdated = false) (met : s.breaksLate effect.content = false) :
    (s.run sql command).1 = .ok [] := by
  have seeing : (!looks command) = false := by
    cases command <;> simp_all [looks, writes]
  have locked : s.fixView.takeLock.outline = s.outline.fixed := by simp
  have content : s.fixView.takeLock.content = s.content := by simp [content_eq, locked]
  have enforces : s.fixView.takeLock.connection.enforces = s.connection.enforces :=
    congrArg Outline.enforces locked |>.trans (Outline.enforces_fixed _)
  have late : s.fixView.takeLock.breaksLate effect.content = false := by
    rw [breaksLate, enforces]
    exact met
  have written : ∃ after, s.write command = (.ok [], after) := by
    simp only [write, free, current, Bool.or_self, Bool.false_eq_true, if_false, content, enforces, examined, Except.bind,
      done, late, Bool.and_false]
    exact ⟨_, rfl⟩
  obtain ⟨after, written⟩ := written
  rw [s.run_plain sql plain, runPlain]
  simp only [seeing, Bool.false_eq_true, if_false, checked, writing, if_true, written]

theorem begin_cases : ((∃ fault, s.begin.1 = .error fault) ∧ s.begin.2 = s ∧ s.outline.explicit = true) ∨
    (s.begin.1 = .ok [] ∧ s.begin.2.outline = { s.outline with explicit := true } ∧
      s.outline.explicit = false) := by
  unfold begin
  split
  · rename_i within
    exact .inl ⟨⟨_, rfl⟩, rfl, within⟩
  · rename_i apart
    exact .inr ⟨rfl, rfl, by simpa [outline] using apart⟩

@[simp] theorem outline_release : s.release.outline = s.outline := by
  unfold release
  split <;> rfl

theorem outline_leave : s.leave.outline = s.outline.closed s.outline.kept := rfl

theorem outline_publish : s.publish.outline = { s.outline with kept := s.outline.published } := by
  rcases s with ⟨file, ⟨id, enforces, explicit, view, changes, cached, loaded⟩⟩
  rcases view with _ | ⟨content, version, holdsLock, _ | _, redefined⟩ <;> rfl

theorem commit_cases : ((∃ fault, s.commit.1 = .error fault) ∧ s.commit.2 = s) ∨
    (s.commit.1 = .ok [] ∧ s.commit.2.outline = s.outline.closed s.outline.published) := by
  unfold commit
  split
  · exact .inl ⟨⟨_, rfl⟩, rfl⟩
  · split
    · exact .inl ⟨⟨_, rfl⟩, rfl⟩
    · refine .inr ⟨rfl, ?_⟩
      rw [outline_leave, outline_release, outline_publish]
      rfl

theorem commit_outside (apart : s.outline.explicit = false) : s.commit = (.error .nothingToCommit, s) :=
  if_pos (by simpa [isAutocommit, outline] using apart)

theorem rollback_cases : ((∃ fault, s.rollback.1 = .error fault) ∧ s.rollback.2 = s ∧ s.outline.explicit = false) ∨
    (s.rollback.1 = .ok [] ∧ s.rollback.2.outline = s.outline.closed s.outline.kept) := by
  have left : s.release.leave.outline = s.outline.closed s.outline.kept := by simp [outline_leave]
  simp only [rollback]
  split
  · rename_i apart
    exact .inl ⟨⟨_, rfl⟩, rfl, by simpa [isAutocommit, outline] using apart⟩
  · refine .inr ⟨rfl, ?_⟩
    split
    · exact left
    · exact left

end State

def Content.after (c : Content) (enforces : Bool) (command : Sql.Command) : Content :=
  if writes c command then ((effectOf c enforces command).toOption.map Effect.content).getD c else c

namespace Outline

/-- What holds of every state that a connection gets into: what has not been changed inside a transaction is what the
    file holds, and outside one nothing is fixed. -/
structure Sound (enforces : Bool) (o : Outline) : Prop where
  enforces : o.enforces = enforces
  kept : o.kept.Distinct
  seen : ∀ content changed, o.seen = some (content, changed) →
    content.Distinct ∧ (changed = false → content = o.kept)
  outside : o.explicit = false → o.seen = none

variable {o after : Outline} {enforces : Bool} {command : Sql.Command}

theorem Sound.content (sound : o.Sound enforces) : o.content.Distinct := by
  unfold Outline.content
  rcases seen : o.seen with _ | ⟨content, changed⟩
  · exact sound.kept
  · exact (sound.seen content changed seen).1

theorem Sound.fixed (sound : o.Sound enforces) : o.fixed.Sound enforces := by
  unfold Outline.fixed
  split
  · rename_i unseen
    refine ⟨sound.enforces, sound.kept, ?_, ?_⟩
    · rintro content changed ⟨rfl, rfl⟩
      exact ⟨sound.kept, fun _ => rfl⟩
    · intro outside
      simp [show o.explicit = false from outside] at unseen
  · exact sound

theorem Sound.published (sound : o.Sound enforces) : o.published = o.content := by
  unfold Outline.published Outline.content
  rcases seen : o.seen with _ | ⟨content, _ | _⟩
  · rfl
  · exact ((sound.seen content false seen).2 rfl).symm
  · rfl

theorem Sound.content_outside (sound : o.Sound enforces) (apart : o.explicit = false) : o.content = o.kept := by
  rw [Outline.content, sound.outside apart]
  rfl

theorem Sound.opened (sound : o.Sound enforces) : Sound enforces { o with explicit := true } :=
  ⟨sound.enforces, sound.kept, sound.seen, fun outside => (nomatch outside)⟩

theorem Sound.closed (sound : o.Sound enforces) {kept : Content} (distinct : kept.Distinct) :
    (o.closed kept).Sound enforces :=
  ⟨sound.enforces, distinct, fun _ _ none => (nomatch none), fun _ => rfl⟩

theorem Untouched.sound (touched : o.Untouched after) (sound : o.Sound enforces) : after.Sound enforces := by
  rcases touched with rfl | rfl
  · exact sound
  · exact sound.fixed

theorem Untouched.content (touched : o.Untouched after) : after.content = o.content := by
  rcases touched with rfl | rfl
  · rfl
  · exact content_fixed o

theorem Untouched.trans {middle : Outline} (first : o.Untouched middle) (second : middle.Untouched after) :
    o.Untouched after := by
  rcases first with rfl | rfl
  · exact second
  · rcases second with rfl | rfl
    · exact .inr rfl
    · exact .inr (fixed_fixed o)

theorem Untouched.kept (touched : o.Untouched after) : after.kept = o.kept := by
  rcases touched with rfl | rfl
  · rfl
  · exact kept_fixed o

theorem Untouched.explicit (touched : o.Untouched after) : after.explicit = o.explicit := by
  rcases touched with rfl | rfl
  · rfl
  · exact explicit_fixed o

theorem Untouched.same_enforces (touched : o.Untouched after) : after.enforces = o.enforces := by
  rcases touched with rfl | rfl
  · rfl
  · exact enforces_fixed o

theorem Untouched.base (touched : o.Untouched after) : after.base = o.base := by
  rcases touched with rfl | rfl
  · rfl
  · exact base_fixed o

theorem Untouched.closed (touched : o.Untouched after) : after.closed after.kept = o.closed o.kept := by
  rw [Outline.closed, touched.same_enforces, touched.kept]
  rfl

theorem content_accepting (command : Sql.Command) (effect : Effect) :
    (o.accepting command effect).content = effect.content := by
  unfold accepting
  split
  · rfl
  · rename_i unseen
    have none : o.seen = none := by
      unfold fixed at unseen
      split at unseen
      · cases unseen
      · exact unseen
    simp [content, none]

theorem accepting_inside (command : Sql.Command) (effect : Effect) (within : o.explicit = true) :
    ∃ changed, o.accepting command effect = { o with seen := some (effect.content, changed) } ∧
      (changed = false → State.isChange effect = false ∧ redefines command = false ∧
        ∃ content, o.fixed.seen = some (content, false)) := by
  unfold accepting
  rcases seen : o.fixed.seen with _ | ⟨content, changed⟩
  · unfold fixed at seen
    split at seen <;> simp_all
  · refine ⟨_, rfl, ?_⟩
    intro same
    simp only [Bool.or_eq_false_iff] at same
    exact ⟨same.1.2, same.2, content, by rw [same.1.1]⟩

theorem explicit_accepting (o : Outline) (command : Sql.Command) (effect : Effect) :
    (o.accepting command effect).explicit = o.explicit := by
  unfold accepting
  split <;> rfl

theorem accepting_outside (effect : Effect) (sound : o.Sound enforces) (apart : o.explicit = false) :
    o.accepting command effect = { o with kept := effect.content } := by
  have none : o.fixed.seen = none := by simp [fixed, apart, sound.outside apart]
  simp [accepting, none]

theorem Sound.accepting {effect : Effect} (sound : o.Sound enforces)
    (checked : checkCommand o.content o.enforces command = .ok ())
    (done : effectOf o.content o.enforces command = .ok effect) : (o.accepting command effect).Sound enforces := by
  have distinct : effect.content.Distinct := effectOf_distinct sound.content checked done
  cases within : o.explicit with
  | false =>
    rw [accepting_outside effect sound within]
    refine ⟨sound.enforces, distinct, ?_, sound.outside⟩
    intro content changed seen
    exact absurd ((sound.outside within).symm.trans seen) (by simp)
  | true =>
    obtain ⟨changed, same, unchanged⟩ := accepting_inside command effect within
    rw [same]
    refine ⟨sound.enforces, sound.kept, ?_, fun outside => absurd (within.symm.trans outside) (by decide)⟩
    rintro content changed ⟨rfl, rfl⟩
    refine ⟨distinct, fun none => ?_⟩
    -- Seen as unchanged after an effect, so the effect counted no row and redefined nothing.
    obtain ⟨plain, schema, content, fixed⟩ := unchanged none
    have counted : effect.counted = some 0 := by simpa [State.isChange] using plain
    have kept : content = o.kept := by simpa using (sound.fixed.seen content false fixed).2 rfl
    have seen : o.content = content := by rw [← content_fixed, Outline.content, fixed]; rfl
    rw [effectOf_unchanged sound.content schema done counted, seen, kept]

theorem Ended.sound {outcome : Except FaultCause Rows} (ended : o.Ended command outcome after)
    (sound : o.Sound enforces) : after.Sound enforces := by
  cases ended with
  | refused touched => exact touched.sound sound
  | read _ touched => exact touched.sound sound
  | written _ checked done => exact sound.accepting checked done

theorem Ended.content_cases {rows : Rows} (ended : o.Ended command (.ok rows) after) :
    (writes o.content command = false ∧ after.content = o.content) ∨
      writes o.content command = true ∧ checkCommand o.content o.enforces command = .ok () ∧ rows = [] ∧
        ∃ effect, effectOf o.content o.enforces command = .ok effect ∧ after.content = effect.content := by
  cases ended with
  | read reading touched => exact .inl ⟨reading, touched.content⟩
  | written writing checked done => exact .inr ⟨writing, checked, rfl, _, done, content_accepting command _⟩

theorem base_accepting (o : Outline) (command : Sql.Command) (effect : Effect) :
    (o.accepting command effect).base = o.base := by
  cases within : o.explicit with
  | false => simp [base, explicit_accepting, within]
  | true =>
    obtain ⟨changed, same, -⟩ := accepting_inside command effect within
    rw [same]
    rfl

theorem Ended.stands {rows : Rows} (ended : o.Ended command (.ok rows) after) :
    after.content = o.content.after o.enforces command ∧ after.base = o.base := by
  cases ended with
  | read reading touched =>
    refine ⟨?_, touched.base⟩
    simp [touched.content, Content.after, reading]
  | written writing checked done =>
    rename_i effect
    have own : o.content.after o.enforces command = effect.content := by
      simp [Content.after, writing, done, Except.toOption]
    rw [own]
    exact ⟨content_accepting command effect, base_accepting o command effect⟩

theorem Ended.untouched {rows : Rows} (ended : o.Ended command (.ok rows) after) (some : rows ≠ []) :
    o.Untouched after := by
  cases ended with
  | read _ touched => exact touched
  | written => exact absurd rfl some

end Outline

namespace State

variable {s : State}

theorem run_orRollback (s : State) (sql table : String) (columns : Option (List String)) (rows : List (List Value)) :
    s.outline.Ended (.insertOrRollback table columns rows) (s.run sql (.insertOrRollback table columns rows)).1
        (s.run sql (.insertOrRollback table columns rows)).2.outline ∨
      (∃ cause, (s.run sql (.insertOrRollback table columns rows)).1 = .error cause) ∧
        s.outline.Lapsed (s.run sql (.insertOrRollback table columns rows)).2.outline := by
  have ended := s.runPlain_ended sql (.insertOrRollback table columns rows)
  rw [run]
  generalize s.runPlain sql (.insertOrRollback table columns rows) = result at ended ⊢
  rcases result with ⟨cause | rows, after⟩
  · cases conflict : isConflict cause with
    | false => exact .inl (by simpa [undoConflict, conflict] using ended)
    | true =>
      simp only [undoConflict, conflict, if_true]
      cases ended with
      | refused touched =>
        cases within : after.outline.explicit with
        | false =>
          have apart : after.rollback.2 = after := by
            rw [rollback, if_pos (by simpa [isAutocommit, outline] using within)]
          rw [apart]
          exact .inl (.refused touched)
        | true =>
          rcases after.rollback_cases with ⟨-, -, apart⟩ | ⟨-, closed⟩
          · exact absurd (within.symm.trans apart) (by decide)
          · exact .inr ⟨⟨cause, rfl⟩, touched.explicit ▸ within, closed.trans touched.closed⟩
  · exact .inl ended

/-- A command that does not ask for the end of a transaction ends it only if it fails. -/
theorem run_cases (s : State) (sql : String) {command : Sql.Command} (inside : demarcates command = false) :
    s.outline.Ended command (s.run sql command).1 (s.run sql command).2.outline ∨
      (∃ cause, (s.run sql command).1 = .error cause) ∧ isControl command = true ∧
        s.outline.Lapsed (s.run sql command).2.outline := by
  by_cases plain : isControl command = false
  · exact .inl (s.run_ended sql command plain)
  · cases command with
    | insertOrRollback table columns rows =>
      exact (s.run_orRollback sql table columns rows).imp id fun ⟨failed, lapsed⟩ => ⟨failed, rfl, lapsed⟩
    | begin | commit | rollback => cases inside
    | _ => exact absurd rfl plain

end State

end RecordMapper.Store
