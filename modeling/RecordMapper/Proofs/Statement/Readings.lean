import RecordMapper.Proofs.Statement.Tokens
import RecordMapper.Sql.Reader

namespace RecordMapper.Sql.Reading

open RecordMapper.Text

variable {α β : Type} {r : Reading α} {f : α → Reading β} {a : α} {b : β} {tokens more : List Token}
variable {follows follows' : Option Token → Prop}

/-- Of tokens that such a token follows, or nothing, the reading makes `a`; it takes them and nothing else. -/
def Takes (r : Reading α) (tokens : List Token) (follows : Option Token → Prop) (a : α) : Prop :=
  ∀ (taken rest : List Lexeme) (params : List Value), taken.map Lexeme.token = tokens →
    follows (rest.head?.map Lexeme.token) → r ⟨taken ++ rest, params⟩ = .ok (a, ⟨rest, params⟩)

def Ends (next : Option Token) : Prop :=
  next = none ∨ next = some (.symbol ",") ∨ next = some (.symbol ")")

namespace Takes

theorem pure (a : α) : Takes (pure a) [] follows a := by
  intro taken rest params same _
  rw [List.map_eq_nil_iff.1 same]
  rfl

theorem bind (first : Takes r tokens follows a) (then' : Takes (f a) more follows' b)
    (fits : ∀ next, follows' next → follows (more.head?.or next)) : Takes (r >>= f) (tokens ++ more) follows' b := by
  intro taken rest params same next
  obtain ⟨front, back, rfl, front', back'⟩ := List.map_eq_append_iff.1 same
  have ahead : ((back ++ rest).head?.map Lexeme.token) = more.head?.or (rest.head?.map Lexeme.token) := by
    rw [← back', List.head?_append, List.head?_map]
    cases back.head? <;> rfl
  have step := first front (back ++ rest) params front' (ahead ▸ fits _ next)
  have last := then' back rest params back' next
  rw [List.append_assoc]
  simp only [Bind.bind, StateT.bind, step, Except.bind, last]

theorem then' (first : ∀ {any}, Takes r tokens any a) (next : Takes (f a) more follows b) :
    Takes (r >>= f) (tokens ++ more) follows b := by
  have free : Takes r tokens (fun _ => True) a := first
  exact free.bind next fun _ _ => trivial

theorem map {g : α → β} (takes : Takes r tokens follows a) :
    Takes (do let a ← r; Pure.pure (g a)) tokens follows (g a) := by
  have made : Takes (do let a ← r; Pure.pure (g a)) (tokens ++ []) follows (g a) :=
    takes.bind (pure (g a)) fun _ next => next
  rwa [List.append_nil] at made

theorem accept {take : Token → Option α} {t : Token} (accepted : take t = some a) :
    Takes (accept take) [t] follows a := by
  intro taken rest params same _
  obtain ⟨l, rfl, token⟩ := List.map_eq_singleton_iff.1 same
  rw [List.singleton_append, Reading.accept]
  simp only [token, accepted]

theorem when? {test : Token → Bool} {t : Token} (passes : test t = true) :
    Takes (Reading.accept (when? test)) [t] follows () :=
  accept (by rw [Reading.when?, if_pos passes])

theorem word {w text : String} (same : sameIgnoringCase text w = true) :
    Takes (Reading.word w) [.word text] follows () :=
  when? same

theorem symbol (s : String) : Takes (Reading.symbol s) [.symbol s] follows () :=
  when? (beq_self_eq_true s)

theorem words (list : List String) : Takes (Reading.words list) (list.map .word) follows () := by
  induction list with
  | nil => exact pure ()
  | cons w list ih => exact then' (word (sameIgnoringCase_refl w)) ih

theorem afterWords {x : Reading β} (list : List String) (next : Takes x more follows b) :
    Takes (do Reading.words list; x) (list.map .word ++ more) follows b :=
  then' (words list) next

theorem name (n : String) : Takes Reading.name [.quoted n] follows n :=
  accept rfl

theorem taken_of_passes {test : Token → Bool} {t : Token} (passes : test t = true) :
    Takes (taken test) [t] follows true := by
  intro front rest params same _
  obtain ⟨l, rfl, token⟩ := List.map_eq_singleton_iff.1 same
  simp only [taken, next?, List.singleton_append, List.head?_cons, Option.map_some, token, passes, Reading.accept,
    Reading.when?, Bind.bind, StateT.bind, Except.bind, if_true]
  rfl

theorem taken_of_fails {test : Token → Bool} (fails : ∀ next, follows next → ∀ t ∈ next, test t = false) :
    Takes (taken test) [] follows false := by
  intro front rest params same next
  rw [List.map_eq_nil_iff.1 same, List.nil_append]
  have refused := fails _ next
  cases rest with
  | nil => rfl
  | cons l rest =>
    have stays : test l.token = false := refused l.token rfl
    simp only [taken, next?, List.head?_cons, Option.map_some, stays, Bind.bind, StateT.bind, Except.bind,
      Bool.false_eq_true, if_false]
    rfl

theorem ifTaken {test : Token → Bool} {t : Token} {x y : Reading β} (passes : test t = true)
    (branch : Takes x more follows b) : Takes (do if ← taken test then x else y) (t :: more) follows b :=
  then' (taken_of_passes passes) branch

theorem ifNotTaken {test : Token → Bool} {x y : Reading β}
    (fails : ∀ next, follows next → ∀ t ∈ more.head?.or next, test t = false) (branch : Takes y more follows b) :
    Takes (do if ← taken test then x else y) more follows b := by
  have stays : Takes (taken test) [] (fun next => ∀ t ∈ next, test t = false) false := taken_of_fails fun _ fails => fails
  exact stays.bind branch fails

theorem parenthesised (inner : Takes r tokens (· = some (.symbol ")")) a) :
    Takes (Reading.parenthesised r) (.symbol "(" :: (tokens ++ [.symbol ")"])) follows a :=
  then' (symbol "(") (inner.bind (then' (symbol ")") (pure a)) fun _ _ => rfl)

def behindEntry (item : Reading β) (fuel : Nat) (e : β) : Reading (List β) := do
  if ← taken (isSymbol ",") then
    let rest ← Reading.commaSeparated item fuel
    Pure.pure (e :: rest)
  else Pure.pure [e]

theorem behindEntry_last {item : Reading β} {fuel : Nat} (e : β) :
    Takes (behindEntry item fuel e) [] (· = some (.symbol ")")) [e] := by
  refine ifNotTaken ?_ (pure [e])
  rintro _ rfl t ⟨⟩
  rfl

theorem commaSeparated {item : Reading β} {entries : List β} {spelled : β → List Token} (some' : entries ≠ [])
    (each : ∀ e ∈ entries, Takes item (spelled e) Ends e) {fuel : Nat} (enough : entries.length ≤ fuel) :
    Takes (Reading.commaSeparated item fuel) (commaTokens (entries.map spelled)) (· = some (.symbol ")")) entries := by
  -- every entry ends at a comma, but for the last, which ends where the list is closed
  induction entries generalizing fuel with
  | nil => exact absurd rfl some'
  | cons e entries ih =>
    obtain ⟨fuel, rfl⟩ : ∃ n, fuel = n + 1 := ⟨fuel - 1, by simp at enough; omega⟩
    rw [List.forall_mem_cons] at each
    show Takes (item >>= behindEntry item fuel) _ _ _
    cases entries with
    | nil =>
      have whole : Takes (item >>= behindEntry item fuel) (spelled e ++ []) (· = some (.symbol ")")) [e] :=
        each.1.bind (behindEntry_last e) (by rintro _ rfl; exact .inr (.inr rfl))
      rwa [List.append_nil] at whole
    | cons next entries =>
      have rest := ih (List.cons_ne_nil _ _) each.2 (Nat.le_of_succ_le_succ enough)
      have behind : Takes (behindEntry item fuel e) (.symbol "," :: commaTokens ((next :: entries).map spelled))
          (· = some (.symbol ")")) (e :: next :: entries) :=
        ifTaken rfl rest.map
      exact each.1.bind behind fun _ _ => .inr (.inl rfl)

theorem length_commaTokens (parts : List (List Token)) : parts.length ≤ (commaTokens parts).length + 1 := by
  fun_induction commaTokens parts with
  | case1 => exact Nat.zero_le _
  | case2 last => exact Nat.succ_le_succ (Nat.zero_le _)
  | case3 first next rest ih =>
    simp only [List.length_cons, List.length_append] at ih ⊢
    omega

theorem listOf {item : Reading β} {entries : List β} {spelled : β → List Token} (some' : entries ≠ [])
    (each : ∀ e ∈ entries, Takes item (spelled e) Ends e) :
    Takes (Reading.listOf item) (commaTokens (entries.map spelled)) (· = some (.symbol ")")) entries := by
  intro front rest params same next
  have enough : entries.length ≤ (front ++ rest).length + 1 := by
    have most := length_commaTokens (entries.map spelled)
    rw [← same, List.length_map, List.length_map] at most
    rw [List.length_append]
    omega
  exact commaSeparated some' each enough front rest params same next

end Takes

section Columns

variable {c : ColumnDefinition} {fuel : Nat}

def StopsType (next : Option Token) : Prop :=
  Ends next ∨ next = some (.word "PRIMARY") ∨ next = some (.word "NOT")

theorem takes_noTypeWord : Takes (typeWords (fuel + 1)) [] StopsType [] := by
  intro front rest params same next
  rw [List.map_eq_nil_iff.1 same, List.nil_append]
  have stops : ∀ text, rest.head?.map Lexeme.token = some (.word text) → startsConstraint (.word text) = true := by
    intro text ahead
    rcases next with ((none' | sign | sign) | key | required)
    · cases none'.symm.trans ahead
    · cases sign.symm.trans ahead
    · cases sign.symm.trans ahead
    · cases key.symm.trans ahead
      rfl
    · cases required.symm.trans ahead
      rfl
  have ahead : (next? ⟨rest, params⟩ : Except TextFault _) = .ok (rest.head?.map Lexeme.token, ⟨rest, params⟩) := rfl
  simp only [typeWords, Bind.bind, StateT.bind, Except.bind, ahead]
  rcases token : rest.head?.map Lexeme.token with _ | t
  · rfl
  · cases t with
    | word text => simp only [stops text token, if_true]; rfl
    | quoted | string | number | placeholder | symbol => rfl

theorem takes_typeWords {type : String} (plain : startsConstraint (.word type) = false) :
    Takes (typeWords (fuel + 2)) [.word type] StopsType [type] := by
  intro front rest params same next
  obtain ⟨l, rfl, token⟩ := List.map_eq_singleton_iff.1 same
  have ahead : (next? ⟨l :: rest, params⟩ : Except TextFault _) = .ok (some (.word type), ⟨l :: rest, params⟩) := by
    rw [← token]
    rfl
  have taking : Takes (do Reading.accept (when? (isWord type)); let others ← typeWords (fuel + 1); Pure.pure (type :: others))
      [.word type] StopsType [type] :=
    Takes.then' (.word (sameIgnoringCase_refl type)) takes_noTypeWord.map
  rw [List.singleton_append, typeWords]
  simp only [Bind.bind, StateT.bind, Except.bind, ahead, plain, Bool.false_eq_true, if_false]
  exact taking [l] rest params same next

theorem takes_typeSize : Takes typeSize [] StopsType "" := by
  refine .ifNotTaken ?_ (.pure "")
  rintro next ((rfl | rfl | rfl) | rfl | rfl) t ⟨⟩ <;> rfl

theorem takes_noConstraint : Takes (constraints c (fuel + 1)) [] Ends c := by
  refine .ifNotTaken ?_ (.ifNotTaken ?_ (.ifNotTaken ?_ (.pure c))) <;>
  · rintro next (rfl | rfl | rfl) t ⟨⟩ <;> rfl

theorem takes_keyConstraint {c' : ColumnDefinition}
    (others : Takes (constraints { c with key := true } fuel) tokens follows c') :
    Takes (constraints c (fuel + 1)) (.word "PRIMARY" :: .word "KEY" :: tokens) follows c' :=
  .ifTaken rfl (Takes.then' (.word rfl) others)

theorem takes_requiredConstraint {c' : ColumnDefinition}
    (others : Takes (constraints { c with required := true } fuel) tokens follows c') :
    Takes (constraints c (fuel + 1)) (.word "NOT" :: .word "NULL" :: tokens) follows c' := by
  have second : Takes (do Reading.word "NULL"; constraints { c with required := true } fuel) (.word "NULL" :: tokens)
      follows c' := Takes.then' (.word rfl) others
  refine .ifNotTaken ?_ (.ifTaken rfl second)
  rintro next - t ⟨⟩
  rfl

end Columns

end RecordMapper.Sql.Reading
