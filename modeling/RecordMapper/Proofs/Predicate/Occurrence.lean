import Mathlib.Data.List.Infix
import Mathlib.Data.List.TakeWhile
import RecordMapper.Proofs.Predicate.Conjunction

namespace RecordMapper

open RecordMapper.Store RecordMapper.Text

namespace PatternKind

/-- Whether `word` stands in `whole` where the kind says. -/
def Occurs {α : Type} (kind : PatternKind) (word whole : List α) : Prop :=
  match kind with
  | .contains => word <:+: whole
  | .startsWith => word <+: whole
  | .endsWith => word <:+ whole

instance {α : Type} [DecidableEq α] (kind : PatternKind) (word whole : List α) :
    Decidable (kind.Occurs word whole) :=
  match kind with
  | .contains => inferInstanceAs (Decidable (word <:+: whole))
  | .startsWith => inferInstanceAs (Decidable (word <+: whole))
  | .endsWith => inferInstanceAs (Decidable (word <:+ whole))

theorem occurs_map {α β : Type} {f : α → β} (injective : Function.Injective f) (kind : PatternKind)
    (word whole : List α) : kind.Occurs (word.map f) (whole.map f) ↔ kind.Occurs word whole := by
  cases kind with
  | contains =>
    constructor
    · intro found
      obtain ⟨part, within, same⟩ := List.infix_map_iff.1 found
      rwa [(List.map_injective_iff.2 injective) same]
    · intro found
      exact found.map f
  | startsWith => exact List.prefix_map_iff_of_injective injective
  | endsWith => exact List.suffix_map_iff_of_injective injective

end PatternKind

namespace Text.Glob

def literalCode (code : Nat) : List Nat :=
  if code = star ∨ code = one ∨ code = opening then [opening, code, closing] else [code]

/-- A class of one wildcard has this member only: none of the three is a bracket that closes, a caret or a dash. -/
theorem classTest_single {code : Nat} (wild : code = star ∨ code = one ∨ code = opening) (subject : Nat)
    (rest : List Nat) : classTest subject (code :: closing :: rest) = some (decide (subject = code), rest) := by
  have notCaret : code ≠ caret := by rcases wild with rfl | rfl | rfl <;> decide
  have notClosing : code ≠ closing := by rcases wild with rfl | rfl | rfl <;> decide
  have notDash : code ≠ dash := by rcases wild with rfl | rfl | rfl <;> decide
  rw [classTest, if_neg notCaret, membersFromStart, if_neg notClosing, members.eq_def]
  simp only [notClosing, notDash, decide_false, Bool.false_and, Bool.false_eq_true, ↓reduceIte, Bool.false_or]
  rw [members.eq_def]
  simp only [↓reduceIte]

theorem accepts_literalCode (code : Nat) (rest subject : List Nat) :
    accepts (literalCode code ++ rest) subject = true ↔
      ∃ after, subject = code :: after ∧ accepts rest after = true := by
  by_cases wild : code = star ∨ code = one ∨ code = opening
  · rw [literalCode, if_pos wild, List.cons_append, accepts.eq_def]
    have notStar : opening ≠ star := by decide
    have notOne : opening ≠ one := by decide
    cases subject with
    | nil => simp [notStar]
    | cons c after =>
      have tested := classTest_single wild c rest
      simp only [notStar, notOne, ↓reduceIte, List.cons_append, List.nil_append, List.cons.injEq]
      split
      · rename_i pattern found
        rw [tested, Option.some.injEq, Prod.mk.injEq, decide_eq_true_eq] at found
        obtain ⟨rfl, rfl⟩ := found
        simp
      · rename_i missed
        have other : c ≠ code := by
          intro same
          apply missed rest
          rw [tested, decide_eq_true same]
        simp [other]
  · obtain ⟨notStar, others⟩ := not_or.1 wild
    obtain ⟨notOne, notOpening⟩ := not_or.1 others
    rw [literalCode, if_neg wild, List.singleton_append, accepts.eq_def]
    cases subject with
    | nil => simp [notStar]
    | cons c after =>
      simp only [notStar, notOne, notOpening, ↓reduceIte, Bool.and_eq_true, decide_eq_true_eq, List.cons.injEq]
      constructor
      · rintro ⟨rfl, fits⟩
        exact ⟨after, ⟨rfl, rfl⟩, fits⟩
      · rintro ⟨_, ⟨rfl, rfl⟩, fits⟩
        exact ⟨rfl, fits⟩

theorem accepts_literalCodes (text rest subject : List Nat) :
    accepts (text.flatMap literalCode ++ rest) subject = true ↔
      ∃ after, subject = text ++ after ∧ accepts rest after = true := by
  induction text generalizing subject with
  | nil => simp
  | cons code text ih =>
    rw [List.flatMap_cons, List.append_assoc, accepts_literalCode]
    constructor
    · rintro ⟨behind, rfl, later⟩
      obtain ⟨after, rfl, fits⟩ := (ih behind).1 later
      exact ⟨after, rfl, fits⟩
    · rintro ⟨after, rfl, fits⟩
      exact ⟨text ++ after, rfl, (ih _).2 ⟨after, rfl, fits⟩⟩

theorem accepts_star_iff (rest subject : List Nat) :
    accepts (star :: rest) subject = true ↔ ∃ after, after <:+ subject ∧ accepts rest after = true := by
  induction subject with
  | nil =>
    rw [accepts_star]
    simp
  | cons c subject ih =>
    rw [accepts_star, Bool.or_eq_true, ih]
    constructor
    · rintro (fits | ⟨after, within, fits⟩)
      · exact ⟨c :: subject, List.suffix_rfl, fits⟩
      · exact ⟨after, within.trans (List.suffix_cons c subject), fits⟩
    · rintro ⟨after, within, fits⟩
      rcases List.suffix_cons_iff.1 within with rfl | within
      · exact Or.inl fits
      · exact Or.inr ⟨after, within, fits⟩

theorem accepts_run (subject : List Nat) : accepts [star] subject = true := by
  rw [accepts_star_iff]
  exact ⟨[], List.nil_suffix, by simp [accepts_nil]⟩

end Text.Glob

open Text.Glob

namespace PatternKind

def codes (kind : PatternKind) (text : List Nat) : List Nat :=
  match kind with
  | .contains => Glob.star :: (text.flatMap literalCode ++ [Glob.star])
  | .startsWith => text.flatMap literalCode ++ [Glob.star]
  | .endsWith => Glob.star :: (text.flatMap literalCode ++ [])

theorem accepts_codes (kind : PatternKind) (text subject : List Nat) :
    accepts (kind.codes text) subject = true ↔ kind.Occurs text subject := by
  cases kind with
  | contains =>
    simp only [codes, accepts_star_iff, accepts_literalCodes, accepts_run, and_true, Occurs,
      List.infix_iff_prefix_suffix]
    constructor
    · rintro ⟨part, within, after, rfl⟩
      exact ⟨text ++ after, List.prefix_append text after, within⟩
    · rintro ⟨part, ⟨after, rfl⟩, within⟩
      exact ⟨text ++ after, within, after, rfl⟩
  | startsWith =>
    simp only [codes, accepts_literalCodes, accepts_run, and_true, Occurs]
    constructor
    · rintro ⟨after, rfl⟩
      exact List.prefix_append text after
    · rintro ⟨after, rfl⟩
      exact ⟨after, rfl⟩
  | endsWith =>
    simp only [codes, accepts_star_iff, accepts_literalCodes, accepts_nil, List.isEmpty_iff, Occurs]
    constructor
    · rintro ⟨part, within, after, rfl, rfl⟩
      rwa [List.append_nil] at within
    · intro within
      exact ⟨text, within, [], (List.append_nil text).symm, rfl⟩

end PatternKind

def engineChar (c : Char) : Char :=
  if c = '\uFFFE' ∨ c = '\uFFFF' then '\uFFFD' else c

/-- A text as the engine reads it. -/
def engineText (text : String) : String :=
  String.ofList (text.toList.map engineChar)

theorem readableCode_toNat (c : Char) : readableCode c.toNat = (engineChar c).toNat := by
  have upper : c.toNat = 0xFFFE ↔ c = '\uFFFE' := Char.toNat_inj (d := '\uFFFE')
  have last : c.toNat = 0xFFFF ↔ c = '\uFFFF' := Char.toNat_inj (d := '\uFFFF')
  by_cases taken : c = '\uFFFE' ∨ c = '\uFFFF'
  · simp [readableCode, engineChar, upper, last, taken, replacementCode]
  · simp [readableCode, engineChar, upper, last, taken]

theorem foldCode_toNat (c : Char) : foldCode c.toNat = c.toLower.toNat := by
  have range : 65 ≤ c.toNat ∧ c.toNat ≤ 90 ↔ c.val ≥ 'A'.val ∧ c.val ≤ 'Z'.val := by
    rw [ge_iff_le, UInt32.le_iff_toNat_le, UInt32.le_iff_toNat_le]
    rfl
  unfold foldCode Char.toLower
  by_cases capital : 65 ≤ c.toNat ∧ c.toNat ≤ 90
  · rw [if_pos capital, dif_pos (range.1 capital)]
    have bound : c.val.toNat + 32 < 2 ^ 32 := by
      have := capital.2
      unfold Char.toNat at this
      omega
    exact (Nat.mod_eq_of_lt bound).symm
  · rw [if_neg capital, dif_neg (fun letter => capital (range.2 letter))]

theorem readableCode_foldCode (code : Nat) : readableCode (foldCode code) = foldCode (readableCode code) := by
  simp only [foldCode, readableCode, replacementCode, Bool.or_eq_true, beq_iff_eq]
  split_ifs <;> omega

def Plain (text : String) : Prop :=
  ∀ c ∈ text.toList, c ≠ '\uFFFE' ∧ c ≠ '\uFFFF'

theorem engineText_eq {text : String} (plain : Plain text) :
    engineText text = text := by
  have each : text.toList.map engineChar = text.toList.map id := by
    apply List.map_congr_left
    intro c member
    simp [engineChar, plain c member]
  rw [engineText, each, List.map_id, String.ofList_toList]

theorem engineText_foldCase (text : String) : engineText (foldCase text) = foldCase (engineText text) := by
  simp only [engineText, foldCase, String.toList_ofList, List.map_map]
  congr 2
  funext c
  apply Char.toNat_inj.1
  simp only [Function.comp_apply, ← readableCode_toNat, ← foldCode_toNat]
  exact readableCode_foldCode c.toNat

theorem textCodes_eq {text : String} (textual : '\x00' ∉ text.toList) :
    textCodes text = (engineText text).toList.map Char.toNat := by
  have all : (text.toList.map Char.toNat).takeWhile (· ≠ 0) = text.toList.map Char.toNat := by
    rw [List.takeWhile_eq_self_iff]
    intro code member
    obtain ⟨c, here, rfl⟩ := List.mem_map.1 member
    have other : c.toNat ≠ 0 := by
      intro zero
      have nul : c = '\x00' := Char.toNat_inj.1 zero
      exact textual (nul ▸ here)
    exact decide_eq_true other
  rw [textCodes, Glob.codes, all, engineText, String.toList_ofList, List.map_map, List.map_map]
  apply List.map_congr_left
  intro c _
  exact readableCode_toNat c

theorem mem_literalChar {c : Char} (nul : '\x00' ∈ Glob.literalChar c) : c = '\x00' := by
  unfold Glob.literalChar at nul
  split at nul <;> simpa [eq_comm] using nul

theorem glob_textual (kind : PatternKind) {text : String} (textual : '\x00' ∉ text.toList) :
    '\x00' ∉ (kind.glob text).toList := by
  have inner : '\x00' ∉ (Glob.literal text).toList := by
    intro nul
    rw [Glob.literal, String.toList_ofList, List.mem_flatMap] at nul
    obtain ⟨c, member, nul⟩ := nul
    exact textual (mem_literalChar nul ▸ member)
  cases kind <;> simpa [PatternKind.glob] using inner

theorem literalChar_codes (c : Char) :
    (Glob.literalChar c).map (fun c => (engineChar c).toNat) = literalCode (engineChar c).toNat := by
  by_cases wild : c = '*' ∨ c = '?' ∨ c = '['
  · rcases wild with rfl | rfl | rfl <;> rfl
  · have single : Glob.literalChar c = [c] := by simpa [Glob.literalChar, or_assoc] using wild
    have other : ¬((engineChar c).toNat = Glob.star ∨ (engineChar c).toNat = one ∨ (engineChar c).toNat = opening) := by
      unfold engineChar
      split
      · decide
      · simpa only [Glob.star, one, opening, Char.toNat_inj] using wild
    rw [single, literalCode, if_neg other, List.map_singleton]

theorem textCodes_glob (kind : PatternKind) {text : String} (textual : '\x00' ∉ text.toList) :
    textCodes (kind.glob text) = kind.codes (textCodes text) := by
  have inner : (Glob.literal text).toList.map (fun c => (engineChar c).toNat) =
      (text.toList.map fun c => (engineChar c).toNat).flatMap literalCode := by
    simp only [Glob.literal, String.toList_ofList, List.map_flatMap, List.flatMap_map, literalChar_codes]
  rw [textCodes_eq (glob_textual kind textual), textCodes_eq textual]
  simp only [engineText, String.toList_ofList, List.map_map, Function.comp_def]
  have run : (engineChar '*').toNat = Glob.star := rfl
  cases kind <;> simp [PatternKind.glob, PatternKind.codes, inner, run]

/-- The engine's matcher finds exactly the texts that have the literal where the kind says. -/
theorem accepts_glob (kind : PatternKind) {text subject : String} (textual : '\x00' ∉ text.toList)
    (subjectTextual : '\x00' ∉ subject.toList) :
    accepts (textCodes (kind.glob text)) (textCodes subject) = true ↔
      kind.Occurs (engineText text).toList (engineText subject).toList := by
  rw [textCodes_glob kind textual, kind.accepts_codes, textCodes_eq textual, textCodes_eq subjectTextual]
  exact kind.occurs_map (fun _ _ => Char.toNat_inj.1) _ _

theorem foldCase_textual {text : String} (textual : '\x00' ∉ text.toList) : '\x00' ∉ (foldCase text).toList := by
  intro nul
  rw [foldCase, String.toList_ofList, List.mem_map] at nul
  obtain ⟨c, member, lowered⟩ := nul
  have zero : foldCode c.toNat = 0 := by rw [foldCode_toNat, lowered]; rfl
  have same : c.toNat = 0 := by
    unfold foldCode at zero
    split at zero <;> omega
  have nul : c = '\x00' := Char.toNat_inj.1 same
  exact textual (nul ▸ member)

theorem textCodes_foldCase {text : String} (textual : '\x00' ∉ text.toList) :
    textCodes (foldCase text) = (textCodes text).map foldCode := by
  rw [textCodes_eq (foldCase_textual textual), textCodes_eq textual, engineText_foldCase, foldCase,
    String.toList_ofList, List.map_map, List.map_map]
  apply List.map_congr_left
  intro c _
  exact (foldCode_toNat c).symm

namespace Pattern

def compared (p : Pattern) (text : String) : String :=
  if p.ignoreCase then foldCase text else text

/-- Whether the pattern's text stands in `subject` where its kind says, negation aside. -/
def Occurs (p : Pattern) (subject : String) : Prop :=
  p.kind.Occurs (p.compared p.text).toList (p.compared subject).toList

instance (p : Pattern) (subject : String) : Decidable (p.Occurs subject) :=
  inferInstanceAs (Decidable (p.kind.Occurs _ _))

def forEngine (p : Pattern) : Pattern :=
  { p with text := engineText p.text }

theorem compared_textual (p : Pattern) {text : String} (textual : '\x00' ∉ text.toList) :
    '\x00' ∉ (p.compared text).toList := by
  unfold compared
  split
  · exact foldCase_textual textual
  · exact textual

theorem engineText_compared (p : Pattern) (text : String) :
    engineText (p.compared text) = p.compared (engineText text) := by
  unfold compared
  split
  · exact engineText_foldCase text
  · rfl

theorem globTruth_text (p : Pattern) (textual : '\x00' ∉ p.text.toList) {subject : String}
    (subjectTextual : '\x00' ∉ subject.toList) :
    globTruth p.ignoreCase p.written (.text subject) =
      some (decide (p.forEngine.Occurs (engineText subject))) := by
  have taken : (if p.ignoreCase then (textCodes subject).map foldCode else textCodes subject) =
      textCodes (p.compared subject) := by
    unfold compared
    split
    · exact (textCodes_foldCase subjectTextual).symm
    · rfl
  have found := accepts_glob p.kind (p.compared_textual textual) (p.compared_textual subjectTextual)
  rw [engineText_compared, engineText_compared] at found
  rw [globTruth, subjectCodes?, Option.map_some, taken, Option.some.injEq, Bool.eq_iff_iff, decide_eq_true_eq]
  exact found

/-- Whether the engine matches texts against the pattern, or refuses it for its length. -/
def Short (p : Pattern) : Prop :=
  p.written.utf8ByteSize ≤ patternLimit

/-- The condition asks of the value in the column what the pattern asks of a text. The engine finds out what it says, unless
    the pattern is too long. -/
structure Tests (p : Pattern) (column : Sql.ColumnName) (test : Sql.Condition) : Prop where
  unknown : ∀ b : Bindings, conditionTruth b test = none ↔ b.value column = .null
  engine : ∀ (b : Bindings) (subject : String), b.value column = .text subject → '\x00' ∉ subject.toList →
    conditionTruth b test = some (p.negated != decide (p.forEngine.Occurs (engineText subject)))
  plain : ∀ (b : Bindings) (subject : String), b.value column = .text subject → '\x00' ∉ subject.toList →
    Plain p.text → Plain subject → conditionTruth b test = some (p.negated != decide (p.Occurs subject))
  found : p.Short → ∀ b goal, comesOut b goal test = .ok (conditionTruth b test == some goal)
  refused : ¬p.Short → ∀ b goal, comesOut b goal test = .error .patternTooComplex

end Pattern

theorem globTruth_none {folded : Bool} {pattern : String} {v : Value} :
    globTruth folded pattern v = none ↔ v = .null := by
  cases v <;> simp [globTruth, subjectCodes?]

section Written

variable {s : Scope} {c : ColumnRef} {column : Sql.ColumnName}

def Pattern.test (p : Pattern) (column : Sql.ColumnName) : Sql.Condition :=
  let test := .glob column p.ignoreCase p.written
  if p.negated then .not test else test

theorem Predicate.condition_pattern (found : s.resolve c = .ok column) (p : Pattern) :
    (Predicate.pattern c p).condition s = .ok (p.test column) := by
  simp only [condition, patternTest, found]
  rfl

theorem Pattern.truth_test (p : Pattern) (b : Bindings) :
    conditionTruth b (p.test column) =
      (globTruth p.ignoreCase p.written (b.value column)).map (p.negated != ·) := by
  unfold test
  cases p.negated with
  | false => simp [conditionTruth]
  | true => simp only [conditionTruth, Truth.not, ↓reduceIte, Bool.true_bne]

theorem Pattern.truth_negate (p : Pattern) (b : Bindings) :
    conditionTruth b (p.negate.test column) = (conditionTruth b (p.test column)).not := by
  have turned (found : Bool) : (p.negate.negated != found) = !(p.negated != found) := by
    simp [negate]
  rw [truth_test, truth_test, Truth.not, Option.map_map]
  congr 1
  funext found
  exact turned found

theorem Pattern.test_ofFolded (p : Pattern) (ignoring : p.ignoreCase = true) {text : String}
    (same : foldCase text = foldCase p.text) : { p with text := text }.test column = p.test column := by
  simp only [test, written, ignoring, ↓reduceIte, same]

theorem Pattern.truth_folded (p : Pattern) (ignoring : p.ignoreCase = true) {b : Bindings} {subject : String}
    (textual : '\x00' ∉ subject.toList) (value : b.value column = .text subject) :
    conditionTruth b (p.test column) = some (p.negated !=
      accepts (textCodes p.written) (textCodes (foldCase subject))) := by
  rw [truth_test, value, ignoring, textCodes_foldCase textual]
  rfl

theorem Pattern.comesOut_test (p : Pattern) (b : Bindings) (goal : Bool) :
    comesOut b goal (p.test column) = (globTest p.ignoreCase p.written (b.value column)).map
      fun truth => truth == some (p.negated != goal) := by
  unfold test
  cases p.negated <;> simp [comesOut]

theorem Pattern.comesOut_negate (p : Pattern) (b : Bindings) (goal : Bool) :
    comesOut b goal (p.negate.test column) = comesOut b (!goal) (p.test column) := by
  have turned : (p.negate.negated != goal) = (p.negated != !goal) := by
    simp [negate]
  rw [comesOut_test, comesOut_test, turned]
  rfl

theorem Pattern.tests_test (p : Pattern) (textual : '\x00' ∉ p.text.toList) : p.Tests column (p.test column) := by
  have engine (b : Bindings) (subject : String) (value : b.value column = .text subject)
      (subjectTextual : '\x00' ∉ subject.toList) :
      conditionTruth b (p.test column) = some (p.negated != decide (p.forEngine.Occurs (engineText subject))) := by
    rw [truth_test, value, p.globTruth_text textual subjectTextual, Option.map_some]
  constructor
  · intro b
    rw [truth_test, Option.map_eq_none_iff, globTruth_none]
  · exact engine
  · intro b subject value subjectTextual plain subjectPlain
    have unchanged : p.forEngine = p := by rw [forEngine, engineText_eq plain]
    rw [engine b subject value subjectTextual, unchanged, engineText_eq subjectPlain]
  · intro short b goal
    refine comesOut_of_matchable b goal fun pattern member => ?_
    have only : (p.test column).patterns = [p.written] := by
      unfold test
      cases p.negated <;> rfl
    rw [only, List.mem_singleton] at member
    exact member ▸ short
  · intro long b goal
    rw [p.comesOut_test, globTest, if_pos (Nat.lt_of_not_le long)]
    rfl

/-- A pattern test finds its literal and nothing else, as long as its pattern is not too long to be matched at all. -/
theorem Predicate.pattern_tests (p : Pattern) (textual : '\x00' ∉ p.text.toList) :
    (∀ subject : String, '\x00' ∉ subject.toList →
      globTest false (p.kind.glob p.text) (.text subject) =
        if patternLimit < (p.kind.glob p.text).utf8ByteSize then .error .patternTooComplex
        else .ok (some (decide (p.kind.Occurs (engineText p.text).toList (engineText subject).toList)))) ∧
    ∀ (s : Scope) (c : ColumnRef) (column : Sql.ColumnName), s.resolve c = .ok column →
      ∃ test opposite, (Predicate.pattern c p).condition s = .ok test ∧ p.Tests column test ∧
        (Predicate.pattern c p.negate).condition s = .ok opposite ∧
        (∀ b : Bindings, conditionTruth b opposite = (conditionTruth b test).not ∧
          ∀ goal, comesOut b goal opposite = comesOut b (!goal) test) ∧
        (p.ignoreCase = true →
          (∀ text, foldCase text = foldCase p.text →
            (Predicate.pattern c { p with text := text }).condition s = .ok test) ∧
          ∀ (b b' : Bindings) (subject subject' : String), '\x00' ∉ subject.toList → '\x00' ∉ subject'.toList →
            b.value column = .text subject → b'.value column = .text subject' → foldCase subject = foldCase subject' →
            conditionTruth b test = conditionTruth b' test ∧ ∀ goal, comesOut b goal test = comesOut b' goal test) := by
  constructor
  · intro subject subjectTextual
    have found := accepts_glob p.kind textual subjectTextual
    have truth : globTruth false (p.kind.glob p.text) (.text subject) =
        some (decide (p.kind.Occurs (engineText p.text).toList (engineText subject).toList)) := by
      rw [globTruth, subjectCodes?, Option.map_some, Option.some.injEq, Bool.eq_iff_iff, decide_eq_true_eq, ← found]
      rfl
    rw [globTest, truth]
  · intro s c column found
    have tests : p.Tests column (p.test column) := p.tests_test textual
    refine ⟨_, _, condition_pattern found p, tests, condition_pattern found p.negate, ?_, ?_⟩
    · intro b
      exact ⟨p.truth_negate b, p.comesOut_negate b⟩
    · intro ignoring
      constructor
      · intro text same
        rw [condition_pattern found, p.test_ofFolded ignoring same]
      · intro b b' subject subject' subjectTextual subjectTextual' value value' same
        have truth : conditionTruth b (p.test column) = conditionTruth b' (p.test column) := by
          rw [p.truth_folded ignoring subjectTextual value, p.truth_folded ignoring subjectTextual' value', same]
        refine ⟨truth, fun goal => ?_⟩
        by_cases short : p.Short
        · rw [tests.found short, tests.found short, truth]
        · rw [tests.refused short, tests.refused short]

end Written

def wildPattern : Pattern :=
  ⟨.endsWith, "^*[A-z]?", true, true⟩

theorem length_le_utf8ByteSize (text : List Char) : text.length ≤ (String.ofList text).utf8ByteSize := by
  induction text with
  | nil => exact Nat.zero_le _
  | cons c text ih =>
    have size := c.utf8Size_pos
    rw [String.ofList_cons, String.utf8ByteSize_append, String.utf8ByteSize_singleton, List.length_cons]
    omega

def longPattern : Pattern :=
  .make .startsWith (String.ofList (List.replicate 50001 'a'))

theorem longPattern_long : ¬longPattern.Short := by
  have letters : Glob.literal (String.ofList (List.replicate 50001 'a')) = String.ofList (List.replicate 50001 'a') := by
    rw [Glob.literal, String.toList_ofList, List.flatMap_replicate]
    exact congrArg String.ofList List.flatten_replicate_singleton
  have size := length_le_utf8ByteSize (List.replicate 50001 'a')
  have limit : patternLimit = 50000 := rfl
  have pattern : longPattern.written = String.ofList (List.replicate 50001 'a') ++ "*" := congrArg (· ++ "*") letters
  rw [List.length_replicate] at size
  rw [Pattern.Short, pattern, String.utf8ByteSize_append]
  omega

theorem pattern_tests_wild :
    '\x00' ∉ wildPattern.text.toList ∧ '\x00' ∉ longPattern.text.toList ∧
    (∃ test, (Predicate.pattern ⟨none, "NULL"⟩ wildPattern).condition quotedScope = .ok test ∧
      ∀ b : Bindings, (b.value ⟨"t0", "NULL"⟩ = .text "is ^*[a-Z]?" → comesOut b true test = .ok false) ∧
        (b.value ⟨"t0", "NULL"⟩ = .text "is ^***b?" → comesOut b true test = .ok true)) ∧
    ∃ test, (Predicate.pattern ⟨none, "NULL"⟩ longPattern).condition quotedScope = .ok test ∧
      ∀ b : Bindings, comesOut b true test = .error .patternTooComplex := by
  have textual : '\x00' ∉ wildPattern.text.toList := by decide
  have textual' : '\x00' ∉ longPattern.text.toList := by
    show '\x00' ∉ (String.ofList (List.replicate 50001 'a')).toList
    rw [String.toList_ofList]
    exact fun member => absurd (List.eq_of_mem_replicate member) (by decide)
  obtain ⟨test, _, compiled, tests, _⟩ :=
    (Predicate.pattern_tests wildPattern textual).2 quotedScope ⟨none, "NULL"⟩ ⟨"t0", "NULL"⟩ rfl
  obtain ⟨test', _, compiled', tests', _⟩ :=
    (Predicate.pattern_tests longPattern textual').2 quotedScope ⟨none, "NULL"⟩ ⟨"t0", "NULL"⟩ rfl
  have short : wildPattern.Short := by
    unfold Pattern.Short
    decide +kernel
  refine ⟨textual, textual', ⟨test, compiled, fun b => ⟨fun value => ?_, fun value => ?_⟩⟩, test', compiled',
    fun b => tests'.refused longPattern_long b true⟩
  · rw [tests.found short, tests.engine b _ value (by decide)]
    decide
  · rw [tests.found short, tests.engine b _ value (by decide)]
    decide

/-- A text with U+FFFE is found where the engine has U+FFFD, and one of 50001 letters is not looked for at all. -/
theorem pattern_exceptions :
    (¬∀ (kind : PatternKind) (text subject : String), '\x00' ∉ text.toList → '\x00' ∉ subject.toList →
      (kind.glob text).utf8ByteSize ≤ patternLimit → globTest false (kind.glob text) (.text subject) =
        .ok (some (decide (kind.Occurs text.toList subject.toList)))) ∧
    ¬∀ (kind : PatternKind) (text subject : String), '\x00' ∉ text.toList → '\x00' ∉ subject.toList →
      Plain text → Plain subject → globTest false (kind.glob text) (.text subject) =
        .ok (some (decide (kind.Occurs text.toList subject.toList))) := by
  constructor
  · intro exactly
    have found : accepts (textCodes (PatternKind.contains.glob "\uFFFE")) (textCodes "\uFFFD") = true := by
      rw [accepts_glob .contains (by decide) (by decide)]
      decide
    have truth := (globTest_eq_ok.1 (exactly .contains "\uFFFE" "\uFFFD" (by decide) (by decide) (by decide +kernel))).2
    have claimed : some (accepts (textCodes (PatternKind.contains.glob "\uFFFE")) (textCodes "\uFFFD")) = some false :=
      truth.trans (by decide)
    rw [found] at claimed
    cases claimed
  · intro exactly
    have letters {c : Char} (member : c ∈ longPattern.text.toList) : c = 'a' := by
      have listed : c ∈ (String.ofList (List.replicate 50001 'a')).toList := member
      rw [String.toList_ofList] at listed
      exact List.eq_of_mem_replicate listed
    have textual : '\x00' ∉ longPattern.text.toList := fun member => absurd (letters member) (by decide)
    have plain : Plain longPattern.text := fun c member => by
      rw [letters member]
      decide
    have tested := exactly .startsWith longPattern.text "" textual (by decide) plain fun c member => absurd member (by simp)
    exact longPattern_long (globTest_eq_ok.1 tested).1

end RecordMapper
