import Mathlib.Data.List.Forall2
import RecordMapper.Hashing
import RecordMapper.Proofs.Number.Keys

namespace RecordMapper

open RecordMapper.Number

namespace Value

/-- Whether values of one class have the same content. Reals have it if their bits are the same, or both are zeros, or
    neither is a number. -/
def ContentAgrees : Value → Value → Prop
  | .integer m, .integer n => m = n
  | .real x, .real y => x.bits = y.bits ∨ x.IsZero ∧ y.IsZero ∨ x.IsNotNumber ∧ y.IsNotNumber
  | .text s, .text t => s = t
  | .blob first, .blob second => first = second
  | _, _ => True

theorem same_iff_contentAgrees (a b : Value) :
    a.same b = true ↔ a.storageClass = b.storageClass ∧ a.ContentAgrees b := by
  rw [same_iff]
  cases a <;> cases b <;> simp [normal, storageClass, ContentAgrees, Binary64.key_eq_iff]

theorem same_equivalence : Equivalence fun a b : Value => a.same b = true where
  refl := same_refl
  symm {a b} same := by rwa [same_symm]
  trans {a b c} first second := by
    rw [same_iff] at *
    exact first.trans second

/-- Values feed the same exactly if they are the same. -/
theorem hashInputs_eq_iff (a b : Value) : a.hashInputs = b.hashInputs ↔ a.same b = true := by
  rw [same_iff]
  cases a with
  | blob first =>
    cases b with
    | blob second =>
      simp only [hashInputs, contentInputs, normal, List.cons.injEq, HashInput.bytes.injEq, HashInput.length.injEq,
        Value.blob.injEq, and_true, storageClass, true_and]
      exact ⟨fun both => both.2, fun same => ⟨congrArg List.length same, same⟩⟩
    | null | integer | real | text => simp [hashInputs, storageClass, StorageClass.number, normal]
  | null | integer | real | text =>
    cases b <;> simp [hashInputs, contentInputs, storageClass, StorageClass.number, normal]

theorem sameRow_iff_forall₂ (as bs : List Value) :
    sameRow as bs = true ↔ List.Forall₂ (fun a b => a.same b = true) as bs := by
  induction as generalizing bs with
  | nil => cases bs <;> simp [sameRow]
  | cons a as ih => cases bs <;> simp [sameRow, ih]

theorem sameRow_iff_places (as bs : List Value) : sameRow as bs = true ↔
    as.length = bs.length ∧
      ∀ (i : Nat) (a b : Value), as[i]? = some a → bs[i]? = some b → a.same b = true := by
  rw [sameRow_iff_forall₂]
  constructor
  · intro same
    refine ⟨same.length_eq, fun i a b first second => ?_⟩
    obtain ⟨inside, rfl⟩ := List.getElem?_eq_some_iff.1 first
    obtain ⟨inside', rfl⟩ := List.getElem?_eq_some_iff.1 second
    exact (List.forall₂_iff_get.1 same).2 i inside inside'
  · rintro ⟨length, places⟩
    refine List.forall₂_iff_get.2 ⟨length, fun i inside inside' => ?_⟩
    exact places i _ _ (List.getElem?_eq_getElem inside) (List.getElem?_eq_getElem inside')

theorem rowInputs_of_sameRow {as bs : List Value} (same : sameRow as bs = true) : rowInputs as = rowInputs bs := by
  rw [sameRow_iff_forall₂] at same
  have values : as.flatMap hashInputs = bs.flatMap hashInputs := by
    induction same with
    | nil => rfl
    | cons first rest ih => rw [List.flatMap_cons, List.flatMap_cons, (hashInputs_eq_iff _ _).2 first, ih]
  rw [rowInputs, rowInputs, same.length_eq, values]

end Value

section Sets

variable {h : Hasher}

instance : EquivBEq (RowKey h) where
  rfl := (Value.sameRow_iff _ _).2 rfl
  symm same := (Value.sameRow_iff _ _).2 ((Value.sameRow_iff _ _).1 same).symm
  trans first second :=
    (Value.sameRow_iff _ _).2 (((Value.sameRow_iff _ _).1 first).trans ((Value.sameRow_iff _ _).1 second))

instance : LawfulHashable (RowKey h) where
  hash_eq a b same := by
    have rows : Value.sameRow a.row b.row = true := same
    exact congrArg h.hashOf (Value.rowInputs_of_sameRow rows)

def insertAll (set : Std.HashSet (RowKey h)) : List (List Value) → List Bool
  | [] => []
  | row :: rest =>
    let (known, after) := set.containsThenInsert ⟨row⟩
    (!known) :: insertAll after rest

variable {set : Std.HashSet (RowKey h)} {earlier : List (List Value)}

theorem insertAll_cons (set : Std.HashSet (RowKey h)) (row : List Value) (rest : List (List Value)) :
    insertAll set (row :: rest) = (!set.contains ⟨row⟩) :: insertAll (set.insert ⟨row⟩) rest := by
  simp only [insertAll, Std.HashSet.containsThenInsert_fst, Std.HashSet.containsThenInsert_snd]

/-- A set that tells of every row whether it is the same as an earlier one. -/
def Holds (set : Std.HashSet (RowKey h)) (earlier : List (List Value)) : Prop :=
  ∀ row, set.contains ⟨row⟩ = earlier.any (Value.sameRow row)

theorem holds_empty : Holds (∅ : Std.HashSet (RowKey h)) [] :=
  fun _ => Std.HashSet.contains_empty

theorem sameRow_comm (as bs : List Value) : Value.sameRow as bs = Value.sameRow bs as := by
  rw [Bool.eq_iff_iff, Value.sameRow_iff, Value.sameRow_iff, eq_comm]

theorem Holds.insert (holds : Holds set earlier) (row : List Value) : Holds (set.insert ⟨row⟩) (row :: earlier) := by
  intro other
  have first : ((⟨row⟩ : RowKey h) == ⟨other⟩) = Value.sameRow other row := sameRow_comm row other
  rw [Std.HashSet.contains_insert, List.any_cons, first, holds other]

theorem Holds.insert_known (holds : Holds set earlier) {row : List Value} (known : earlier.any (Value.sameRow row) = true) :
    Holds (set.insert ⟨row⟩) earlier := by
  intro other
  rw [holds.insert row other, List.any_cons]
  by_cases same : Value.sameRow other row = true
  · have also : set.contains ⟨row⟩ = set.contains ⟨other⟩ :=
      Std.HashSet.contains_congr ((Value.sameRow_iff _ _).2 ((Value.sameRow_iff _ _).1 same).symm)
    rw [← holds other, ← also, holds row, known, Bool.or_true]
  · rw [Bool.eq_false_iff.2 same, Bool.false_or]

/-- The set and the rows themselves tell the same. -/
theorem insertAll_eq_novelty (holds : Holds set earlier) (rows : List (List Value)) :
    insertAll set rows = Value.novelty earlier rows := by
  induction rows generalizing set earlier with
  | nil => rfl
  | cons row rest ih =>
    rw [insertAll_cons, holds row, Value.novelty]
    by_cases known : earlier.any (Value.sameRow row) = true
    · rw [if_pos known, known, ih (holds.insert_known known)]
      rfl
    · rw [if_neg known, Bool.eq_false_iff.2 known, ih (holds.insert row)]
      rfl

theorem insertAll_place (holds : Holds set earlier) (before : List (List Value)) (row : List Value)
    (after : List (List Value)) :
    (insertAll set (before ++ row :: after))[before.length]? =
      some (!(before.any (Value.sameRow row) || earlier.any (Value.sameRow row))) := by
  induction before generalizing set earlier with
  | nil =>
    rw [List.nil_append, insertAll_cons, holds row]
    rfl
  | cons first before ih =>
    rw [List.cons_append, insertAll_cons, List.length_cons, List.getElem?_cons_succ, ih (holds.insert first),
      List.any_cons, List.any_cons, Bool.or_left_comm, Bool.or_assoc]

end Sets

/-- Equality of values is a lawful key. It is an equivalence that goes by storage class and content, where both zeros are
    one content and all patterns that are not a number are another, and it tells no more and no less than what values
    feed to a hasher. Of rows inserted into a set one after the other, whatever its hasher, a row is new exactly if no
    earlier one has the same length and the same values. -/
theorem Value.lawful_key :
    Equivalence (fun a b : Value => a.same b = true) ∧
    (∀ a b : Value, a.same b = true ↔ a.storageClass = b.storageClass ∧ a.ContentAgrees b) ∧
    (∀ (n : Int64) (x : Binary64), (Value.integer n).same (.real x) = false) ∧
    (∀ a b : Value, a.hashInputs = b.hashInputs ↔ a.same b = true) ∧
    ∀ (h : Hasher) (rows : List (List Value)),
      insertAll (∅ : Std.HashSet (RowKey h)) rows = Value.novelty [] rows ∧
      ∀ (before : List (List Value)) (row : List Value) (after : List (List Value)), rows = before ++ row :: after →
        ∃ new, (insertAll (∅ : Std.HashSet (RowKey h)) rows)[before.length]? = some new ∧
          (new = true ↔ ∀ earlier ∈ before, ¬(earlier.length = row.length ∧
            ∀ (i : Nat) (a b : Value), earlier[i]? = some a → row[i]? = some b → a.same b = true)) := by
  refine ⟨same_equivalence, same_iff_contentAgrees, fun n x => ?_, hashInputs_eq_iff, fun h rows => ⟨?_, ?_⟩⟩
  · rw [Bool.eq_false_iff, ne_eq, same_iff_contentAgrees]
    exact fun same => nomatch same.1
  · exact insertAll_eq_novelty holds_empty rows
  · rintro before row after rfl
    refine ⟨_, insertAll_place holds_empty before row after, ?_⟩
    simp only [← sameRow_iff_places, List.any_nil, Bool.or_false, Bool.not_eq_true', List.any_eq_false]
    exact forall₂_congr fun earlier _ => by rw [sameRow_comm]

section Signs

def countingHasher : Hasher :=
  ⟨UInt64, 0, fun n _ => n + 1, id⟩

def plusZero : Value := .real ⟨0⟩
def minusZero : Value := .real ⟨0x8000000000000000⟩
def quietPattern : Value := .real ⟨0x7FF8000000000000⟩
def signalPattern : Value := .real ⟨0xFFF0000000000001⟩

theorem Value.lawful_key_signs :
    plusZero.same minusZero = true ∧ quietPattern.same signalPattern = true ∧
    (Value.integer 0).same plusZero = false ∧ minusZero.hashInputs = plusZero.hashInputs ∧
    (insertAll (∅ : Std.HashSet (RowKey countingHasher))
      [[.integer 1, plusZero], [plusZero], [signalPattern], [.integer 1, minusZero], [.integer 0]])[3]? = some false := by
  obtain ⟨-, agrees, apart, feeds, sets⟩ := Value.lawful_key
  have zeros : plusZero.same minusZero = true := (agrees _ _).2 ⟨rfl, .inr (.inl (by decide))⟩
  have patterns : quietPattern.same signalPattern = true := (agrees _ _).2 ⟨rfl, .inr (.inr (by decide))⟩
  refine ⟨zeros, patterns, apart _ _, (feeds _ _).2 (by rwa [Value.same_symm]), ?_⟩
  obtain ⟨new, here, told⟩ := (sets countingHasher _).2 [[.integer 1, plusZero], [plusZero], [signalPattern]]
    [.integer 1, minusZero] [[.integer 0]] rfl
  have known : new = false := by
    rw [Bool.eq_false_iff, ne_eq, told]
    intro none
    refine none _ List.mem_cons_self ⟨rfl, ?_⟩
    rintro (_ | _ | i) a b ⟨⟩ ⟨⟩
    · exact Value.same_refl _
    · exact zeros
  exact known ▸ here

end Signs

end RecordMapper
