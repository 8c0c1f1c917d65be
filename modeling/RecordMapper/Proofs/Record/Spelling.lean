import Mathlib.Algebra.GroupWithZero.Nat
import Mathlib.Data.List.Induction
import RecordMapper.Uuid

namespace RecordMapper

open RecordMapper.Text

section Digits

theorem natOfHex?_append (before : List Char) (digit : Char) :
    natOfHex? (before ++ [digit]) = (natOfHex? before).bind fun n => (hexValue? digit).map (16 * n + ·) := by
  simp only [natOfHex?, List.foldlM_append, List.foldlM_cons, List.foldlM_nil, bind_pure]
  rfl

theorem high_of_not_ascii {c : Char} (high : ¬c.toNat < 128) : hexValue? c = none ∧ c.toLower = c := by
  have above (d : Char) (low : d.toNat < 128) : ¬c ≤ d := by
    rw [Char.le_def, UInt32.le_iff_toNat_le]
    exact fun below => high (Nat.lt_of_le_of_lt below low)
  constructor
  · unfold hexValue?
    rw [if_neg fun within => above '9' (by decide) within.2, if_neg fun within => above 'f' (by decide) within.2,
      if_neg fun within => above 'F' (by decide) within.2]
  · unfold Char.toLower
    exact dif_neg fun within => above 'Z' (by decide) within.2

theorem hexValue?_ascii : ∀ n < 128, (hexValue? (Char.ofNat n)).all (· < 16) = true ∧
    ∀ v < 16, hexValue? (Char.ofNat n) = some v ↔ (Char.ofNat n).toLower = hexDigit v := by
  decide +kernel

theorem hexValue?_eq_some_iff {c : Char} {v : Nat} : hexValue? c = some v ↔ v < 16 ∧ c.toLower = hexDigit v := by
  have small : ∀ v < 16, (hexDigit v).toNat < 128 := by decide
  by_cases ascii : c.toNat < 128
  · obtain ⟨bounded, digits⟩ := hexValue?_ascii c.toNat ascii
    rw [Char.ofNat_toNat] at bounded digits
    constructor
    · intro value
      rw [value] at bounded
      have below : v < 16 := of_decide_eq_true bounded
      exact ⟨below, (digits v below).1 value⟩
    · exact fun ⟨below, digit⟩ => (digits v below).2 digit
  · obtain ⟨none, same⟩ := high_of_not_ascii ascii
    rw [none, same]
    refine iff_of_false (by simp) ?_
    rintro ⟨below, rfl⟩
    exact ascii (small v below)

theorem natOfHex?_eq_some_iff (digits : List Char) (n : Nat) : natOfHex? digits = some n ↔
    n < 16 ^ digits.length ∧ digits.map Char.toLower = hexOfNat digits.length n := by
  induction digits using List.reverseRecOn generalizing n with
  | nil =>
    rw [List.length_nil, Nat.pow_zero, Nat.lt_one_iff]
    exact ⟨fun same => ⟨(Option.some.inj same).symm, rfl⟩, fun zero => congrArg some zero.1.symm⟩
  | append_singleton before digit ih =>
    rw [natOfHex?_append, List.length_append, List.length_singleton, List.map_append, List.map_singleton, hexOfNat,
      Nat.pow_succ, Option.bind_eq_some_iff]
    simp only [Option.map_eq_some_iff, ih, hexValue?_eq_some_iff]
    constructor
    · rintro ⟨m, ⟨small, same⟩, v, ⟨below, last⟩, rfl⟩
      have quotient : (16 * m + v) / 16 = m := by omega
      have rest : (16 * m + v) % 16 = v := by omega
      rw [quotient, rest, same, last]
      exact ⟨by omega, rfl⟩
    · rintro ⟨small, same⟩
      obtain ⟨front, last⟩ := List.append_inj' same rfl
      exact ⟨n / 16, ⟨by omega, front⟩, n % 16, ⟨Nat.mod_lt _ (by decide), List.singleton_inj.1 last⟩, Nat.div_add_mod n 16⟩

theorem toLower_hexDigit : ∀ n < 16, (hexDigit n).toLower = hexDigit n := by
  decide

theorem map_toLower_hexOfNat (width n : Nat) : (hexOfNat width n).map Char.toLower = hexOfNat width n := by
  induction width generalizing n with
  | zero => rfl
  | succ width ih => rw [hexOfNat, List.map_append, ih, List.map_singleton, toLower_hexDigit _ (Nat.mod_lt _ (by decide))]

end Digits

namespace Uuid

variable {u : Uuid} {chars digits : List Char}

section Groups

/-- Text of five groups of digits with hyphens between them, and the digits alone. -/
inductive Groups : List Char → List Char → Prop where
  | of {a b c d e : List Char} (first : a.length = 8) (second : b.length = 4) (third : c.length = 4)
      (fourth : d.length = 4) (fifth : e.length = 12) :
      Groups (a ++ '-' :: (b ++ '-' :: (c ++ '-' :: (d ++ '-' :: e)))) (a ++ b ++ c ++ d ++ e)

theorem length_digits (u : Uuid) : u.digits.length = 32 :=
  length_hexOfNat _ _

theorem groups_text (u : Uuid) : Groups u.text.toList u.digits := by
  have long := u.length_digits
  have cut (k m : Nat) : (u.digits.drop k).take m ++ u.digits.drop (k + m) = u.digits.drop k := by
    rw [← List.drop_drop, List.take_append_drop]
  have parts : u.digits.take 8 ++ (u.digits.drop 8).take 4 ++ (u.digits.drop 12).take 4 ++ (u.digits.drop 16).take 4 ++
      u.digits.drop 20 = u.digits := by
    rw [List.append_assoc, cut 16 4, List.append_assoc, cut 12 4, List.append_assoc, cut 8 4, List.take_append_drop]
  have groups := Groups.of (a := u.digits.take 8) (b := (u.digits.drop 8).take 4) (c := (u.digits.drop 12).take 4)
    (d := (u.digits.drop 16).take 4) (e := u.digits.drop 20) (by simp [long]) (by simp [long]) (by simp [long])
    (by simp [long]) (by simp [long])
  rw [parts] at groups
  rw [text, String.toList_ofList]
  simpa only [List.append_assoc, List.cons_append] using groups

namespace Groups

theorem length (groups : Groups chars digits) : chars.length = 36 := by
  cases groups
  simp only [List.length_append, List.length_cons]
  omega

theorem read (groups : Groups chars digits) : ofGroups? chars = ofDigits? digits := by
  cases groups with
  | of first second third fourth fifth =>
    simp [ofGroups?, List.drop_append, List.getElem?_append, first, second, third, fourth, fifth,
      List.drop_eq_nil_of_le]

theorem map (f : Char → Char) (hyphen : f '-' = '-') (groups : Groups chars digits) :
    Groups (chars.map f) (digits.map f) := by
  cases groups with
  | of first second third fourth fifth =>
    simp only [List.map_append, List.map_cons, hyphen]
    exact .of (by simpa) (by simpa) (by simpa) (by simpa) (by simpa)

theorem unique {other : List Char} (groups : Groups chars digits) (also : Groups other digits) : chars = other := by
  generalize same : digits = digits' at also
  cases groups with
  | of first second third fourth fifth =>
    cases also with
    | of first' second' third' fourth' fifth' =>
      obtain ⟨toFourth, rfl⟩ := List.append_inj' same (fifth.trans fifth'.symm)
      obtain ⟨toThird, rfl⟩ := List.append_inj' toFourth (fourth.trans fourth'.symm)
      obtain ⟨toSecond, rfl⟩ := List.append_inj' toThird (third.trans third'.symm)
      obtain ⟨rfl, rfl⟩ := List.append_inj' toSecond (second.trans second'.symm)
      rfl

theorem of_map {f : Char → Char} (hyphen : ∀ c, f c = '-' → c = '-') {changed : List Char}
    (groups : Groups changed digits) (same : chars.map f = changed) :
    ∃ original, Groups chars original ∧ original.map f = digits := by
  cases groups with
  | of first second third fourth fifth =>
    simp only [List.map_eq_append_iff, List.map_eq_cons_iff] at same
    obtain ⟨a, _, rfl, rfl, x, _, rfl, isOne, b, _, rfl, rfl, y, _, rfl, isTwo, c, _, rfl, rfl, z, _, rfl, isThree,
      d, _, rfl, rfl, w, e, rfl, isFour, rfl⟩ := same
    obtain rfl := hyphen x isOne
    obtain rfl := hyphen y isTwo
    obtain rfl := hyphen z isThree
    obtain rfl := hyphen w isFour
    rw [List.length_map] at first second third fourth fifth
    exact ⟨_, .of first second third fourth fifth, by simp only [List.map_append]⟩

end Groups

theorem groups_of_read (read : ofGroups? chars = some u) : ∃ digits, Groups chars digits := by
  unfold ofGroups? at read
  simp only [] at read
  split at read
  · rename_i layout
    simp only [List.all_cons, List.all_nil, Bool.and_true, Bool.and_eq_true, decide_eq_true_eq, beq_iff_eq] at layout
    obtain ⟨long, first, second, third, fourth⟩ := layout
    have hyphen {i : Nat} (here : chars[i]? = some '-') : chars.drop i = '-' :: chars.drop (i + 1) := by
      obtain ⟨bound, same⟩ := List.getElem?_eq_some_iff.1 here
      rw [List.drop_eq_getElem_cons bound, same]
    have cut (k m : Nat) : (chars.drop k).take m ++ chars.drop (k + m) = chars.drop k := by
      rw [← List.drop_drop, List.take_append_drop]
    have whole : chars.take 8 ++ '-' :: ((chars.drop 9).take 4 ++ '-' :: ((chars.drop 14).take 4 ++
        '-' :: ((chars.drop 19).take 4 ++ '-' :: chars.drop 24))) = chars := by
      rw [← hyphen fourth, cut 19 4, ← hyphen third, cut 14 4, ← hyphen second, cut 9 4, ← hyphen first,
        List.take_append_drop]
    have groups := Groups.of (a := chars.take 8) (b := (chars.drop 9).take 4) (c := (chars.drop 14).take 4)
      (d := (chars.drop 19).take 4) (e := chars.drop 24) (by simp [long]) (by simp [long]) (by simp [long])
      (by simp [long]) (by simp [long])
    rw [whole] at groups
    exact ⟨_, groups⟩
  · cases read

end Groups

section Readers

theorem eq_of_toLower {c mark : Char} (caseless : mark.isLower = false) (same : c.toLower = mark) : c = mark := by
  unfold Char.toLower at same
  split at same
  · rename_i capital
    subst same
    have range := capital
    have lower (d : Char) : d.isLower = (decide ('a'.val ≤ d.val) && decide (d.val ≤ 'z'.val)) := rfl
    simp only [ge_iff_le, UInt32.le_iff_toNat_le] at range
    rw [lower] at caseless
    simp only [Bool.and_eq_false_iff, decide_eq_false_iff_not, UInt32.le_iff_toNat_le, UInt32.toNat_add] at caseless
    have marks : 'A'.val.toNat = 65 ∧ 'Z'.val.toNat = 90 ∧ 'a'.val.toNat = 97 ∧ 'z'.val.toNat = 122 ∧
        ('a'.val - 'A'.val).toNat = 32 := by decide
    omega
  · exact same

theorem ofDigits?_eq_some_iff : ofDigits? chars = some u ↔ chars.map Char.toLower = u.digits := by
  have bound : u.value.toNat < 16 ^ 32 := u.value.isLt
  constructor
  · intro read
    unfold ofDigits? at read
    split at read
    · rename_i long
      obtain ⟨n, value, same⟩ := Option.map_eq_some_iff.1 read
      rw [natOfHex?_eq_some_iff, long] at value
      have whole : u.value.toNat = n := by
        rw [← same, BitVec.toNat_ofNat, Nat.mod_eq_of_lt (by exact value.1)]
      rw [Uuid.digits, whole, value.2]
    · cases read
  · intro same
    have long : chars.length = 32 := by
      rw [← u.length_digits, ← same, List.length_map]
    have value : natOfHex? chars = some u.value.toNat := by
      rw [natOfHex?_eq_some_iff, long]
      exact ⟨bound, same⟩
    rw [ofDigits?, if_pos long, value, Option.map_some, BitVec.ofNat_toNat, BitVec.setWidth_eq]

theorem ofGroups?_eq_some_iff : ofGroups? chars = some u ↔ chars.map Char.toLower = u.text.toList := by
  constructor
  · intro read
    obtain ⟨digits, groups⟩ := groups_of_read read
    have value := ofDigits?_eq_some_iff.1 (groups.read.symm.trans read)
    have folded := groups.map Char.toLower (by decide)
    rw [value] at folded
    exact folded.unique u.groups_text
  · intro same
    obtain ⟨digits, groups, value⟩ := u.groups_text.of_map (fun _ => eq_of_toLower (by decide)) same
    rw [groups.read]
    exact ofDigits?_eq_some_iff.2 value

end Readers

section Spellings

/-- The ways in which an identifier is spelled, letter case aside. -/
inductive Spelling where
  | digits
  | grouped
  | braced
  | named
  deriving DecidableEq, Repr

def Spelling.text (u : Uuid) : Spelling → String
  | .digits => String.ofList u.digits
  | .grouped => u.text
  | .braced => "\x7b" ++ u.text ++ "\x7d"
  | .named => "urn:uuid:" ++ u.text

variable {text : String} {inner : List Char}

theorem foldCase_eq_iff {written : String} : foldCase text = written ↔ text.toList.map Char.toLower = written.toList := by
  rw [foldCase, ← String.toList_inj, String.toList_ofList]

theorem toList_braced (u : Uuid) : (Spelling.braced.text u).toList = '\x7b' :: (u.text.toList ++ ['\x7d']) := by
  simp only [Spelling.text, String.toList_append]
  exact congrArg (· ++ ['\x7d']) List.singleton_append

theorem toList_named (u : Uuid) : (Spelling.named.text u).toList = urnMark ++ u.text.toList := by
  rw [Spelling.text, String.toList_append]
  unfold urnMark
  rfl

theorem length_urnMark : urnMark.length = 9 := by
  decide

theorem exists_between {first last : Char} (long : chars.length = 38) (begins : chars.head? = some first)
    (ends : chars.getLast? = some last) : ∃ inner, chars = first :: (inner ++ [last]) := by
  obtain ⟨rest, rfl⟩ := List.head?_eq_some_iff.1 begins
  obtain ⟨before, same⟩ := List.getLast?_eq_some_iff.1 ends
  cases before with
  | nil => simp [same] at long
  | cons c inner =>
    obtain ⟨rfl, rfl⟩ := List.cons.inj same
    exact ⟨inner, rfl⟩

theorem ofText?_braced (chars : text.toList = '\x7b' :: (inner ++ ['\x7d'])) (long : inner.length = 36) :
    ofText? text = ofGroups? inner := by
  have whole : ('\x7b' :: (inner ++ ['\x7d'])).length = 38 := by
    rw [List.length_cons, List.length_append, long]
    rfl
  have marks : (List.head? ('\x7b' :: (inner ++ ['\x7d'])) == some '\x7b' &&
      List.getLast? ('\x7b' :: (inner ++ ['\x7d'])) == some '\x7d') = true := by
    rw [← List.cons_append, List.getLast?_concat]
    rfl
  simp only [ofText?, chars, whole, marks, if_true]
  rw [List.drop_one, List.tail_cons, List.dropLast_concat]

theorem ofText?_named {front : List Char} (chars : text.toList = front ++ inner)
    (mark : front.map Char.toLower = urnMark) (long : inner.length = 36) : ofText? text = ofGroups? inner := by
  have nine : front.length = 9 := by
    rw [← length_urnMark, ← mark, List.length_map]
  have whole : (front ++ inner).length = 45 := by
    rw [List.length_append, nine, long]
  simp only [ofText?, chars, whole]
  rw [List.take_left' nine, List.drop_left' nine, mark]
  rfl

theorem length_of_folded {chars folded : List Char} (same : chars.map Char.toLower = folded) :
    chars.length = folded.length := by
  rw [← same, List.length_map]

theorem ofText?_of_spelling (spelling : Spelling) (same : foldCase text = spelling.text u) : ofText? text = some u := by
  rw [foldCase_eq_iff] at same
  cases spelling with
  | digits =>
    rw [Spelling.text, String.toList_ofList] at same
    have long : text.toList.length = 32 := (length_of_folded same).trans u.length_digits
    simp only [ofText?, long]
    exact ofDigits?_eq_some_iff.2 same
  | grouped =>
    have long : text.toList.length = 36 := (length_of_folded same).trans u.groups_text.length
    simp only [ofText?, long]
    exact ofGroups?_eq_some_iff.2 same
  | braced =>
    rw [toList_braced] at same
    obtain ⟨first, rest, chars, opening, folded⟩ := List.map_eq_cons_iff.1 same
    obtain ⟨inner, back, rfl, groups, closing⟩ := List.map_eq_append_iff.1 folded
    obtain ⟨last, rfl, closes⟩ := List.map_eq_singleton_iff.1 closing
    obtain rfl := eq_of_toLower (by decide) opening
    obtain rfl := eq_of_toLower (by decide) closes
    rw [ofText?_braced chars ((length_of_folded groups).trans u.groups_text.length)]
    exact ofGroups?_eq_some_iff.2 groups
  | named =>
    rw [toList_named] at same
    obtain ⟨front, inner, chars, mark, groups⟩ := List.map_eq_append_iff.1 same
    rw [ofText?_named chars mark ((length_of_folded groups).trans u.groups_text.length)]
    exact ofGroups?_eq_some_iff.2 groups

theorem exists_spelling (read : ofText? text = some u) : ∃ spelling : Spelling, foldCase text = spelling.text u := by
  simp only [foldCase_eq_iff]
  unfold ofText? at read
  simp only [] at read
  split at read
  · refine ⟨.digits, ?_⟩
    rw [Spelling.text, String.toList_ofList]
    exact ofDigits?_eq_some_iff.1 read
  · exact ⟨.grouped, ofGroups?_eq_some_iff.1 read⟩
  · rename_i long
    split at read
    · rename_i marks
      rw [Bool.and_eq_true, beq_iff_eq, beq_iff_eq] at marks
      obtain ⟨inner, chars⟩ := exists_between long marks.1 marks.2
      rw [chars] at read ⊢
      refine ⟨.braced, ?_⟩
      have groups : ofGroups? inner = some u := by simpa using read
      rw [toList_braced, ← ofGroups?_eq_some_iff.1 groups, List.map_cons, List.map_append]
      rfl
    · cases read
  · split at read
    · rename_i mark
      refine ⟨.named, ?_⟩
      rw [toList_named, ← ofGroups?_eq_some_iff.1 read, ← beq_iff_eq.1 mark, ← List.map_append, List.take_append_drop]
    · cases read
  · cases read

/-- The texts that are read as an identifier are its spellings in any letter case. -/
theorem ofText?_eq_some_iff : ofText? text = some u ↔ ∃ spelling : Spelling, foldCase text = spelling.text u :=
  ⟨exists_spelling, fun ⟨spelling, same⟩ => ofText?_of_spelling spelling same⟩

theorem foldCase_text (u : Uuid) : foldCase u.text = u.text := by
  have folded := u.groups_text.map Char.toLower (by decide)
  rw [digits, map_toLower_hexOfNat] at folded
  exact foldCase_eq_iff.2 (folded.unique u.groups_text)

theorem ofText?_text (u : Uuid) : ofText? u.text = some u :=
  ofText?_eq_some_iff.2 ⟨.grouped, u.foldCase_text⟩

end Spellings

end Uuid

end RecordMapper
