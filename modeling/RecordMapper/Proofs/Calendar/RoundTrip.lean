import Mathlib.Data.Nat.Digits.Lemmas
import RecordMapper.Calendar.Written
import RecordMapper.Proofs.Calendar.DayNumber
import RecordMapper.Proofs.Predicate.Lexing

namespace RecordMapper.Calendar

open RecordMapper.Text

section Digits

variable {width n : Nat}

def digits (width n : Nat) : List Char :=
  (paddedDecimal width n).toList

theorem digits_eq (width n : Nat) :
    digits width n = List.replicate (width - (Nat.toDigits 10 n).length) '0' ++ Nat.toDigits 10 n := by
  rw [digits, paddedDecimal, String.toList_ofList]

theorem isDigit_digits {c : Char} (member : c ∈ digits width n) : isDigit c = true := by
  rw [digits_eq, List.mem_append] at member
  rcases member with zero | digit
  · rw [List.eq_of_mem_replicate zero]
    rfl
  · have plain := Nat.isDigit_of_mem_toDigits (by decide) (by decide) digit
    rw [Char.isDigit_iff_toNat] at plain
    exact (Sql.isDigit_iff c).2 plain

theorem decimalValue_digits (width n : Nat) : decimalValue (digits width n) = n := by
  have same : decimalValue (digits width n) = Nat.ofDigitChars 10 (digits width n) 0 := rfl
  rw [same, digits_eq, Nat.ofDigitChars_append, Nat.ofDigitChars_replicate_zero, Nat.mul_zero,
    Nat.ofDigitChars_ten_toDigits]

theorem length_digits (positive : 0 < width) (fits : n < 10 ^ width) : (digits width n).length = width := by
  have short := (Nat.length_toDigits_le_iff (by decide) positive).2 fits
  rw [digits_eq, List.length_append, List.length_replicate]
  omega

theorem le_length_digits (width n : Nat) : width ≤ (digits width n).length := by
  rw [digits_eq, List.length_append, List.length_replicate]
  omega

end Digits

section Scans

variable {α β : Type} {width n : Nat} {text rest : List Char}

theorem Scan.bind_ok {scan : Scan α} {next : α → Scan β} {a : α} (read : scan text = .ok (a, rest)) :
    (scan >>= next) text = next a rest := by
  show (scan text).bind (fun p => next p.1 p.2) = _
  rw [read]
  rfl

theorem Scan.run_ok {scan : Scan α} {written : String} {a : α} (read : scan written.toList = .ok (a, rest)) :
    scan.run written = .ok a := by
  rw [Scan.run, read]
  rfl

theorem not_isBlank_of_isDigit {c : Char} (digit : isDigit c = true) : isBlank c = false := by
  have bounds := (Sql.isDigit_iff c).1 digit
  simp only [isBlank, Bool.or_eq_false_iff, Bool.and_eq_false_iff, decide_eq_false_iff_not, beq_eq_false_iff_ne]
  omega

def EndsNumber (rest : List Char) : Prop :=
  ∀ c ∈ rest.head?, isDigit c = false

theorem length_le_byteCount (text : List Char) : text.length ≤ byteCount text := by
  induction text with
  | nil => exact Nat.le_refl _
  | cons c text ih =>
    have some : 0 < c.utf8Size := c.utf8Size_pos
    show text.length + 1 ≤ c.utf8Size + byteCount text
    omega

theorem Scan.number_of_run {least : Nat} {max : Option Nat} (run : digitRun max (digits width n ++ rest) = digits width n)
    (few : least ≤ (digits width n).length) (small : n ≤ maxNumber) :
    Scan.number least max (digits width n ++ rest) = .ok (n, rest) := by
  have long : ¬byteCount (digits width n ++ rest) < least := by
    have bytes := length_le_byteCount (digits width n ++ rest)
    rw [List.length_append] at bytes
    omega
  simp only [number, if_neg long, run, if_neg (Nat.not_lt.2 few), decimalValue_digits, if_neg (Nat.not_lt.2 small),
    List.drop_left]

theorem Scan.number_fixed {least : Nat} (few : least ≤ width) (positive : 0 < width) (fits : n < 10 ^ width)
    (small : n ≤ maxNumber) (rest : List Char) :
    Scan.number least (some width) (digits width n ++ rest) = .ok (n, rest) := by
  have length := length_digits positive fits
  refine number_of_run ?_ (Nat.le_trans few (Nat.le_of_eq length.symm)) small
  have first : (digits width n ++ rest).takeWhile isDigit = digits width n ++ rest.takeWhile isDigit :=
    List.takeWhile_append_of_pos fun c member => isDigit_digits member
  simp only [digitRun, first]
  rw [List.take_append_of_le_length (Nat.le_of_eq length.symm)]
  exact List.take_of_length_le (Nat.le_of_eq length)

theorem Scan.number_open {least : Nat} (few : least ≤ width) (small : n ≤ maxNumber) (ends : EndsNumber rest) :
    Scan.number least none (digits width n ++ rest) = .ok (n, rest) := by
  refine number_of_run ?_ (Nat.le_trans few (le_length_digits width n)) small
  have all : ∀ c ∈ digits width n, isDigit c = true := fun c member => isDigit_digits member
  simp only [digitRun, (Sql.takeWhile_run all ends).1]

theorem Scan.skipBlanks_of_digits (positive : 0 < width) (rest : List Char) :
    Scan.skipBlanks (digits width n ++ rest) = .ok ((), digits width n ++ rest) := by
  rcases written : digits width n with _ | ⟨c, more⟩
  · have long := le_length_digits width n
    rw [written, List.length_nil] at long
    omega
  · have digit : isDigit c = true := isDigit_digits (written ▸ List.mem_cons_self)
    rw [skipBlanks, List.cons_append, dropBlanks_of_not_blank _ _ (not_isBlank_of_isDigit digit)]

theorem Scan.skipBlanks_sign {c : Char} (solid : isBlank c = false) (rest : List Char) :
    Scan.skipBlanks (c :: rest) = .ok ((), c :: rest) := by
  rw [skipBlanks, dropBlanks_of_not_blank c rest solid]

theorem Scan.field_digits {low high : Nat} (positive : 0 < width) (fits : n < 10 ^ width) (small : n ≤ maxNumber)
    (range : low ≤ n ∧ n ≤ high) (rest : List Char) :
    Scan.field width low high (digits width n ++ rest) = .ok (n, rest) := by
  unfold field
  rw [bind_ok (skipBlanks_of_digits positive rest), bind_ok (number_fixed positive positive fits small rest), inRange,
    if_pos range]
  rfl

theorem Scan.char_ok (c : Char) (rest : List Char) : Scan.char c (c :: rest) = .ok ((), rest) :=
  if_pos rfl

theorem Scan.optional_absent {c : Char} (absent : ∀ d ∈ text.head?, d ≠ c) : Scan.optional c text = .ok (false, text) := by
  cases text with
  | nil => rfl
  | cons d text => exact if_neg (absent d rfl)

theorem Scan.optional_present (c : Char) (rest : List Char) : Scan.optional c (c :: rest) = .ok (true, rest) :=
  if_pos rfl

theorem ne_of_isDigit {c d : Char} (digit : isDigit d = true) (sign : isDigit c = false) : d ≠ c := by
  rintro rfl
  exact absurd (digit.symm.trans sign) (by decide)

theorem head?_digits (positive : 0 < width) : ∀ d ∈ (digits width n ++ rest).head?, isDigit d = true := by
  rcases written : digits width n with _ | ⟨c, more⟩
  · have long := le_length_digits width n
    rw [written, List.length_nil] at long
    omega
  · intro d first
    obtain rfl : c = d := Option.some.inj first
    exact isDigit_digits (written ▸ List.mem_cons_self)

theorem endsNumber_cons {c : Char} (sign : isDigit c = false) (rest : List Char) : EndsNumber (c :: rest) := by
  rintro d ⟨⟩
  exact sign

theorem Scan.signedNumber_minus (small : n ≤ maxNumber) (ends : EndsNumber rest) :
    Scan.signedNumber ('-' :: (digits 4 n ++ rest)) = .ok (-(n : Int), rest) := by
  unfold signedNumber
  rw [bind_ok (optional_present _ _), if_pos rfl, bind_ok (number_open (by decide) small ends)]
  rfl

theorem Scan.signedNumber_plus (small : n ≤ maxNumber) (ends : EndsNumber rest) :
    Scan.signedNumber ('+' :: (digits 4 n ++ rest)) = .ok ((n : Int), rest) := by
  have unmarked : Scan.optional '-' ('+' :: (digits 4 n ++ rest)) = .ok (false, '+' :: (digits 4 n ++ rest)) :=
    optional_absent (by rintro d ⟨⟩; decide)
  unfold signedNumber
  rw [bind_ok unmarked, if_neg Bool.false_ne_true, bind_ok (optional_present _ _), if_pos rfl,
    bind_ok (number_open (by decide) small ends)]
  rfl

theorem Scan.signedNumber_plain (fits : n < 10 ^ 4) (rest : List Char) :
    Scan.signedNumber (digits 4 n ++ rest) = .ok ((n : Int), rest) := by
  have plain (c : Char) (sign : isDigit c = false) :
      Scan.optional c (digits 4 n ++ rest) = .ok (false, digits 4 n ++ rest) :=
    optional_absent fun d first => ne_of_isDigit (head?_digits (by decide) d first) sign
  have small : n ≤ maxNumber := by
    have most : maxNumber = 9223372036854775807 := rfl
    omega
  unfold signedNumber
  rw [bind_ok (plain '-' rfl), if_neg Bool.false_ne_true, bind_ok (plain '+' rfl), if_neg Bool.false_ne_true,
    bind_ok (number_fixed (by decide) (by decide) fits small rest)]
  rfl

theorem Scan.signedYear_text {year : Int} (bounds : minYear ≤ year ∧ year ≤ maxYear) (ends : EndsNumber rest) :
    Scan.signedYear ((yearText year).toList ++ rest) = .ok (year, rest) := by
  have low : minYear = -262143 := rfl
  have high : maxYear = 262142 := rfl
  have most : maxNumber = 9223372036854775807 := rfl
  have inside : ¬(year < -2147483648 ∨ 2147483647 < year) := by omega
  have small : year.natAbs ≤ maxNumber := by omega
  obtain ⟨solid, read⟩ : skipBlanks ((yearText year).toList ++ rest) = .ok ((), (yearText year).toList ++ rest) ∧
      signedNumber ((yearText year).toList ++ rest) = .ok (year, rest) := by
    unfold yearText
    split
    · rename_i short
      have fits : year.natAbs < 10 ^ 4 := by omega
      rw [show (year : Int) = (year.natAbs : Int) by omega, Int.natAbs_natCast]
      exact ⟨skipBlanks_of_digits (by decide) rest, signedNumber_plain fits rest⟩
    · rw [String.toList_append, List.append_assoc]
      split
      · have size : -(year.natAbs : Int) = year := by omega
        have read := signedNumber_minus small ends
        rw [size] at read
        rw [show "-".toList = ['-'] from rfl, List.singleton_append]
        exact ⟨skipBlanks_sign rfl _, read⟩
      · have size : (year.natAbs : Int) = year := by omega
        have read := signedNumber_plus small ends
        rw [size] at read
        rw [show "+".toList = ['+'] from rfl, List.singleton_append]
        exact ⟨skipBlanks_sign rfl _, read⟩
  unfold signedYear
  rw [bind_ok solid, bind_ok read, if_neg inside]
  rfl

theorem daysInMonth_le (year : Int) (month : Nat) : daysInMonth year month ≤ 31 := by
  unfold daysInMonth
  split
  · split <;> decide
  all_goals decide

theorem Date.toList_text (d : Date) :
    d.text.toList = (yearText d.year).toList ++ '-' :: (digits 2 d.month ++ '-' :: digits 2 d.day) := by
  have mark : "-".toList = ['-'] := rfl
  simp only [Date.text, String.toList_append, List.append_assoc, mark, List.cons_append, List.nil_append, digits]

theorem Scan.dateFields_text (d : Date) (rest : List Char) :
    Scan.dateFields (d.text.toList ++ rest) = .ok ((d.year, d.month, d.day), rest) := by
  obtain ⟨low, high, month, december, day, last⟩ := d.isDate
  have days := daysInMonth_le d.year d.month
  have most : maxNumber = 9223372036854775807 := rfl
  have monthField (rest) : field 2 1 12 (digits 2 d.month ++ rest) = .ok (d.month, rest) :=
    field_digits (by decide) (by omega) (by omega) ⟨month, december⟩ rest
  have dayField (rest) : field 2 1 31 (digits 2 d.day ++ rest) = .ok (d.day, rest) :=
    field_digits (by decide) (by omega) (by omega) ⟨day, by omega⟩ rest
  unfold dateFields
  rw [Date.toList_text, List.append_assoc, List.cons_append, List.append_assoc, List.cons_append,
    bind_ok (signedYear_text ⟨low, high⟩ (endsNumber_cons rfl _)), bind_ok (char_ok _ _), bind_ok (monthField _),
    bind_ok (char_ok _ _), bind_ok (dayField _)]
  rfl

theorem Date.ofText_text (d : Date) : Date.ofText d.text = .ok d := by
  have fields := Scan.dateFields_text d []
  rw [List.append_nil] at fields
  refine Scan.run_ok (show _ = Except.ok (d, []) from ?_)
  unfold Scan.date
  rw [Scan.bind_ok fields]
  show Scan.ofOption .outOfRange (Date.of? d.year d.month d.day) [] = _
  rw [Date.of?_eq_some]
  rfl

theorem Scan.fraction_digits (fits : n < billion) (ends : EndsNumber rest) :
    Scan.fraction ('.' :: (digits 9 n ++ rest)) = .ok (n, rest) := by
  have most : maxNumber = 9223372036854775807 := rfl
  have places : billion = 1000000000 := rfl
  have value : number 1 (some 9) (digits 9 n ++ rest) = .ok (n, rest) :=
    number_fixed (by decide) (by decide) (by omega) (by omega) rest
  have stop : rest.dropWhile isDigit = rest := (Sql.takeWhile_run (c := []) (by simp) ends).2
  have nine : (digits 9 n ++ rest).length - rest.length = 9 := by
    rw [List.length_append, length_digits (by decide) (by omega), Nat.add_sub_cancel]
  have scaled : n * Nat.pow 10 (9 - 9) = n := Nat.mul_one n
  unfold fraction
  rw [bind_ok (optional_present _ _), if_pos rfl]
  simp only [nanoseconds, value, bind, Except.bind, nine, stop, scaled]
  rfl

namespace Moment

theorem hour_lt (m : Moment) : m.second / 3600 < 24 := by
  have day : secondsPerDay = 86400 := rfl
  have bound := m.isTime.1
  omega

/-- A leap second stands at the end of a minute. -/
def LeapsInPlace (m : Moment) : Prop :=
  billion ≤ m.nanosecond → m.second % 60 = 59

instance (m : Moment) : Decidable m.LeapsInPlace := by
  unfold LeapsInPlace
  infer_instance

theorem carry (m : Moment) :
    billion ≤ m.nanosecond ∧ m.nanosecond / billion = 1 ∧ billion + m.nanosecond % billion = m.nanosecond ∨
      m.nanosecond < billion ∧ m.nanosecond / billion = 0 ∧ m.nanosecond % billion = m.nanosecond := by
  have bound := m.isTime.2
  by_cases whole : billion ≤ m.nanosecond
  · have once : m.nanosecond / billion = 1 := Nat.div_eq_of_lt_le (by omega) (by omega)
    have rest := Nat.div_add_mod m.nanosecond billion
    rw [once, Nat.mul_one] at rest
    exact .inl ⟨whole, once, rest⟩
  · exact .inr ⟨Nat.lt_of_not_le whole, Nat.div_eq_of_lt (by omega), Nat.mod_eq_of_lt (by omega)⟩

theorem isTime_carried (m : Moment) (inner : m.second % 60 ≠ 59) :
    IsTimeOfDay (m.second + m.nanosecond / billion) (m.nanosecond % billion) := by
  have day : secondsPerDay = 86400 := rfl
  have bound := m.isTime.1
  have short : m.nanosecond % billion < billion := Nat.mod_lt _ (by decide)
  rcases m.carry with ⟨-, once, -⟩ | ⟨-, none, -⟩ <;> constructor <;> omega

/-- The moment that a text shows: the second that a leap second fills is carried over, but at the end of a minute. -/
def shown (m : Moment) : Moment :=
  if inner : m.second % 60 ≠ 59 then
    ⟨m.date, m.second + m.nanosecond / billion, m.nanosecond % billion, m.isTime_carried inner⟩
  else m

theorem shown_of_last {m : Moment} (last : m.second % 60 = 59) : m.shown = m :=
  dif_neg (not_not.2 last)

theorem shown_of_inner {m : Moment} (inner : m.second % 60 ≠ 59) :
    m.shown = ⟨m.date, m.second + m.nanosecond / billion, m.nanosecond % billion, m.isTime_carried inner⟩ :=
  dif_pos inner

theorem shown_of_leapsInPlace {m : Moment} (place : m.LeapsInPlace) : m.shown = m := by
  by_cases last : m.second % 60 = 59
  · exact shown_of_last last
  · obtain ⟨whole, -⟩ | ⟨-, none, rest⟩ := m.carry
    · exact absurd (place whole) last
    · rw [shown_of_inner last]
      simp only [none, rest, Nat.add_zero]

theorem leapsInPlace_shown (m : Moment) : m.shown.LeapsInPlace := by
  by_cases last : m.second % 60 = 59
  · rw [shown_of_last last]
    exact fun _ => last
  · rw [shown_of_inner last]
    intro whole
    have short : m.nanosecond % billion < billion := Nat.mod_lt _ (by decide)
    exact absurd whole (Nat.not_le.2 short)

theorem shown_eq_iff {m : Moment} : m.shown = m ↔ m.LeapsInPlace :=
  ⟨fun same => same ▸ m.leapsInPlace_shown, shown_of_leapsInPlace⟩

theorem shownSecond_le (m : Moment) : m.shownSecond ≤ 60 := by
  unfold shownSecond
  rcases m.carry with ⟨-, once, -⟩ | ⟨-, none, -⟩ <;> omega

theorem timeOfDay_shown (m : Moment) (rest : List Char) :
    Scan.timeOfDay m.date (m.second / 3600) (m.second / 60 % 60) m.shownSecond (m.nanosecond % billion) rest =
      .ok (m.shown, rest) := by
  suffices shown : Moment.of? m.date
      (m.second / 3600 * 3600 + m.second / 60 % 60 * 60 + if m.shownSecond = 60 then 59 else m.shownSecond)
      (if m.shownSecond = 60 then billion + m.nanosecond % billion else m.nanosecond % billion) = some m.shown by
    unfold Scan.timeOfDay
    simp only [shown]
    rfl
  have own : Moment.of? m.shown.date m.shown.second m.shown.nanosecond = some m.shown := dif_pos m.shown.isTime
  have second : m.shownSecond = m.second % 60 + m.nanosecond / billion := rfl
  by_cases last : m.second % 60 = 59
  · rw [shown_of_last last] at own ⊢
    rcases m.carry with ⟨-, once, whole⟩ | ⟨-, none, whole⟩
    · rw [if_pos (by omega), if_pos (by omega), whole, ← own]
      congr 1
      omega
    · rw [if_neg (by omega), if_neg (by omega), whole, ← own]
      congr 1
      omega
  · rw [shown_of_inner last] at own ⊢
    have inside : ¬m.shownSecond = 60 := by rcases m.carry with ⟨-, once, -⟩ | ⟨-, none, -⟩ <;> omega
    rw [if_neg inside, if_neg inside, ← own]
    congr 1
    show _ = m.second + m.nanosecond / billion
    omega

def clock (m : Moment) : List Char :=
  'T' :: (digits 2 (m.second / 3600) ++ ':' :: (digits 2 (m.second / 60 % 60) ++ ':' ::
    (digits 2 m.shownSecond ++ '.' :: digits 9 (m.nanosecond % billion))))

theorem toList_localText (m : Moment) : m.localText.toList = m.date.text.toList ++ m.clock := by
  have mark : "T".toList = ['T'] := rfl
  have colon : ":".toList = [':'] := rfl
  have point : ".".toList = ['.'] := rfl
  simp only [localText, String.toList_append, List.append_assoc, mark, colon, point, List.cons_append,
    List.nil_append, clock, digits]

/-- A local moment is read from its text as the moment that it shows. -/
theorem ofLocalText_localText (m : Moment) : ofLocalText m.localText = .ok m.shown := by
  have hour := m.hour_lt
  have second := m.shownSecond_le
  have most : Scan.maxNumber = 9223372036854775807 := rfl
  have two (n high : Nat) (small : n ≤ high) (short : high < 100) (rest) :
      Scan.field 2 0 high (digits 2 n ++ rest) = .ok (n, rest) :=
    Scan.field_digits (by decide) (by omega) (by omega) ⟨Nat.zero_le _, small⟩ rest
  have nanosecond : Scan.fraction ('.' :: digits 9 (m.nanosecond % billion)) = .ok (m.nanosecond % billion, []) := by
    have read : Scan.fraction ('.' :: (digits 9 (m.nanosecond % billion) ++ [])) = .ok (_, []) :=
      Scan.fraction_digits (Nat.mod_lt m.nanosecond (show 0 < billion by decide)) (by simp [EndsNumber])
    rwa [List.append_nil] at read
  refine Scan.run_ok (show _ = Except.ok (m.shown, []) from ?_)
  unfold Scan.localMoment
  rw [toList_localText, Scan.bind_ok (Scan.dateFields_text m.date _)]
  show (Scan.char 'T' >>= _) _ = _
  rw [clock, Scan.bind_ok (Scan.char_ok _ _), Scan.bind_ok (two _ 23 (by omega) (by decide) _),
    Scan.bind_ok (Scan.char_ok _ _), Scan.bind_ok (two _ 59 (by omega) (by decide) _),
    Scan.bind_ok (Scan.char_ok _ _), Scan.bind_ok (two _ 60 (by omega) (by decide) _), Scan.bind_ok nanosecond]
  rw [Scan.bind_ok (show Scan.endOfText [] = .ok ((), []) from rfl), Date.of?_eq_some]
  exact m.timeOfDay_shown []

theorem localText_shown (m : Moment) : m.shown.localText = m.localText := by
  by_cases last : m.second % 60 = 59
  · rw [shown_of_last last]
  · have hour : (m.second + m.nanosecond / billion) / 3600 = m.second / 3600 := by
      rcases m.carry with ⟨-, once, -⟩ | ⟨-, none, -⟩ <;> omega
    have minute : (m.second + m.nanosecond / billion) / 60 % 60 = m.second / 60 % 60 := by
      rcases m.carry with ⟨-, once, -⟩ | ⟨-, none, -⟩ <;> omega
    have second : (m.second + m.nanosecond / billion) % 60 + m.nanosecond % billion / billion =
        m.second % 60 + m.nanosecond / billion := by
      rw [Nat.div_eq_of_lt (Nat.mod_lt m.nanosecond (show 0 < billion by decide))]
      rcases m.carry with ⟨-, once, -⟩ | ⟨-, none, -⟩ <;> omega
    rw [shown_of_inner last]
    simp only [localText, shownSecond, hour, minute, second, Nat.mod_mod]

/-- Two moments share a text exactly if they show the same moment. -/
theorem localText_eq_iff {m other : Moment} : m.localText = other.localText ↔ m.shown = other.shown := by
  constructor
  · intro same
    have read := m.ofLocalText_localText
    rw [same, other.ofLocalText_localText] at read
    exact (Except.ok.inj read).symm
  · intro same
    rw [← m.localText_shown, same, other.localText_shown]

theorem digitPair_cons {a b : Char} (tens : isDigit a = true) (ones : isDigit b = true) (rest : List Char) :
    Scan.digitPair (a :: b :: rest) = .ok (10 * digitValue a + digitValue b, rest) := by
  have one {c : Char} (rest) (plain : isDigit c = true) : Scan.digit (c :: rest) = .ok (digitValue c, rest) :=
    if_pos plain
  unfold Scan.digitPair
  rw [Scan.bind_ok (one _ tens), Scan.bind_ok (one _ ones)]
  rfl

theorem digitPair_digits (fits : n < 100) (rest : List Char) :
    Scan.digitPair (digits 2 n ++ rest) = .ok (n, rest) := by
  have long : (digits 2 n).length = 2 := length_digits (by decide) fits
  have value := decimalValue_digits 2 n
  have plain {c} (member : c ∈ digits 2 n) : isDigit c = true := isDigit_digits member
  obtain ⟨a, b, written⟩ := List.length_eq_two.1 long
  simp only [written, List.mem_cons, List.not_mem_nil, or_false] at plain value
  simp only [decimalValue, List.foldl_cons, List.foldl_nil, Nat.mul_zero, Nat.zero_add] at value
  rw [written, List.cons_append, List.cons_append, List.nil_append, digitPair_cons (plain (.inl rfl)) (plain (.inr rfl)),
    value]

theorem digitPairs_year (fits : n < 10000) (rest : List Char) :
    ∃ century year after, Scan.digitPair (digits 4 n ++ rest) = .ok (century, after) ∧
      Scan.digitPair after = .ok (year, rest) ∧ 100 * century + year = n := by
  have long : (digits 4 n).length = 4 := length_digits (by decide) fits
  have value := decimalValue_digits 4 n
  have plain {c} (member : c ∈ digits 4 n) : isDigit c = true := isDigit_digits member
  rcases written : digits 4 n with _ | ⟨a, _ | ⟨b, _ | ⟨c, _ | ⟨d, _ | ⟨e, more⟩⟩⟩⟩⟩ <;> rw [written] at long <;>
    simp only [List.length_cons, List.length_nil] at long <;> try omega
  simp only [written, List.mem_cons, List.not_mem_nil, or_false] at plain value
  refine ⟨_, _, c :: d :: rest, digitPair_cons (plain (.inl rfl)) (plain (.inr (.inl rfl))) _,
    digitPair_cons (plain (.inr (.inr (.inl rfl)))) (plain (.inr (.inr (.inr rfl)))) _, ?_⟩
  simp only [decimalValue, List.foldl_cons, List.foldl_nil] at value
  omega

theorem behind?_zero (m : Moment) : m.behind? 0 = some m := by
  have whole : (m.second : Int) / (secondsPerDay : Int) = 0 := by
    exact_mod_cast Nat.div_eq_of_lt m.isTime.1
  have rest : ((m.second : Int) % (secondsPerDay : Int)).toNat = m.second := by
    rw [Int.emod_eq_of_lt (by omega) (by exact_mod_cast m.isTime.1), Int.toNat_natCast]
  simp only [behind?, Int.sub_zero, whole, Int.add_zero, Date.ofDayNumber?_dayNumber, rest]
  exact dif_pos m.isTime

theorem mark_ok {c : Char} {allowed : List Char} (fits : c ∈ allowed) (rest : List Char) :
    Scan.mark allowed (c :: rest) = .ok ((), rest) :=
  if_pos fits

theorem toList_universalText (m : Moment) (early : 0 ≤ m.date.year) (late : m.date.year ≤ 9999) :
    m.universalText.toList = digits 4 m.date.year.natAbs ++ '-' :: (digits 2 m.date.month ++ '-' ::
      (digits 2 m.date.day ++ (m.clock ++ ['Z']))) := by
  rw [universalText, String.toList_append, toList_localText, Date.toList_text, yearText, if_pos ⟨early, late⟩]
  simp only [List.append_assoc, List.cons_append]
  rfl

theorem fixedLength_le (m : Moment) (early : 0 ≤ m.date.year) (late : m.date.year ≤ 9999) :
    Scan.fixedLength ≤ m.universalText.toList.length := by
  have fixed : Scan.fixedLength = 19 := rfl
  have year := le_length_digits 4 m.date.year.natAbs
  have month := le_length_digits 2 m.date.month
  have day := le_length_digits 2 m.date.day
  have nanosecond := le_length_digits 9 (m.nanosecond % billion)
  rw [toList_universalText m early late, clock]
  simp only [List.length_append, List.length_cons]
  omega

/-- A moment of a year of four digits is read from its universal text as the moment that it shows. -/
theorem ofUniversalText_universalText (m : Moment) (early : 0 ≤ m.date.year) (late : m.date.year ≤ 9999) :
    ofUniversalText m.universalText = .ok m.shown := by
  obtain ⟨-, -, january, december, first, last⟩ := m.date.isDate
  have days := daysInMonth_le m.date.year m.date.month
  have hour := m.hour_lt
  have second := m.shownSecond_le
  have nanosecond : Scan.fraction ('.' :: (digits 9 (m.nanosecond % billion) ++ ['Z'])) = .ok (m.nanosecond % billion, ['Z']) :=
    Scan.fraction_digits (Nat.mod_lt m.nanosecond (show 0 < billion by decide)) (endsNumber_cons rfl [])
  have long : ¬byteCount m.universalText.toList < Scan.fixedLength :=
    Nat.not_lt.2 (Nat.le_trans (m.fixedLength_le early late) (length_le_byteCount _))
  have inside : ¬(23 < m.second / 3600 ∨ 59 < m.second / 60 % 60 ∨ 60 < m.shownSecond) := by omega
  obtain ⟨century, year, after, hundreds, ones, whole⟩ := digitPairs_year (n := m.date.year.natAbs) (by omega) ('-' ::
    (digits 2 m.date.month ++ '-' :: (digits 2 m.date.day ++ (m.clock ++ ['Z']))))
  have same : ((100 * century + year : Nat) : Int) = m.date.year := by omega
  refine Scan.run_ok (show _ = Except.ok (m.shown, []) from ?_)
  unfold Scan.universalMoment
  rw [Scan.bind_ok (show (get : Scan (List Char)) _ = .ok (_, _) from rfl), if_neg long]
  show (Scan.digitPair >>= _) _ = _
  rw [toList_universalText m early late, Scan.bind_ok hundreds, Scan.bind_ok ones]
  show (Scan.mark ['-'] >>= _) _ = _
  rw [Scan.bind_ok (mark_ok (by decide) _), Scan.bind_ok (digitPair_digits (by omega) _),
    Scan.bind_ok (mark_ok (by decide) _), Scan.bind_ok (digitPair_digits (by omega) _), same, Date.of?_eq_some,
    Scan.bind_ok (show Scan.ofOption .outOfRange (some m.date) _ = .ok (m.date, _) from rfl), clock]
  simp only [List.cons_append, List.append_assoc]
  rw [Scan.bind_ok (mark_ok (by decide) _), Scan.bind_ok (digitPair_digits (by omega) _),
    Scan.bind_ok (mark_ok (by decide) _), Scan.bind_ok (digitPair_digits (by omega) _),
    Scan.bind_ok (mark_ok (by decide) _), Scan.bind_ok (digitPair_digits (by omega) _), Scan.bind_ok nanosecond,
    if_neg inside, Scan.bind_ok (m.timeOfDay_shown _)]
  show Scan.ofOption .outOfRange (m.shown.behind? 0) [] = _
  rw [behind?_zero]
  rfl

end Moment

end Scans

end RecordMapper.Calendar
