import RecordMapper.Codec
import RecordMapper.Proofs.Calendar.RoundTrip
import RecordMapper.Proofs.Outcome

namespace RecordMapper.Calendar

open RecordMapper.Text

namespace Date

theorem dayNumber_march (d : Date) : d.dayNumber = daysToMarch d.marchYear + d.dayOfYear - epochOffset := by
  show daysToMarch d.marchYear + daysToMonth d.marchMonth + (d.day - 1) - epochOffset = _
  unfold dayOfYear
  omega

theorem dayNumber_bounds (d : Date) : daysToMarch (d.year - 1) + 306 ≤ d.dayNumber + epochOffset ∧
    d.dayNumber + epochOffset < daysToMarch d.year + 306 := by
  obtain ⟨⟨first, last⟩, month, -, -⟩ := d.dayOfYear_spec
  obtain ⟨-, -, january, december, -, -⟩ := d.isDate
  have number := d.dayNumber_march
  have longer : daysToMarch (d.year - 1) + 365 ≤ daysToMarch d.year := by
    unfold daysToMarch
    omega
  unfold marchYear at number
  split at number
  · have winter : d.marchMonth = d.month + 9 := Nat.mod_eq_of_lt (by omega)
    omega
  · have summer : d.marchMonth = d.month - 3 := by
      unfold marchMonth
      omega
    omega

theorem yearOfEra_spec {day : Int} (era : 0 ≤ day ∧ day < 146097) {year : Int}
    (found : (day - day / 1460 + day / 36524 - day / 146096) / 365 = year) :
    (0 ≤ year ∧ year < 400) ∧ 0 ≤ day - daysInEra year ∧ day - daysInEra year ≤ 365 := by
  unfold daysInEra
  have fours : day / 1460 = year / 4 ∨ day / 1460 = year / 4 + 1 := by omega
  have centuries : day / 36524 = year / 100 ∨ day / 36524 = year / 100 + 1 := by omega
  have eras : day / 146096 = 0 ∨ day / 146096 = 1 := by omega
  rcases fours with f | f <;> rcases centuries with c | c <;> rcases eras with e | e <;> rw [f, c, e] at found <;> omega

theorem of?_eq_ok {year : Int} {month day : Nat} {d : Date} (made : of? year month day = some d) :
    d.year = year ∧ d.month = month ∧ d.day = day := by
  unfold of? at made
  split at made
  · obtain rfl := Option.some.inj made
    exact ⟨rfl, rfl, rfl⟩
  · cases made

theorem dayNumber_of_ofDayNumber? {number : Int} {d : Date} (made : ofDayNumber? number = some d) :
    d.dayNumber = number := by
  obtain ⟨day, dayEq⟩ : ∃ day, day = (number + epochOffset) % 146097 := ⟨_, rfl⟩
  obtain ⟨year, yearEq⟩ : ∃ year, (day - day / 1460 + day / 36524 - day / 146096) / 365 = year := ⟨_, rfl⟩
  obtain ⟨⟨first, last⟩, start, ending⟩ := yearOfEra_spec (by omega) yearEq
  obtain ⟨rest, restEq⟩ : ∃ rest, rest = day - daysInEra year := ⟨_, rfl⟩
  obtain ⟨month, monthEq⟩ : ∃ month, month = (5 * rest + 2) / 153 := ⟨_, rfl⟩
  simp only [ofDayNumber?, ← dayEq, yearEq] at made
  rw [show day - (365 * year + year / 4 - year / 100) = rest by rw [restEq, daysInEra], ← monthEq] at made
  obtain ⟨ownYear, ownMonth, ownDay⟩ := of?_eq_ok made
  obtain ⟨-, -, january, december, positive, -⟩ := d.isDate
  have months : (d.marchMonth : Int) = month := by
    unfold marchMonth
    split at ownMonth <;> omega
  have years : d.marchYear = year + (number + epochOffset) / 146097 * 400 := by
    unfold marchYear
    split at ownMonth <;> split <;> split at ownYear <;> omega
  have days := daysToMarch_era d.marchYear
  rw [dayNumber_march, dayOfYear, daysToMonth]
  rw [show d.marchYear % 400 = year by omega, show d.marchYear / 400 = (number + epochOffset) / 146097 by omega] at days
  omega

end Date

def Moment.IsBare (m : Moment) : Prop :=
  0 ≤ m.date.year ∧ m.date.year ≤ 9999

instance (m : Moment) : Decidable m.IsBare := by
  unfold Moment.IsBare
  infer_instance

section Reading

variable {α β : Type} {text rest : List Char} {n : Nat}

theorem Scan.bind_error {scan : Scan α} {next : α → Scan β} {fault : TimeFault} (failed : scan text = .error fault) :
    (scan >>= next) text = .error fault := by
  show (scan text).bind (fun p => next p.1 p.2) = _
  rw [failed]
  rfl

theorem Scan.bind_eq_ok {scan : Scan α} {next : α → Scan β} {result : β × List Char} :
    (scan >>= next) text = .ok result ↔ ∃ a rest, scan text = .ok (a, rest) ∧ next a rest = .ok result := by
  show (scan text).bind (fun p => next p.1 p.2) = _ ↔ _
  rcases scan text with fault | ⟨a, rest⟩
  · simp [Except.bind]
  · simp [Except.bind]

theorem Scan.ofOption_eq_ok {fault : TimeFault} {found : Option α} {a : α} :
    Scan.ofOption fault found text = .ok (a, rest) ↔ found = some a ∧ rest = text := by
  cases found with
  | none => simp [ofOption, fail]
  | some own =>
    show (Except.ok (own, text) : Except TimeFault (α × List Char)) = .ok (a, rest) ↔ _
    simp [eq_comm]

theorem Scan.unless_eq_ok {p : Prop} [Decidable p] {fault : TimeFault} {next : Unit → Scan β} {scan : Scan β}
    {result : β × List Char} :
    (if p then fail fault >>= next else scan) text = .ok result ↔ ¬p ∧ scan text = .ok result := by
  split
  · rename_i holds
    exact ⟨fun failed => (nomatch failed), fun ⟨fails, _⟩ => absurd holds fails⟩
  · rename_i fails
    exact ⟨fun read => ⟨fails, read⟩, And.right⟩

theorem Scan.digit_le (read : Scan.digit text = .ok (n, rest)) : n ≤ 9 := by
  unfold digit at read
  split at read
  · split at read
    · rename_i plain
      have bounds := (Sql.isDigit_iff _).1 plain
      cases read
      unfold digitValue
      have zero : '0'.toNat = 48 := rfl
      omega
    · cases read
  · cases read

theorem decimalValue_lt_from (digits : List Char) (plain : ∀ c ∈ digits, isDigit c = true) (high : Nat) :
    digits.foldl (fun n c => 10 * n + digitValue c) high < (high + 1) * 10 ^ digits.length := by
  induction digits generalizing high with
  | nil => simp
  | cons c digits ih =>
    have digit : digitValue c ≤ 9 := by
      have bounds := (Sql.isDigit_iff c).1 (plain c List.mem_cons_self)
      have zero : '0'.toNat = 48 := rfl
      unfold digitValue
      omega
    have rest := ih (fun d member => plain d (List.mem_cons_of_mem _ member)) (10 * high + digitValue c)
    have scaled : (10 * high + digitValue c + 1) * 10 ^ digits.length ≤ ((high + 1) * 10) * 10 ^ digits.length :=
      Nat.mul_le_mul_right _ (by omega)
    rw [List.foldl_cons, List.length_cons, Nat.pow_succ', ← Nat.mul_assoc]
    exact Nat.lt_of_lt_of_le rest scaled

theorem decimalValue_lt {digits : List Char} (plain : ∀ c ∈ digits, isDigit c = true) :
    decimalValue digits < 10 ^ digits.length := by
  have bound := decimalValue_lt_from digits plain 0
  rwa [Nat.zero_add, Nat.one_mul] at bound

theorem Scan.nanoseconds_lt (read : Scan.nanoseconds text = .ok (n, rest)) : n < billion := by
  obtain ⟨run, shape⟩ : ∃ run, run = digitRun (some 9) text := ⟨_, rfl⟩
  have short : run.length ≤ 9 := by
    rw [shape]
    exact List.length_take_le _ _
  have front : run.length ≤ text.length := by
    rw [shape]
    exact Nat.le_trans (List.length_take_le' _ _) (List.takeWhile_sublist _).length_le
  have plain : ∀ c ∈ run, isDigit c = true := by
    intro c member
    rw [shape] at member
    exact List.all_eq_true.1 List.all_takeWhile c (List.mem_of_mem_take member)
  simp only [nanoseconds, number, ← shape] at read
  split at read
  · cases read
  · split at read
    · cases read
    · split at read
      · cases read
      · obtain ⟨rfl, -⟩ := Prod.mk.inj (Except.ok.inj read)
        have value := decimalValue_lt plain
        have places : text.length - (text.drop run.length).length = run.length := by
          rw [List.length_drop]
          omega
        calc decimalValue run * 10 ^ (9 - (text.length - (text.drop run.length).length))
            = decimalValue run * 10 ^ (9 - run.length) := by rw [places]
          _ < 10 ^ run.length * 10 ^ (9 - run.length) := Nat.mul_lt_mul_of_pos_right value (Nat.pow_pos (by decide))
          _ = 10 ^ 9 := by rw [← Nat.pow_add, Nat.add_sub_cancel' short]

theorem Scan.fraction_lt (read : Scan.fraction text = .ok (n, rest)) : n < billion := by
  unfold fraction at read
  obtain ⟨point, after, -, read⟩ := bind_eq_ok.1 read
  cases point with
  | true => exact nanoseconds_lt read
  | false =>
    obtain ⟨rfl, -⟩ := Prod.mk.inj (Except.ok.inj read)
    decide

theorem Scan.digitPair_le (read : Scan.digitPair text = .ok (n, rest)) : n ≤ 99 := by
  unfold digitPair at read
  simp only [bind_eq_ok] at read
  obtain ⟨tens, middle, first, ones, last, second, whole⟩ := read
  have left := digit_le first
  have right := digit_le second
  cases whole
  omega

theorem Moment.of?_eq_ok {date : Date} {second nanosecond : Nat} {m : Moment}
    (made : Moment.of? date second nanosecond = some m) :
    m.date = date ∧ m.second = second ∧ m.nanosecond = nanosecond := by
  unfold of? at made
  split at made
  · obtain rfl := Option.some.inj made
    exact ⟨rfl, rfl, rfl⟩
  · cases made

/-- Only the second sixty is read as a leap second, so each one is read at the end of its minute. -/
theorem Scan.timeOfDay_leapsInPlace {date : Date} {hour minute second nanosecond : Nat} {m : Moment}
    (fraction : nanosecond < billion) (read : timeOfDay date hour minute second nanosecond text = .ok (m, rest)) :
    m.date = date ∧ m.LeapsInPlace := by
  obtain ⟨made, -⟩ := ofOption_eq_ok.1 read
  obtain ⟨day, clock, part⟩ := Moment.of?_eq_ok made
  refine ⟨day, fun whole => ?_⟩
  rw [clock]
  split at part
  · rename_i leap
    rw [if_pos leap]
    omega
  · exact absurd whole (by rw [part]; exact Nat.not_le.2 fraction)

theorem Scan.offset_whole {ahead : Int} (read : Scan.offset text = .ok (ahead, rest)) : ahead % 60 = 0 := by
  unfold offset at read
  obtain ⟨capital, _, -, read⟩ := bind_eq_ok.1 read
  cases capital with
  | true => exact (Prod.mk.inj (Except.ok.inj read)).1 ▸ rfl
  | false =>
    obtain ⟨small, _, -, read⟩ := bind_eq_ok.1 read
    cases small with
    | true => exact (Prod.mk.inj (Except.ok.inj read)).1 ▸ rfl
    | false =>
      obtain ⟨negative, _, -, read⟩ := bind_eq_ok.1 read
      obtain ⟨hours, _, -, read⟩ := bind_eq_ok.1 read
      obtain ⟨_, _, -, read⟩ := bind_eq_ok.1 read
      obtain ⟨minutes, _, -, read⟩ := bind_eq_ok.1 read
      obtain ⟨rfl, -⟩ := Prod.mk.inj (Except.ok.inj read)
      split <;> omega

theorem Scan.universalMoment_eq_ok {m : Moment} (read : Scan.universalMoment text = .ok (m, rest)) :
    ∃ (own : Moment) (ahead : Int), own.IsBare ∧ own.LeapsInPlace ∧ ahead.natAbs ≤ maxOffset ∧ ahead % 60 = 0 ∧
      own.behind? ahead = some m := by
  unfold universalMoment at read
  simp only [bind_eq_ok, unless_eq_ok, ofOption_eq_ok] at read
  obtain ⟨_, _, -, -, century, _, hundreds, year, _, ones, _, _, -, month, _, -, _, _, -, day, _, -, date, _,
    ⟨made, -⟩, read⟩ := read
  obtain ⟨_, _, -, hour, _, -, _, _, -, minute, _, -, _, _, -, second, _, -, nanosecond, _, part, -, own, _, timed,
    ahead, _, shift, _, _, -, near, moved, -⟩ := read
  have first := digitPair_le hundreds
  have last := digitPair_le ones
  have four := (Date.of?_eq_ok made).1
  obtain ⟨same, place⟩ := timeOfDay_leapsInPlace (fraction_lt part) timed
  refine ⟨own, ahead, ?_, place, Nat.not_lt.1 near, offset_whole shift, moved⟩
  rw [Moment.IsBare, same, four]
  omega

theorem Moment.behind?_eq_ok {m moved : Moment} {ahead : Int} (made : m.behind? ahead = some moved) :
    moved.date.dayNumber = m.date.dayNumber + (m.second - ahead) / 86400 ∧
      moved.second = ((m.second - ahead) % 86400).toNat ∧ moved.nanosecond = m.nanosecond := by
  simp only [behind?, Option.bind_eq_bind, Option.bind_eq_some_iff] at made
  obtain ⟨date, found, made⟩ := made
  obtain ⟨day, clock, part⟩ := Moment.of?_eq_ok made
  exact ⟨day ▸ Date.dayNumber_of_ofDayNumber? found, clock, part⟩

theorem Moment.behind?_dayNumber {m moved : Moment} {ahead : Int} (near : ahead.natAbs ≤ Scan.maxOffset)
    (made : m.behind? ahead = some moved) : (moved.date.dayNumber - m.date.dayNumber).natAbs ≤ 1 := by
  have most : Scan.maxOffset = 86340 := rfl
  have bound : m.second < 86400 := m.isTime.1
  rw [(behind?_eq_ok made).1]
  omega

theorem Moment.behind?_leapsInPlace {m moved : Moment} {ahead : Int} (whole : ahead % 60 = 0) (place : m.LeapsInPlace)
    (made : m.behind? ahead = some moved) : moved.LeapsInPlace := by
  obtain ⟨-, clock, part⟩ := behind?_eq_ok made
  intro leap
  have last := place (part ▸ leap)
  rw [clock]
  omega

theorem yearText_signed {year : Int} (long : ¬(0 ≤ year ∧ year ≤ 9999)) :
    ∃ sign, isDigit sign = false ∧ (yearText year).toList = sign :: digits 4 year.natAbs := by
  rw [yearText, if_neg long, String.toList_append]
  split
  · exact ⟨'-', rfl, rfl⟩
  · exact ⟨'+', rfl, rfl⟩

theorem Scan.digitPair_sign {sign : Char} (plain : isDigit sign = false) (rest : List Char) :
    Scan.digitPair (sign :: rest) = .error .invalid := by
  have refused : Scan.digit (sign :: rest) = .error .invalid := if_neg (by simp [plain])
  exact bind_error refused

/-- Years outside those of four digits are written with a sign, and no year is read that has one. -/
theorem Moment.ofUniversalText_signed (m : Moment) (long : ¬m.IsBare) :
    ofUniversalText m.universalText = .error .invalid := by
  obtain ⟨sign, plain, year⟩ := yearText_signed long
  have written : m.universalText.toList = sign :: (digits 4 m.date.year.natAbs ++ '-' :: (digits 2 m.date.month ++ '-' ::
      (digits 2 m.date.day ++ (m.clock ++ ['Z'])))) := by
    rw [universalText, String.toList_append, toList_localText, Date.toList_text, year]
    simp only [List.append_assoc, List.cons_append]
    rfl
  have enough : ¬byteCount m.universalText.toList < Scan.fixedLength := by
    have fixed : Scan.fixedLength = 19 := rfl
    have years := le_length_digits 4 m.date.year.natAbs
    have nanosecond := le_length_digits 9 (m.nanosecond % billion)
    have bytes := length_le_byteCount m.universalText.toList
    rw [written, clock] at bytes ⊢
    simp only [List.length_append, List.length_cons] at bytes
    omega
  have refused : Scan.universalMoment m.universalText.toList = .error .invalid := by
    unfold Scan.universalMoment
    rw [Scan.bind_ok (show (get : Scan (List Char)) _ = .ok (_, _) from rfl), if_neg enough, written]
    exact Scan.bind_error (Scan.digitPair_sign plain _)
  rw [ofUniversalText, Scan.run, refused]
  rfl

theorem Moment.range_of_ofUniversalText {written : String} {m : Moment} (read : ofUniversalText written = .ok m) :
    (-1 ≤ m.date.year ∧ m.date.year ≤ 10000) ∧ m.LeapsInPlace := by
  obtain ⟨⟨moved, _⟩, scanned, (rfl : moved = m)⟩ := map_eq_ok.1 read
  obtain ⟨own, ahead, ⟨first, last⟩, place, near, whole, made⟩ := Scan.universalMoment_eq_ok scanned
  refine ⟨?_, behind?_leapsInPlace whole place made⟩
  have close := behind?_dayNumber near made
  have before := own.date.dayNumber_bounds
  have after := moved.date.dayNumber_bounds
  unfold Date.daysToMarch at before after
  omega

end Reading

end RecordMapper.Calendar

namespace RecordMapper

open RecordMapper.Calendar

namespace Codec

theorem universal_decode (text : String) :
    universal.decode (.text text) = (Moment.ofUniversalText text).mapError (.timestamp text) := rfl

theorem universal_encode (m : Moment) : universal.encode m = .text m.universalText := rfl

theorem universal_eq_ok {value : Value} {m : Moment} (read : universal.decode value = .ok m) :
    ∃ text, value = .text text ∧ Moment.ofUniversalText text = .ok m := by
  cases value with
  | text text => exact ⟨text, rfl, mapError_eq_ok.1 (universal_decode text ▸ read)⟩
  | null | integer | real | blob => cases read

/-- A moment in universal time comes back from how it is kept exactly if its year is bare and it has no leap second but
    at the end of a minute. In a bare year the moment that is shown is read. Any other year is kept all the same, in a text
    that is refused whenever it is read. Moments that are read have their leap seconds in place and lie in bare years or,
    moved by an offset, in one of the two years beside them, which do not come back. -/
theorem universal_roundTrip (m : Moment) :
    (universal.decode (universal.encode m) = .ok m ↔ m.IsBare ∧ m.LeapsInPlace) ∧
    (m.IsBare → universal.decode (universal.encode m) = .ok m.shown) ∧
    (¬m.IsBare → universal.decode (universal.encode m) = .error (.timestamp m.universalText .invalid)) ∧
    ∀ value, universal.decode value = .ok m →
      m.LeapsInPlace ∧ (m.IsBare ∨ m.date.year = -1 ∨ m.date.year = 10000) := by
  have kept (bare : m.IsBare) : universal.decode (universal.encode m) = .ok m.shown := by
    rw [universal_encode, universal_decode, Moment.ofUniversalText_universalText m bare.1 bare.2]
    rfl
  have lost (long : ¬m.IsBare) :
      universal.decode (universal.encode m) = .error (.timestamp m.universalText .invalid) := by
    rw [universal_encode, universal_decode, Moment.ofUniversalText_signed m long]
    rfl
  refine ⟨⟨fun same => ?_, fun ⟨bare, place⟩ => ?_⟩, kept, lost, fun value read => ?_⟩
  · by_cases bare : m.IsBare
    · rw [kept bare] at same
      exact ⟨bare, Moment.shown_eq_iff.1 (Except.ok.inj same)⟩
    · rw [lost bare] at same
      cases same
  · rw [kept bare, Moment.shown_of_leapsInPlace place]
  · obtain ⟨text, -, scanned⟩ := universal_eq_ok read
    obtain ⟨bounds, place⟩ := Moment.range_of_ofUniversalText scanned
    refine ⟨place, ?_⟩
    unfold Moment.IsBare
    omega

theorem universal_roundTrip_leap : ∃ m other : Moment, ¬m.IsBare ∧ other.IsBare ∧
    universal.decode (.text "9999-12-31 23:59:60.25-01:00") = .ok m ∧
    universal.decode (universal.encode m) = .error (.timestamp m.universalText .invalid) ∧
    (m.LeapsInPlace ∧ (m.IsBare ∨ m.date.year = -1 ∨ m.date.year = 10000)) ∧
    universal.decode (universal.encode other) = .ok other.shown ∧ other.shown ≠ other := by
  let leap : Moment := ⟨⟨10000, 1, 1, by decide⟩, 3599, 1250000000, by decide⟩
  let early : Moment := ⟨⟨2016, 12, 31, by decide⟩, 86164, 1333333333, by decide⟩
  have long : ¬leap.IsBare := by decide
  have bare : early.IsBare := by decide
  have read : universal.decode (.text "9999-12-31 23:59:60.25-01:00") = .ok leap := by decide +kernel
  obtain ⟨-, -, refused, near⟩ := universal_roundTrip leap
  obtain ⟨-, shown, -, -⟩ := universal_roundTrip early
  exact ⟨leap, early, long, bare, read, refused long, near _ read, shown bare, by decide⟩

/-- An offset of one hour, read behind the last second of the year 9999, leads to a moment that is lost once it is
    kept. A leap second inside a minute is kept as the second after it. -/
theorem universal_loses_moment : ∃ m other : Moment, m.date.year = 10000 ∧
    universal.decode (.text "9999-12-31T23:59:59-01:00") = .ok m ∧
    universal.decode (universal.encode m) = .error (.timestamp "+10000-01-01T00:59:59.000000000Z" .invalid) ∧
    universal.encode other = .text "2016-12-31T23:56:05.333333333Z" ∧
    universal.decode (universal.encode other) ≠ .ok other :=
  ⟨⟨⟨10000, 1, 1, by decide⟩, 3599, 0, by decide⟩, ⟨⟨2016, 12, 31, by decide⟩, 86164, 1333333333, by decide⟩, rfl,
    by decide +kernel, by decide +kernel, by decide +kernel, by decide +kernel⟩

end Codec

end RecordMapper
