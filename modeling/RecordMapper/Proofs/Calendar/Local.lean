import Mathlib.Logic.Function.Basic
import RecordMapper.Codec
import RecordMapper.Proofs.Calendar.RoundTrip

namespace RecordMapper

open RecordMapper.Calendar

namespace Codec

theorem injective_encode {α : Type} {codec : Codec α} (back : ∀ a, codec.decode (codec.encode a) = .ok a) :
    Function.Injective codec.encode := by
  intro a b same
  have first := back a
  rw [same, back b] at first
  exact (Except.ok.inj first).symm

theorem ofText_back {α : Type} {dataType : DataType} {write : α → String} {read : String → Except CodecFault α} {a : α}
    (back : read (write a) = .ok a) :
    (ofText dataType write read).decode ((ofText dataType write read).encode a) = .ok a := back

theorem date_back (d : Date) : date.decode (date.encode d) = .ok d := by
  unfold date
  apply ofText_back
  rw [Date.ofText_text]
  rfl

theorem localTime_decode (text : String) :
    localTime.decode (.text text) = (Moment.ofLocalText text).mapError (.timestamp text) := rfl

theorem localTime_shown (m : Moment) : localTime.decode (localTime.encode m) = .ok m.shown := by
  show localTime.decode (.text m.localText) = _
  rw [localTime_decode, Moment.ofLocalText_localText]
  rfl

theorem localTime_back {m : Moment} (place : m.LeapsInPlace) : localTime.decode (localTime.encode m) = .ok m := by
  rw [localTime_shown, Moment.shown_of_leapsInPlace place]

/-- Every date comes back from the text that it is kept as, and has a text of its own. A moment is read as the one that
    its text shows: it comes back exactly if it has no leap second but at the end of a minute, and shares its text with
    the moments that show the same, so with no other of those that come back. -/
theorem calendar_roundTrip (d e : Date) (m other : Moment) :
    (date.encode d = .text d.text ∧ date.decode (.text d.text) = .ok d) ∧
    (d.text = e.text → d = e) ∧
    (localTime.encode m = .text m.localText ∧ localTime.decode (.text m.localText) = .ok m.shown ∧
      (m.shown = m ↔ m.LeapsInPlace)) ∧
    (m.localText = other.localText ↔ m.shown = other.shown) ∧
    (m.LeapsInPlace → other.LeapsInPlace → m.localText = other.localText → m = other) := by
  refine ⟨⟨rfl, date_back d⟩, fun same => ?_, ⟨rfl, localTime_shown m, Moment.shown_eq_iff⟩,
    Moment.localText_eq_iff, fun first second same => ?_⟩
  · exact injective_encode date_back (congrArg Value.text same)
  · rw [← Moment.shown_of_leapsInPlace first, ← Moment.shown_of_leapsInPlace second, Moment.localText_eq_iff.1 same]

theorem calendar_roundTrip_leap : ∃ m other : Moment, m.nanosecond = 1999999999 ∧ m.date.year = -262143 ∧
    m.LeapsInPlace ∧ other.LeapsInPlace ∧ m ≠ other ∧ m.localText ≠ other.localText := by
  let leap : Moment := ⟨⟨-262143, 1, 1, by decide⟩, 86399, 1999999999, by decide⟩
  let plain : Moment := ⟨⟨-262143, 1, 1, by decide⟩, 86399, 999999999, by decide⟩
  have first : leap.LeapsInPlace := by decide
  have second : plain.LeapsInPlace := by decide
  have apart : leap ≠ plain := by decide
  obtain ⟨-, -, -, -, same⟩ := calendar_roundTrip leap.date plain.date leap plain
  exact ⟨leap, plain, rfl, rfl, first, second, apart, fun texts => apart (same first second texts)⟩

/-- A leap second inside a minute is kept as the second after it, which has the same text and is what is read. -/
theorem localTime_loses_leap : ∃ m other : Moment, m ≠ other ∧ m.localText = "2016-12-31T23:56:05.333333333" ∧
    m.localText = other.localText ∧ localTime.decode (localTime.encode m) = .ok other :=
  ⟨⟨⟨2016, 12, 31, by decide⟩, 86164, 1333333333, by decide⟩, ⟨⟨2016, 12, 31, by decide⟩, 86165, 333333333, by decide⟩,
    by decide, by decide +kernel, by decide +kernel, by decide +kernel⟩

end Codec

end RecordMapper
