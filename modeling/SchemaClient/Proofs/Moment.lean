import Mathlib.Data.Nat.Digits.Lemmas
import SchemaClient.Moment
import SchemaClient.Proofs.Number.Digits

/-!
# ISO texts of dates and times

A date of the calendar, a time of a day and the two together are read from their ISO texts as they
were: year, month and day, every part of the clock down to the microsecond, and the distance from
universal time if there is one.
-/
namespace SchemaClient

open Binary64 (paddedDigits)
open Numerals

structure Date.IsValid (d : Date) : Prop where
  year : 1 ≤ d.year ∧ d.year ≤ 9999
  month : 1 ≤ d.month ∧ d.month ≤ 12
  day : 1 ≤ d.day ∧ d.day ≤ Moment.monthLength d.year d.month

/-- A time of a day, less than a day away from universal time. -/
structure TimeOfDay.IsValid (t : TimeOfDay) : Prop where
  hour : t.hour < 24
  minute : t.minute < 60
  second : t.second < 60
  microsecond : t.microsecond < 1000000
  offset : ∀ n ∈ t.offset, n.natAbs < 86400000000

structure DateTime.IsValid (t : DateTime) : Prop where
  date : t.date.IsValid
  time : t.time.IsValid

namespace Moment

theorem length_paddedDigits {width n : Nat} (hwidth : 0 < width) (h : n < 10 ^ width) :
    (paddedDigits width n).toList.length = width := by
  have hlength : (Nat.repr n).length ≤ width := Nat.repr_length n width hwidth h
  rw [paddedDigits, String.toList_append, String.toList_ofList, List.length_append,
    List.length_replicate, String.length_toList]
  omega

theorem fixedDigits?_padded {width n : Nat} (hwidth : 0 < width) (h : n < 10 ^ width)
    (rest : List Char) :
    fixedDigits? width ((paddedDigits width n).toList ++ rest) = some (n, rest) := by
  have hlength := length_paddedDigits hwidth h
  have htake : ((paddedDigits width n).toList ++ rest).take width = (paddedDigits width n).toList :=
    List.take_left' hlength
  have hdigits : (paddedDigits width n).toList.all Char.isDigit := by
    rw [List.all_eq_true]
    exact digits_paddedDigits width n
  simp [fixedDigits?, htake, hlength, hdigits, digitsValue_padded, List.drop_left' hlength]

theorem readTwo {n : Nat} (h : n < 100) (rest : List Char) :
    fixedDigits? 2 ((paddedDigits 2 n).toList ++ rest) = some (n, rest) :=
  fixedDigits?_padded (by decide) h rest

theorem skip_separator (separator : Char) (rest : List Char) :
    skip separator (separator :: rest) = rest := if_pos rfl

theorem monthLength_le (year month : Nat) : monthLength year month ≤ 31 := by
  unfold monthLength
  grind

theorem date?_iso {d : Date} (h : d.IsValid) (rest : List Char) :
    date? (d.iso.toList ++ rest) = some (d, rest) := by
  obtain ⟨⟨hyear, hyear'⟩, ⟨hmonth, hmonth'⟩, hday, hday'⟩ := h
  have hlength := monthLength_le d.year d.month
  have htext : d.iso.toList ++ rest =
      (paddedDigits 4 d.year).toList ++ '-' ::
        ((paddedDigits 2 d.month).toList ++ '-' :: ((paddedDigits 2 d.day).toList ++ rest)) := by
    simp [Date.iso]
  rw [htext, date?, fixedDigits?_padded (by decide) (by omega)]
  simp (disch := omega) [readTwo, skip_separator, hyear, hmonth, hmonth', hday, hday']

/-- What may follow a clock so that it is not read as a part of it. -/
def EndsClock (rest : List Char) : Prop := ∀ c ∈ rest.head?, ¬ c.isDigit ∧ c ≠ '.' ∧ c ≠ ','

theorem endsClock_nil : EndsClock [] := nofun

theorem fraction_none {rest : List Char} (hrest : EndsClock rest) : fraction rest = (0, rest) := by
  cases rest with
  | nil => rfl
  | cons c rest =>
    obtain ⟨-, hpoint, hcomma⟩ := hrest c rfl
    simp [fraction, hpoint, hcomma]

theorem fraction_padded {micros : Nat} (h : micros < 1000000) {rest : List Char}
    (hrest : EndsClock rest) :
    fraction ('.' :: ((paddedDigits 6 micros).toList ++ rest)) = (micros, rest) := by
  have hlength := @length_paddedDigits 6 micros (by decide) h
  have hdigits : ∀ c ∈ (paddedDigits 6 micros).toList, c.isDigit := digits_paddedDigits 6 micros
  have hstops : Runs.Stops Char.isDigit rest := fun c hc => by simpa using (hrest c hc).1
  have htake : (paddedDigits 6 micros).toList.take 6 = (paddedDigits 6 micros).toList :=
    List.take_of_length_le hlength.le
  simp [fraction, Runs.takeWhile_run hdigits hstops, Runs.dropWhile_run hdigits hstops, htake,
    hlength, digitsValue_padded]

theorem clock?_clock {t : TimeOfDay} (h : t.IsValid) {rest : List Char} (hrest : EndsClock rest) :
    clock? (t.clock.toList ++ rest) = some (t.hour, t.minute, t.second, t.microsecond, rest) := by
  obtain ⟨hhour, hminute, hsecond, hmicros, -⟩ := h
  by_cases hzero : t.microsecond = 0
  · simp (disch := omega) [clock?, TimeOfDay.clock, hzero, readTwo, skip_separator,
      fraction_none hrest]
  · simp (disch := omega) [clock?, TimeOfDay.clock, hzero, readTwo, skip_separator,
      fraction_padded hmicros hrest]

/-- Hours and minutes alone. -/
theorem clock?_minutes {hour minute : Nat} (hhour : hour < 24) (hminute : minute < 60) :
    clock? (paddedDigits 2 hour ++ ":" ++ paddedDigits 2 minute).toList =
      some (hour, minute, 0, 0, []) := by
  have hlast : fixedDigits? 2 (paddedDigits 2 minute).toList = some (minute, []) := by
    simpa using @readTwo minute (by omega) []
  have hend : fixedDigits? 2 (skip ':' []) = none := rfl
  simp (disch := omega) [clock?, readTwo, skip_separator, hlast, hend]

/-- The time that is as far from midnight as a distance is long. -/
def distanceClock (micros : Nat) : TimeOfDay :=
  let seconds := micros / 1000000
  ⟨seconds / 3600, seconds / 60 % 60, seconds % 60, micros % 1000000, none⟩

theorem distanceClock_isValid {micros : Nat} (h : micros < 86400000000) :
    (distanceClock micros).IsValid where
  hour := by simp only [distanceClock]; omega
  minute := by simp only [distanceClock]; omega
  second := by simp only [distanceClock]; omega
  microsecond := by simp only [distanceClock]; omega
  offset := nofun

/-- A distance is written as a clock, of which only hours and minutes are written if there is
nothing finer. -/
theorem distanceText_eq (micros : Nat) :
    distanceText micros =
      if micros % 60000000 = 0 then
        paddedDigits 2 (distanceClock micros).hour ++ ":" ++
          paddedDigits 2 (distanceClock micros).minute
      else (distanceClock micros).clock := by
  by_cases hminutes : micros % 60000000 = 0
  · have hseconds : micros % 1000000 = 0 := by omega
    simp [distanceText, distanceClock, hminutes, hseconds]
  · by_cases hseconds : micros % 1000000 = 0 <;>
      simp [distanceText, distanceClock, TimeOfDay.clock, hminutes, hseconds, String.append_assoc]

theorem distance?_text {micros : Nat} (h : micros < 86400000000) :
    distance? (distanceText micros).toList = some (micros : Int) := by
  have hvalid := distanceClock_isValid h
  rw [distanceText_eq]
  by_cases hminutes : micros % 60000000 = 0
  · rw [if_pos hminutes, distance?, clock?_minutes hvalid.hour hvalid.minute]
    simp only [distanceClock, Option.bind_eq_bind, Option.bind_some, List.isEmpty_nil, if_true,
      Option.some.injEq, Nat.cast_inj]
    omega
  · have hclock := clock?_clock hvalid endsClock_nil
    rw [List.append_nil] at hclock
    rw [if_neg hminutes, distance?, hclock]
    simp only [distanceClock, Option.bind_eq_bind, Option.bind_some, List.isEmpty_nil, if_true,
      Option.some.injEq, Nat.cast_inj]
    omega

theorem toList_offsetText (offset : Int) : (offsetText offset).toList =
    (if offset < 0 then '-' else '+') :: (distanceText offset.natAbs).toList := by
  rw [offsetText, String.toList_append]
  split <;> rfl

theorem offset?_offsetText {offset : Int} (h : offset.natAbs < 86400000000) :
    offset? (offsetText offset).toList = some (some offset) := by
  have hdistance := distance?_text h
  rw [toList_offsetText]
  by_cases hsign : offset < 0
  · have habs : -(offset.natAbs : Int) = offset := by omega
    rw [if_pos hsign, offset?, hdistance, Option.map_some, habs]
  · have habs : (offset.natAbs : Int) = offset := by omega
    rw [if_neg hsign, offset?, hdistance, Option.map_some, habs]

theorem endsClock_offset (offset : Option Int) :
    EndsClock ((offset.map offsetText).getD "").toList := by
  cases offset with
  | none => exact endsClock_nil
  | some n =>
    intro c hc
    rw [Option.map_some, Option.getD_some, toList_offsetText, List.head?_cons] at hc
    obtain rfl := Option.some.inj hc
    split <;> decide

theorem time?_iso {t : TimeOfDay} (h : t.IsValid) : time? t.iso.toList = some t := by
  have hclock := clock?_clock h (endsClock_offset t.offset)
  have hoffset : offset? ((t.offset.map offsetText).getD "").toList = some t.offset := by
    cases hvalue : t.offset with
    | none => rfl
    | some n => exact offset?_offsetText (h.offset n hvalue)
  rw [TimeOfDay.iso, String.toList_append, time?, hclock]
  simp [hoffset, h.hour, h.minute, h.second]

end Moment

/-- **A date is read from its ISO text.** -/
theorem Date.ofText?_iso {d : Date} (h : d.IsValid) : ofText? d.iso = some d := by
  have hread := Moment.date?_iso h []
  rw [List.append_nil] at hread
  simp [ofText?, hread]

/-- **A time of day is read from its ISO text**, with its distance from universal time. -/
theorem TimeOfDay.ofText?_iso {t : TimeOfDay} (h : t.IsValid) : ofText? t.iso = some t :=
  Moment.time?_iso h

/-- **A date with a time is read from its ISO text.** -/
theorem DateTime.ofText?_iso {t : DateTime} (h : t.IsValid) : ofText? t.iso = some t := by
  have hread := Moment.date?_iso h.date ('T' :: t.time.iso.toList)
  have htext : t.iso.toList = t.date.iso.toList ++ 'T' :: t.time.iso.toList := by
    simp [iso, String.append_assoc]
  rw [ofText?, htext, hread]
  simp [Moment.time?_iso h.time]

end SchemaClient
