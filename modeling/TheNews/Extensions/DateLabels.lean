/- TheNews/Extensions/DateLabels
   models: Extensions/DateFormatter.swift, Extensions/String.swift
   digest: The label of an article's date says the month, the day, the hour and the
   minute on the device's clock, and nothing else of the text it was read from. -/

import TheNews.Extensions.DeviceLanguage

set_option autoImplicit false
set_option relaxedAutoImplicit false

namespace TheNews.Extensions.DateLabels

open DateFormats DeviceLanguage Text.Tokens

/-- What a label shows of an instant. -/
structure ClockTime where
  month : Fin 12
  day : Nat
  hour : Nat
  minute : Nat
  deriving DecidableEq

/-- What the clocks of a time zone show at an instant. -/
def clockTime (timeZone : TimeZone) (instant : Int) : ClockTime :=
  let components := timeZone.components instant
  ⟨components.month, components.day, components.hour, components.minute⟩

section Writing

variable {locale : DateFormats.Locale} {timeZone : TimeZone} {date date' : Int}

private theorem toList_label (locale : DateFormats.Locale) (timeZone : TimeZone) (date : Int) :
    (dateFormatForView.string locale timeZone date).toList =
      locale.months.written (clockTime timeZone date).month ++
        ' ' :: (numeral 1 (clockTime timeZone date).day ++ ',' :: ' ' ::
          (numeral 2 (clockTime timeZone date).hour ++ ':' ::
            (numeral 2 (clockTime timeZone date).minute ++ []))) := by
  rw [DateFormatter.string, String.toList_ofList, fields_view]
  simp only [List.flatMap_cons, List.flatMap_nil, Field.write, List.cons_append, List.nil_append]
  rfl

private theorem numeral_inj {width n m : Nat} {rest rest' : List Char}
    (stop : ∀ c ∈ rest.head?, c.isDigit = false) (stop' : ∀ c ∈ rest'.head?, c.isDigit = false)
    (same : numeral width n ++ rest = numeral width m ++ rest') : n = m ∧ rest = rest' := by
  have read : readNumeral (numeral width n ++ rest) = some (n, rest) := readNumeral_numeral stop
  rw [same, readNumeral_numeral stop', Option.some.injEq, Prod.mk.injEq] at read
  exact ⟨read.1.symm, read.2.symm⟩

theorem string_eq_iff (plain : Plain locale.months) :
    dateFormatForView.string locale timeZone date =
        dateFormatForView.string locale timeZone date' ↔
      clockTime timeZone date = clockTime timeZone date' := by
  constructor
  · intro same
    have written := congrArg String.toList same
    rw [toList_label, toList_label] at written
    obtain ⟨month, behind⟩ := append_cons_inj (plain.oneWord _) (plain.oneWord _) written
    have comma : ','.isDigit = false := by decide
    have colon : ':'.isDigit = false := by decide
    obtain ⟨day, behind⟩ := numeral_inj (stop_cons comma) (stop_cons comma) behind
    have clock := (List.cons.inj (List.cons.inj behind).2).2
    obtain ⟨hour, behind⟩ := numeral_inj (stop_cons colon) (stop_cons colon) clock
    obtain ⟨minute, -⟩ := numeral_inj (by simp) (by simp) (List.cons.inj behind).2
    rw [ClockTime.mk.injEq]
    exact ⟨plain.distinct month, day, hour, minute⟩
  · intro same
    rw [← String.toList_inj, toList_label, toList_label, same]

end Writing

/-- Two articles on any two devices in one time zone have the same label exactly if the
clocks there show the same month, day, hour and minute at the two instants: the year,
the seconds and the zone of the text do not matter. -/
theorem formattedDate_eq_iff (url : String → Bool) (system : String → DateFormats.Locale)
    (timeZone : TimeZone) (plain : Plain (system "ru_RU").months)
    {device device' : DateFormats.Locale} {dateTime dateTime' : DateTime}
    (knows : Knows device dateTime) (knows' : Knows device' dateTime') :
    formattedDate (foundation url system timeZone device) dateTime.text =
        formattedDate (foundation url system timeZone device') dateTime'.text ↔
      clockTime timeZone dateTime.instant = clockTime timeZone dateTime'.instant := by
  rw [formattedDate_of_knows url system timeZone knows,
    formattedDate_of_knows url system timeZone knows', string_eq_iff plain]

private def yearBefore : DateTime :=
  { january with
    year := 2025
    hour := 7
    second := 59
    zoneHours := 0
    year_pos := by decide
    date_valid := by decide
    hour_lt := by decide
    second_lt := by decide
    zoneHours_lt := by decide }

theorem formattedDate_eq_iff_yearBefore :
    yearBefore.text ≠ january.text ∧
      formattedDate (foundation (fun _ => true) locales moscow american) yearBefore.text =
        formattedDate (foundation (fun _ => true) locales moscow british) january.text :=
  ⟨by decide +kernel,
    (formattedDate_eq_iff (fun _ => true) locales moscow plain_russian (knows_american yearBefore)
      (by decide +kernel)).mpr (by decide +kernel)⟩

end TheNews.Extensions.DateLabels
