/- TheNews/Extensions/DeviceLanguage
   digest: The date of an article is shown alike on two devices exactly if both of their
   languages read the English names in it. -/

import TheNews.Extensions.DateFormats

set_option autoImplicit false
set_option relaxedAutoImplicit false

namespace TheNews.Extensions.DeviceLanguage

open Calendar.Civil DateFormats Text.Tokens

/-- The English names that RSS prescribes. -/
def dayNames (i : Fin 7) : List Char :=
  ["Sun", "Mon", "Tue", "Wed", "Thu", "Fri", "Sat"][i].toList

def monthNames (i : Fin 12) : List Char :=
  ["Jan", "Feb", "Mar", "Apr", "May", "Jun", "Jul", "Aug", "Sep", "Oct", "Nov", "Dec"][i].toList

/-- A valid date-time with the zone it is written in. -/
structure DateTime where
  year : Nat
  month : Fin 12
  day : Nat
  hour : Nat
  minute : Nat
  second : Nat
  /-- The sign of the zone is +. -/
  east : Bool
  zoneHours : Nat
  zoneMinutes : Nat
  year_pos : 1 ≤ year
  date_valid : (Date.mk year month day).Valid
  hour_lt : hour < 24
  minute_lt : minute < 60
  second_lt : second < 60
  zoneHours_lt : zoneHours < 24
  zoneMinutes_lt : zoneMinutes < 60

namespace DateTime

variable (dateTime : DateTime)

def date : Date := ⟨dateTime.year, dateTime.month, dateTime.day⟩

def weekday : Fin 7 := Calendar.Civil.weekday dateTime.date.number

def offset : Int :=
  let seconds : Int := 3600 * dateTime.zoneHours + 60 * dateTime.zoneMinutes
  if dateTime.east then seconds else -seconds

def components : Components where
  weekday := dateTime.weekday
  year := dateTime.year
  month := dateTime.month
  day := dateTime.day
  hour := dateTime.hour
  minute := dateTime.minute
  second := dateTime.second
  offset := dateTime.offset

/-- The instant, in seconds from the Julian 1 January of the year 1. -/
def instant : Int := dateTime.components.instant

/-- What is behind the name of the month: yyyy HH:mm:ss +hhmm. -/
def afterMonth : List Char :=
  ' ' :: (numeral 4 dateTime.year ++
    ' ' :: (numeral 2 dateTime.hour ++ ':' :: (numeral 2 dateTime.minute ++
      ':' :: (numeral 2 dateTime.second ++ ' ' :: (if dateTime.east then '+' else '-') ::
        (numeral 2 dateTime.zoneHours ++ numeral 2 dateTime.zoneMinutes)))))

/-- What is behind the name of the day. -/
def afterDay : List Char :=
  ',' :: ' ' :: (numeral 1 dateTime.day ++
    ' ' :: (monthNames dateTime.month ++ dateTime.afterMonth))

/-- EEE, d MMM yyyy HH:mm:ss +hhmm. -/
def text : String := String.ofList (dayNames dateTime.weekday ++ dateTime.afterDay)

end DateTime

/-- The table of the days has the English name of the day, and the first entry of the table
of the months for the English name of the month is that month. Neither table has a longer
name that goes on with the text behind it. -/
def Knows (locale : DateFormats.Locale) (dateTime : DateTime) : Prop :=
  (locale.days.spellings.lookup (dayNames dateTime.weekday)).isSome ∧
  Ends locale.days.spellings (dayNames dateTime.weekday) dateTime.afterDay ∧
  locale.months.spellings.lookup (monthNames dateTime.month) = some dateTime.month ∧
  Ends locale.months.spellings (monthNames dateTime.month) dateTime.afterMonth

instance (locale : DateFormats.Locale) (dateTime : DateTime) : Decidable (Knows locale dateTime) :=
  inferInstanceAs (Decidable (_ ∧ _))

/-- Different names of one word each. -/
structure Plain {n : Nat} (names : Names n) : Prop where
  distinct : Function.Injective names.written
  oneWord : ∀ i, ' ' ∉ names.written i

section Reading

variable {locale : DateFormats.Locale} {dateTime : DateTime} {components : Components}

private def clockFields : List Field :=
  [.number .year 4, .literal ' ', .number .hour 2, .literal ':', .number .minute 2, .literal ':',
    .number .second 2, .literal ' ', .zone]

private def dateFields : List Field :=
  .literal ' ' :: .number .day 1 :: .literal ' ' :: .monthName :: .literal ' ' :: clockFields

private theorem fields_XML :
    fields dateFormatFromXML.dateFormat = .dayName :: .literal ',' :: dateFields := by decide

theorem fields_view : fields dateFormatForView.dateFormat =
    [.monthName, .literal ' ', .number .day 1, .literal ',', .literal ' ', .number .hour 2,
      .literal ':', .number .minute 2] := by decide

private theorem readFields_afterMonth :
    readFields locale (.literal ' ' :: clockFields) components dateTime.afterMonth =
      some { dateTime.components with
        weekday := components.weekday, month := components.month, day := components.day } := by
  have blank : ' '.isDigit = false := by decide
  have colon : ':'.isDigit = false := by decide
  have zone := readZone_numerals dateTime.east dateTime.zoneHours_lt dateTime.zoneMinutes_lt
  rw [DateTime.afterMonth, readFields_literal, clockFields, readFields_number (stop_cons blank),
    readFields_literal, readFields_number (stop_cons colon), readFields_literal,
    readFields_number (stop_cons colon), readFields_literal, readFields_number (stop_cons blank),
    readFields_literal]
  simp only [readFields, Field.read, zone]
  rfl

private theorem readFields_afterDay :
    readFields locale (.literal ',' :: dateFields) components dateTime.afterDay =
      (readName locale.months.spellings (monthNames dateTime.month ++ dateTime.afterMonth)).bind
        fun found => readFields locale (.literal ' ' :: clockFields)
          { components with day := dateTime.day, month := found.1 } found.2 := by
  have blank : ' '.isDigit = false := by decide
  rw [DateTime.afterDay, readFields_literal, dateFields, readFields_literal,
    readFields_number (stop_cons blank), readFields_literal, readFields_monthName]
  rfl

private theorem comma_not_mem_dayNames (i : Fin 7) : ',' ∉ dayNames i := by
  revert i
  decide

private theorem not_mem_monthNames (i : Fin 12) : ' ' ∉ monthNames i ∧ ',' ∉ monthNames i := by
  revert i
  decide

private theorem commas_afterDay :
    dateTime.afterDay.count ',' ≤ dateFields.count (.literal ',') + 1 := by
  have sign : (if dateTime.east then '+' else '-') ≠ ',' := by
    cases dateTime.east <;> decide
  have month := List.count_eq_zero_of_not_mem (not_mem_monthNames dateTime.month).2
  have none : ∀ width n, (numeral width n).count ',' = 0 := fun _ _ => count_numeral (by decide)
  simp [DateTime.afterDay, DateTime.afterMonth, none, month, sign]

private theorem blanks_afterMonth :
    dateTime.afterMonth.count ' ' ≤ clockFields.count (.literal ' ') + 1 := by
  have sign : (if dateTime.east then '+' else '-') ≠ ' ' := by
    cases dateTime.east <;> decide
  have none : ∀ width n, (numeral width n).count ' ' = 0 := fun _ _ => count_numeral (by decide)
  have fields : clockFields.count (.literal ' ') = 2 := by decide
  simp [DateTime.afterMonth, none, sign, fields]

private def named (dateTime : DateTime) (weekday : Fin 7) (month : Fin 12) : Components :=
  { dateTime.components with weekday := weekday, month := month }

private theorem readFields_text :
    readFields locale (fields dateFormatFromXML.dateFormat) .initial dateTime.text.toList =
        some components ↔
      ∃ weekday month,
        readName locale.days.spellings (dayNames dateTime.weekday ++ dateTime.afterDay) =
          some (weekday, dateTime.afterDay) ∧
        readName locale.months.spellings (monthNames dateTime.month ++ dateTime.afterMonth) =
          some (month, dateTime.afterMonth) ∧ named dateTime weekday month = components := by
  rw [fields_XML, DateTime.text, String.toList_ofList, readFields_dayName]
  constructor
  · intro read
    obtain ⟨⟨weekday, behind⟩, day, others⟩ := Option.bind_eq_some_iff.mp read
    have ends : behind = dateTime.afterDay :=
      name_ends (comma_not_mem_dayNames _) rfl commas_afterDay day (Option.isSome_of_eq_some others)
    rw [ends] at day others
    rw [readFields_afterDay] at others
    obtain ⟨⟨month, behind⟩, found, clock⟩ := Option.bind_eq_some_iff.mp others
    have ends' : behind = dateTime.afterMonth :=
      name_ends (not_mem_monthNames _).1 rfl blanks_afterMonth found
        (Option.isSome_of_eq_some clock)
    simp only [ends'] at found clock
    rw [readFields_afterMonth] at clock
    exact ⟨weekday, month, day, found, Option.some.inj clock⟩
  · rintro ⟨weekday, month, day, found, rfl⟩
    rw [day, Option.bind_some, readFields_afterDay, found, Option.bind_some, readFields_afterMonth]
    rfl

private theorem knows_iff :
    Knows locale dateTime ↔ ∃ weekday,
      readName locale.days.spellings (dayNames dateTime.weekday ++ dateTime.afterDay) =
        some (weekday, dateTime.afterDay) ∧
      readName locale.months.spellings (monthNames dateTime.month ++ dateTime.afterMonth) =
        some (dateTime.month, dateTime.afterMonth) := by
  have dayName : ∀ i, dayNames i ≠ [] := by decide
  have monthName : ∀ i, monthNames i ≠ [] := by decide
  simp only [readName_append, dayName, monthName, Knows, ne_eq, not_false_eq_true, true_and,
    Option.isSome_iff_exists]
  constructor
  · rintro ⟨⟨weekday, day⟩, ends, month⟩
    exact ⟨weekday, ⟨day, ends⟩, month⟩
  · rintro ⟨weekday, ⟨day, ends⟩, month⟩
    exact ⟨⟨weekday, day⟩, ends, month⟩

private theorem date_eq_some {instant : Int} :
    dateFormatFromXML.date locale dateTime.text = some instant ↔
      ∃ weekday month,
        readName locale.days.spellings (dayNames dateTime.weekday ++ dateTime.afterDay) =
          some (weekday, dateTime.afterDay) ∧
        readName locale.months.spellings (monthNames dateTime.month ++ dateTime.afterMonth) =
          some (month, dateTime.afterMonth) ∧
        (named dateTime weekday month).Valid ∧
        (named dateTime weekday month).instant = instant := by
  rw [DateFormatter.date, Option.bind_eq_some_iff]
  constructor
  · rintro ⟨components, read, result⟩
    obtain ⟨weekday, month, day, found, rfl⟩ := readFields_text.mp read
    split_ifs at result with valid
    exact ⟨weekday, month, day, found, valid, Option.some.inj result⟩
  · rintro ⟨weekday, month, day, found, valid, rfl⟩
    exact ⟨_, readFields_text.mpr ⟨weekday, month, day, found, rfl⟩, if_pos valid⟩

private theorem named_valid {weekday : Fin 7} {month : Fin 12} :
    (named dateTime weekday month).Valid ↔
      (Date.mk dateTime.year month dateTime.day).Valid := by
  have clock : dateTime.hour < 24 ∧ dateTime.minute < 60 ∧ dateTime.second < 60 :=
    ⟨dateTime.hour_lt, dateTime.minute_lt, dateTime.second_lt⟩
  constructor
  · intro valid
    exact valid.2.1
  · intro valid
    exact ⟨dateTime.year_pos, valid, clock⟩

private theorem date_of_knows (knows : Knows locale dateTime) :
    dateFormatFromXML.date locale dateTime.text = some dateTime.instant := by
  obtain ⟨weekday, day, month⟩ := knows_iff.mp knows
  have valid : (named dateTime weekday dateTime.month).Valid :=
    named_valid.mpr dateTime.date_valid
  exact date_eq_some.mpr ⟨weekday, dateTime.month, day, month, valid, rfl⟩

end Reading

section Writing

private theorem toList_string (locale : DateFormats.Locale) (timeZone : TimeZone) (date : Int) :
    ∃ clock, (dateFormatForView.string locale timeZone date).toList =
      locale.months.written (timeZone.components date).month ++
        ' ' :: (numeral 1 (timeZone.components date).day ++ ',' :: clock) := by
  rw [DateFormatter.string, String.toList_ofList, fields_view]
  simp only [List.flatMap_cons, Field.write, List.cons_append]
  exact ⟨_, rfl⟩

variable {locale : DateFormats.Locale} {timeZone : TimeZone} {date date' : Int}

private theorem string_ne_empty : dateFormatForView.string locale timeZone date ≠ "" := by
  intro empty
  obtain ⟨clock, written⟩ := toList_string locale timeZone date
  rw [empty] at written
  exact List.append_ne_nil_of_right_ne_nil _ (List.cons_ne_nil _ _) written.symm

private theorem day_of_string (plain : Plain locale.months)
    (same : dateFormatForView.string locale timeZone date =
      dateFormatForView.string locale timeZone date') :
    (timeZone.components date).month = (timeZone.components date').month ∧
      (timeZone.components date).day = (timeZone.components date').day := by
  obtain ⟨clock, written⟩ := toList_string locale timeZone date
  obtain ⟨clock', written'⟩ := toList_string locale timeZone date'
  rw [same, written'] at written
  obtain ⟨month, rest⟩ := append_cons_inj (plain.oneWord _) (plain.oneWord _) written
  have comma : ','.isDigit = false := by decide
  have day : readNumeral (numeral 1 (timeZone.components date).day ++ ',' :: clock) =
      some ((timeZone.components date).day, ',' :: clock) :=
    readNumeral_numeral (stop_cons comma)
  rw [← rest, readNumeral_numeral (stop_cons comma)] at day
  exact ⟨plain.distinct month.symm, (congrArg Prod.fst (Option.some.inj day)).symm⟩

private theorem day_ne_of_apart (far : 18 * 86400 ≤ (date' - date).natAbs)
    (near : (date' - date).natAbs ≤ 335 * 86400)
    (month : (timeZone.components date).month = (timeZone.components date').month)
    (day : (timeZone.components date).day = (timeZone.components date').day) : False := by
  have shift := timeZone.bounded date
  have shift' := timeZone.bounded date'
  have values := congrArg Fin.val month
  simp only [TimeZone.components] at values day
  generalize hNumber : (date + timeZone.secondsFromGMT date) / 86400 = number at values day
  generalize hNumber' : (date' + timeZone.secondsFromGMT date') / 86400 = number' at values day
  have months : (dateOf number').month = (dateOf number).month := by
    rw [Nat.mod_eq_of_lt (valid_dateOf number).month_lt,
      Nat.mod_eq_of_lt (valid_dateOf number').month_lt] at values
    exact values.symm
  by_cases years : (dateOf number').year = (dateOf number).year
  · have same : dateOf number' = dateOf number := by
      rw [Date.mk.injEq]
      exact ⟨years, months, day.symm⟩
    have equal : number' = number := by
      rw [← number_dateOf number', same, number_dateOf]
    omega
  · have apart := number_of_year_ne (valid_dateOf number) (valid_dateOf number') months day.symm
      years
    rw [number_dateOf, number_dateOf] at apart
    omega

end Writing

section Devices

variable (url : String → Bool) (system : String → DateFormats.Locale) (timeZone : TimeZone)

theorem formattedDate_of_knows {device : DateFormats.Locale} {dateTime : DateTime}
    (knows : Knows device dateTime) :
    formattedDate (foundation url system timeZone device) dateTime.text =
      dateFormatForView.string (system "ru_RU") timeZone dateTime.instant := by
  rw [formattedDate_foundation, date_of_knows knows]

private theorem month_of_string {system : String → DateFormats.Locale} {dateTime : DateTime}
    {weekday : Fin 7} {month : Fin 12} (plain : Plain (system "ru_RU").months)
    (valid : (named dateTime weekday month).Valid)
    (same : dateFormatForView.string (system "ru_RU") timeZone
        (named dateTime weekday month).instant =
      dateFormatForView.string (system "ru_RU") timeZone dateTime.instant) :
    month = dateTime.month := by
  by_contra other
  have apart := number_of_month_ne dateTime.date_valid (named_valid.mp valid) rfl rfl
    fun equal => other (Fin.ext equal)
  have moved : (named dateTime weekday month).instant - dateTime.instant =
      86400 * ((Date.mk dateTime.year month dateTime.day).number -
        (Date.mk dateTime.year dateTime.month dateTime.day).number) := by
    simp only [DateTime.instant, Components.instant, named, DateTime.components, Components.date]
    ring
  obtain ⟨months, days⟩ := day_of_string plain same
  exact day_ne_of_apart (by omega) (by omega) months.symm days.symm

private theorem knows_of_formattedDate {device : DateFormats.Locale} {dateTime : DateTime}
    (plain : Plain (system "ru_RU").months)
    (shown : formattedDate (foundation url system timeZone device) dateTime.text =
      dateFormatForView.string (system "ru_RU") timeZone dateTime.instant) :
    Knows device dateTime := by
  rw [formattedDate_foundation] at shown
  cases read : dateFormatFromXML.date device dateTime.text with
  | none =>
    rw [read] at shown
    exact absurd shown.symm string_ne_empty
  | some date =>
    rw [read] at shown
    obtain ⟨weekday, month, day, found, valid, rfl⟩ := date_eq_some.mp read
    obtain rfl := month_of_string timeZone plain valid shown
    exact knows_iff.mpr ⟨weekday, day, found⟩

/-- Two devices show one date, the one that the text says, exactly if the languages of both
have its English names. -/
theorem formattedDate_same_iff (plain : Plain (system "ru_RU").months)
    (device device' : DateFormats.Locale) (dateTime : DateTime) :
    (formattedDate (foundation url system timeZone device) dateTime.text =
          formattedDate (foundation url system timeZone device') dateTime.text ∧
        formattedDate (foundation url system timeZone device) dateTime.text ≠ "" ∧
        formattedDate (foundation url system timeZone device) dateTime.text =
          dateFormatForView.string (system "ru_RU") timeZone dateTime.instant) ↔
      Knows device dateTime ∧ Knows device' dateTime := by
  constructor
  · rintro ⟨same, -, rendering⟩
    have shown' := same.symm.trans rendering
    exact ⟨knows_of_formattedDate url system timeZone plain rendering,
      knows_of_formattedDate url system timeZone plain shown'⟩
  · rintro ⟨knows, knows'⟩
    have shown := formattedDate_of_knows url system timeZone knows
    have shown' := formattedDate_of_knows url system timeZone knows'
    exact ⟨shown.trans shown'.symm, shown ▸ string_ne_empty, shown⟩

theorem formattedDate_eq_empty {device : DateFormats.Locale} {dateTime : DateTime}
    (unknown : device.days.spellings.lookup (dayNames dateTime.weekday) = none) :
    formattedDate (foundation url system timeZone device) dateTime.text = "" := by
  rw [formattedDate_foundation]
  cases read : dateFormatFromXML.date device dateTime.text with
  | none => rfl
  | some date =>
    obtain ⟨weekday, month, day, -⟩ := date_eq_some.mp read
    have spelled := (readName_append.mp day).2.1
    rw [unknown] at spelled
    exact absurd spelled.symm (Option.some_ne_none weekday)

end Devices

section Languages

/-- A table that reads the full names and the short ones. -/
def table {n : Nat} (full short : Vector String n) : Names n where
  written := fun i => short[i].toList
  spellings :=
    (List.ofFn fun i : Fin n => (full[i].toList, i)) ++ List.ofFn fun i => (short[i].toList, i)
  spelled := fun i => List.mem_append_right _ (List.mem_ofFn.mpr ⟨i, rfl⟩)

/-- English days with a language's months. -/
def english (short : Vector String 12) : DateFormats.Locale where
  days := table
    #v["Sunday", "Monday", "Tuesday", "Wednesday", "Thursday", "Friday", "Saturday"]
    #v["Sun", "Mon", "Tue", "Wed", "Thu", "Fri", "Sat"]
  months := table
    #v["January", "February", "March", "April", "May", "June", "July", "August", "September",
      "October", "November", "December"] short

/-- en_US -/
def american : DateFormats.Locale := english
  #v["Jan", "Feb", "Mar", "Apr", "May", "Jun", "Jul", "Aug", "Sep", "Oct", "Nov", "Dec"]

/-- en_GB -/
def british : DateFormats.Locale := english
  #v["Jan", "Feb", "Mar", "Apr", "May", "Jun", "Jul", "Aug", "Sept", "Oct", "Nov", "Dec"]

/-- ru_RU -/
def russian : DateFormats.Locale where
  days := table
    #v["воскресенье", "понедельник", "вторник", "среда", "четверг", "пятница", "суббота"]
    #v["вс", "пн", "вт", "ср", "чт", "пт", "сб"]
  months := table
    #v["января", "февраля", "марта", "апреля", "мая", "июня", "июля", "августа", "сентября",
      "октября", "ноября", "декабря"]
    #v["янв.", "февр.", "мар.", "апр.", "мая", "июн.", "июл.", "авг.", "сент.", "окт.", "нояб.",
      "дек."]

/-- Locale(identifier:). -/
def locales (identifier : String) : DateFormats.Locale :=
  if identifier = "ru_RU" then russian else if identifier = "en_GB" then british else american

def moscow : TimeZone := ⟨fun _ => 10800, fun _ => by decide⟩

/-- Mon, 5 Jan 2026 10:00:00 +0300 -/
def january : DateTime where
  year := 2026
  month := ⟨0, Nat.succ_pos 11⟩
  day := 5
  hour := 10
  minute := 0
  second := 0
  east := true
  zoneHours := 3
  zoneMinutes := 0
  year_pos := by decide
  date_valid := by decide
  hour_lt := by decide
  minute_lt := by decide
  second_lt := by decide
  zoneHours_lt := by decide
  zoneMinutes_lt := by decide

theorem knows_american (dateTime : DateTime) : Knows american dateTime := by
  have days : ∀ i, (american.days.spellings.lookup (dayNames i)).isSome ∧
      ∀ spelling ∈ american.days.spellings, ¬ dayNames i ++ [','] <+: spelling.1 := by
    decide +kernel
  have months : ∀ i, american.months.spellings.lookup (monthNames i) = some i ∧
      ∀ spelling ∈ american.months.spellings, ¬ monthNames i ++ [' '] <+: spelling.1 := by
    decide +kernel
  obtain ⟨day, stop⟩ := days dateTime.weekday
  obtain ⟨month, stop'⟩ := months dateTime.month
  exact ⟨day, ends_cons stop, month, ends_cons stop'⟩

theorem plain_russian : Plain (locales "ru_RU").months where
  distinct := by
    unfold Function.Injective
    decide +kernel
  oneWord := by decide +kernel

theorem formattedDate_same_iff_january :
    formattedDate (foundation (fun _ => true) locales moscow american) january.text =
        formattedDate (foundation (fun _ => true) locales moscow british) january.text ∧
      formattedDate (foundation (fun _ => true) locales moscow american) january.text ≠ "" ∧
      formattedDate (foundation (fun _ => true) locales moscow american) january.text =
        dateFormatForView.string (locales "ru_RU") moscow january.instant :=
  (formattedDate_same_iff (fun _ => true) locales moscow plain_russian american british
    january).mpr ⟨knows_american january, by decide +kernel⟩

theorem not_formattedDate_same :
    ¬ ∀ (device device' : DateFormats.Locale) (dateTime : DateTime),
      formattedDate (foundation (fun _ => true) locales moscow device) dateTime.text =
          formattedDate (foundation (fun _ => true) locales moscow device') dateTime.text ∧
        formattedDate (foundation (fun _ => true) locales moscow device) dateTime.text ≠ "" ∧
        formattedDate (foundation (fun _ => true) locales moscow device) dateTime.text =
          dateFormatForView.string (locales "ru_RU") moscow dateTime.instant := by
  intro same
  obtain ⟨-, shown, -⟩ := same russian american january
  have unknown : russian.days.spellings.lookup (dayNames january.weekday) = none := by
    decide +kernel
  exact shown (formattedDate_eq_empty (fun _ => true) locales moscow unknown)

end Languages

end TheNews.Extensions.DeviceLanguage
