/- TheNews/Extensions/DateFormats
   models: Extensions/DateFormatter.swift
   digest: The two date formatters, and what they read and write with their patterns and
   the names of a locale. -/

import TheNews.Calendar.Civil
import TheNews.Extensions.DateFormatter
import TheNews.Text.Tokens

set_option autoImplicit false
set_option relaxedAutoImplicit false

namespace TheNews.Extensions.DateFormats

open Calendar.Civil Text.Tokens

/-- The names of the days or of the months in a locale. -/
structure Names (n : Nat) where
  /-- The short form. -/
  written : Fin n → List Char
  /-- All that is read as one of the names, in any form. -/
  spellings : List (List Char × Fin n)
  /-- What is written can be read. -/
  spelled : ∀ i, (written i, i) ∈ spellings

/-- The days are from Sunday on, the months from January on. -/
structure Locale where
  days : Names 7
  months : Names 12

structure TimeZone where
  secondsFromGMT : Int → Int
  /-- No time zone is a day away. -/
  bounded : ∀ instant, (secondsFromGMT instant).natAbs < 86400

inductive Part
  | year | day | hour | minute | second
  deriving DecidableEq

/-- What a run of one letter in a pattern stands for; other characters stand for themselves. -/
inductive Field
  | dayName
  | monthName
  | number (part : Part) (width : Nat)
  | zone
  | literal (c : Char)
  deriving DecidableEq

/-- The runs in this app's patterns. -/
def fieldsOfRun (run : List Char) : List Field :=
  match run with
  | ['E'] => [.dayName]
  | ['M', 'M', 'M'] => [.monthName]
  | 'y' :: _ => [.number .year run.length]
  | 'd' :: _ => [.number .day run.length]
  | 'H' :: _ => [.number .hour run.length]
  | 'm' :: _ => [.number .minute run.length]
  | 's' :: _ => [.number .second run.length]
  | 'Z' :: _ => [.zone]
  | _ => run.map .literal

def fields (dateFormat : String) : List Field :=
  (dateFormat.toList.splitBy (· == ·)).flatMap fieldsOfRun

/-- DateComponents, with the seconds east of GMT. -/
structure Components where
  weekday : Fin 7
  year : Nat
  month : Fin 12
  day : Nat
  hour : Nat
  minute : Nat
  second : Nat
  offset : Int
  deriving DecidableEq

/-- What a text that says nothing of a component leaves. -/
def Components.initial : Components :=
  ⟨⟨6, by decide⟩, 2000, ⟨0, by decide⟩, 1, 0, 0, 0, 0⟩

def Components.get (components : Components) : Part → Nat
  | .year => components.year
  | .day => components.day
  | .hour => components.hour
  | .minute => components.minute
  | .second => components.second

def Components.set (components : Components) (n : Nat) : Part → Components
  | .year => { components with year := n }
  | .day => { components with day := n }
  | .hour => { components with hour := n }
  | .minute => { components with minute := n }
  | .second => { components with second := n }

def Components.date (components : Components) : Date :=
  ⟨components.year, components.month, components.day⟩

/-- The ranges of the calendar, kept because isLenient is false. -/
def Components.Valid (components : Components) : Prop :=
  1 ≤ components.year ∧ components.date.Valid ∧
    components.hour < 24 ∧ components.minute < 60 ∧ components.second < 60

instance (components : Components) : Decidable components.Valid :=
  inferInstanceAs (Decidable (_ ∧ _))

/-- The seconds from the Julian 1 January of the year 1. The day of the month decides,
not the day of the week. -/
def Components.instant (components : Components) : Int :=
  86400 * components.date.number + 3600 * components.hour + 60 * components.minute +
    components.second - components.offset

/-- The components of an instant where the clocks show the time of a zone. -/
def TimeZone.components (timeZone : TimeZone) (instant : Int) : Components :=
  let offset := timeZone.secondsFromGMT instant
  let number := (instant + offset) / 86400
  let rest := ((instant + offset) % 86400).toNat
  let date := dateOf number
  { weekday := weekday number
    -- The year of its era: 1 BC is the year 0.
    year := (if 1 ≤ date.year then date.year else 1 - date.year).toNat
    month := ⟨date.month % 12, Nat.mod_lt date.month (by decide)⟩
    day := date.day
    hour := rest / 3600
    minute := rest / 60 % 60
    second := rest % 60
    offset := offset }

/-- +hhmm or -hhmm. -/
def readZone : List Char → Option (Int × List Char)
  | [] => none
  | sign :: text =>
    let (run, rest) := digits text
    let hours := Nat.ofDigitChars 10 (run.take 2) 0
    let minutes := Nat.ofDigitChars 10 (run.drop 2) 0
    let seconds : Int := 3600 * hours + 60 * minutes
    if run.length = 4 ∧ hours < 24 ∧ minutes < 60 then
      if sign = '+' then some (seconds, rest)
      else if sign = '-' then some (-seconds, rest)
      else none
    else none

def Field.read (locale : Locale) (components : Components) (text : List Char) :
    Field → Option (Components × List Char)
  | .dayName => (readName locale.days.spellings text).map fun found =>
      ({ components with weekday := found.1 }, found.2)
  | .monthName => (readName locale.months.spellings text).map fun found =>
      ({ components with month := found.1 }, found.2)
  | .number part _ => (readNumeral text).map fun found => (components.set found.1 part, found.2)
  | .zone => (readZone text).map fun found => ({ components with offset := found.1 }, found.2)
  | .literal c => match text with
    | [] => none
    | first :: rest => if first = c then some (components, rest) else none

def Field.write (locale : Locale) (components : Components) : Field → List Char
  | .dayName => locale.days.written components.weekday
  | .monthName => locale.months.written components.month
  | .number part width => numeral width (components.get part)
  | .zone =>
    (if 0 ≤ components.offset then '+' else '-') ::
      (numeral 2 (components.offset.natAbs / 3600) ++
        numeral 2 (components.offset.natAbs / 60 % 60))
  | .literal c => [c]

/-- The whole text must be of the pattern. -/
def readFields (locale : Locale) : List Field → Components → List Char → Option Components
  | [], components, text => if text = [] then some components else none
  | field :: fields, components, text =>
    (field.read locale components text).bind fun found =>
      readFields locale fields found.1 found.2

structure DateFormatter where
  dateFormat : String
  /-- The identifier; the device's locale when none is set. -/
  locale : Option String

/-- `date(from:)` with the names of a locale. -/
def DateFormatter.date (formatter : DateFormatter) (locale : Locale) (s : String) : Option Int :=
  (readFields locale (fields formatter.dateFormat) .initial s.toList).bind fun components =>
    if components.Valid then some components.instant else none

/-- `string(from:)` with the names of a locale. -/
def DateFormatter.string (formatter : DateFormatter) (locale : Locale) (timeZone : TimeZone)
    (date : Int) : String :=
  String.ofList ((fields formatter.dateFormat).flatMap
    (Field.write locale (timeZone.components date)))

def dateFormatFromXML : DateFormatter where
  dateFormat := "E, d MMM yyyy HH:mm:ss Z"
  locale := none

def dateFormatForView : DateFormatter where
  dateFormat := "MMM d, HH:mm"
  locale := some "ru_RU"

/-- The formatter's own locale, or the device's. -/
def DateFormatter.names (formatter : DateFormatter) (system : String → Locale)
    (device : Locale) : Locale :=
  match formatter.locale with
  | none => device
  | some identifier => system identifier

/-- Foundation on a device: the locales of the system by their identifiers, and the
device's own locale and time zone. -/
def foundation (url : String → Bool) (system : String → Locale) (timeZone : TimeZone)
    (device : Locale) : Foundation where
  url := url
  date := dateFormatFromXML.date (dateFormatFromXML.names system device)
  string := dateFormatForView.string (dateFormatForView.names system device) timeZone

theorem formattedDate_foundation (url : String → Bool) (system : String → Locale)
    (timeZone : TimeZone) (device : Locale) (s : String) :
    formattedDate (foundation url system timeZone device) s =
      match dateFormatFromXML.date device s with
      | none => ""
      | some date => dateFormatForView.string (system "ru_RU") timeZone date := rfl

section Reading

variable {locale : Locale} {components : Components} {text rest : List Char} {fs : List Field}
  {c : Char}

theorem readFields_dayName :
    readFields locale (.dayName :: fs) components text =
      (readName locale.days.spellings text).bind fun found =>
        readFields locale fs { components with weekday := found.1 } found.2 := by
  rw [readFields, Field.read, Option.bind_map]
  rfl

theorem readFields_monthName :
    readFields locale (.monthName :: fs) components text =
      (readName locale.months.spellings text).bind fun found =>
        readFields locale fs { components with month := found.1 } found.2 := by
  rw [readFields, Field.read, Option.bind_map]
  rfl

theorem readFields_literal :
    readFields locale (.literal c :: fs) components (c :: rest) =
      readFields locale fs components rest := by
  simp only [readFields, Field.read, if_pos, Option.bind_some]

theorem readFields_number {part : Part} {width width' n : Nat}
    (stop : ∀ c ∈ rest.head?, c.isDigit = false) :
    readFields locale (.number part width :: fs) components (numeral width' n ++ rest) =
      readFields locale fs (components.set n part) rest := by
  simp only [readFields, Field.read, readNumeral_numeral stop, Option.map_some, Option.bind_some]

theorem readZone_numerals (east : Bool) {hours minutes : Nat} (hour : hours < 24)
    (minute : minutes < 60) :
    readZone ((if east then '+' else '-') :: (numeral 2 hours ++ numeral 2 minutes)) =
      some (if east then (3600 * hours + 60 * minutes : Int) else -(3600 * hours + 60 * minutes),
        []) := by
  have size : (numeral 2 hours).length = 2 := length_numeral Nat.two_pos (by omega)
  have size' : (numeral 2 minutes).length = 2 := length_numeral Nat.two_pos (by omega)
  have run : digits (numeral 2 hours ++ numeral 2 minutes) =
      (numeral 2 hours ++ numeral 2 minutes, []) := by
    have all : ∀ c ∈ numeral 2 hours ++ numeral 2 minutes, c.isDigit = true := by
      intro c member
      rcases List.mem_append.mp member with first | second
      · exact isDigit_of_mem_numeral first
      · exact isDigit_of_mem_numeral second
    have whole : digits ((numeral 2 hours ++ numeral 2 minutes) ++ []) = _ :=
      digits_append all (by simp)
    rwa [List.append_nil] at whole
  simp only [readZone, run, List.take_left' size, List.drop_left' size, ofDigitChars_numeral,
    List.length_append, size, size']
  rw [if_pos ⟨trivial, hour, minute⟩]
  cases east <;> simp

private theorem suffix_of_readZone {found : Int × List Char} (read : readZone text = some found) :
    found.2 <:+ text := by
  cases text with
  | nil => exact absurd read (Option.some_ne_none found).symm
  | cons sign text =>
    simp only [readZone] at read
    split_ifs at read with valid plus minus
    · obtain rfl := Option.some.inj read
      exact (List.dropWhile_suffix _).trans (List.suffix_cons sign text)
    · obtain rfl := Option.some.inj read
      exact (List.dropWhile_suffix _).trans (List.suffix_cons sign text)

theorem Field.read_literal {found : Components × List Char}
    (read : (Field.literal c).read locale components text = some found) :
    found.1 = components ∧ text = c :: found.2 := by
  cases text with
  | nil => exact absurd read (Option.some_ne_none found).symm
  | cons first rest =>
    simp only [Field.read] at read
    split at read
    next same =>
      obtain rfl := Option.some.inj read
      exact ⟨rfl, congrArg (· :: rest) same⟩
    next => exact absurd read (Option.some_ne_none found).symm

theorem Field.suffix_of_read {field : Field} {found : Components × List Char}
    (read : field.read locale components text = some found) : found.2 <:+ text := by
  cases field with
  | dayName =>
    obtain ⟨name, spelled, rfl⟩ := Option.map_eq_some_iff.mp read
    show name.2 <:+ text
    exact suffix_of_readName spelled
  | monthName =>
    obtain ⟨name, spelled, rfl⟩ := Option.map_eq_some_iff.mp read
    show name.2 <:+ text
    exact suffix_of_readName spelled
  | number part width =>
    obtain ⟨n, numeral, rfl⟩ := Option.map_eq_some_iff.mp read
    show n.2 <:+ text
    exact suffix_of_readNumeral numeral
  | zone =>
    obtain ⟨offset, zone, rfl⟩ := Option.map_eq_some_iff.mp read
    show offset.2 <:+ text
    exact suffix_of_readZone zone
  | literal c =>
    have whole := (Field.read_literal read).2
    exact whole ▸ List.suffix_cons c found.2

theorem count_literal_le (read : (readFields locale fs components text).isSome = true) :
    fs.count (.literal c) ≤ text.count c := by
  induction fs generalizing components text with
  | nil => exact Nat.zero_le _
  | cons field fs ih =>
    rw [readFields, Option.isSome_bind, Option.any_eq_true] at read
    obtain ⟨found, first, rest⟩ := read
    have behind := ih rest
    have shorter := (Field.suffix_of_read first).sublist.count_le c
    by_cases same : field = .literal c
    · subst same
      have whole := (Field.read_literal first).2
      rw [whole, List.count_cons_self, List.count_cons_self]
      omega
    · rw [List.count_cons_of_ne same]
      omega

theorem name_ends {n : Nat} {names : Names n} {name behind : List Char}
    {found : Fin n × List Char} (outside : c ∉ name) (starts : behind.head? = some c)
    (few : behind.count c ≤ fs.count (.literal c) + 1)
    (named : readName names.spellings (name ++ behind) = some found)
    (read : (readFields locale (.literal c :: fs) components found.2).isSome = true) :
    found.2 = behind := by
  obtain ⟨front, whole⟩ := suffix_of_readName named
  obtain ⟨rest, rfl⟩ := List.head?_eq_some_iff.mp starts
  rw [readFields, Option.isSome_bind, Option.any_eq_true] at read
  obtain ⟨⟨components', tail⟩, first, others⟩ := read
  have enough : fs.count (.literal c) ≤ tail.count c := count_literal_le others
  have left : found.2 = c :: tail := (Field.read_literal first).2
  rw [left] at whole ⊢
  rcases List.append_eq_append_iff.mp whole with ⟨inner, longer, same⟩ | ⟨inner, longer, same⟩
  · -- No more than the name is read.
    cases inner with
    | nil => exact same
    | cons x inner =>
      have inside : x ∈ name := longer ▸ List.mem_append_right front List.mem_cons_self
      exact absurd ((List.cons.inj same).1 ▸ inside) outside
  · cases inner with
    | nil => exact same.symm
    | cons x inner =>
      have rest_eq : rest = inner ++ c :: tail := (List.cons.inj same).2
      rw [rest_eq, List.count_cons_self, List.count_append, List.count_cons_self] at few
      omega

end Reading

end TheNews.Extensions.DateFormats
