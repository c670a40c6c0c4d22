/- TheNews/Service/FieldReader
   digest: The item reader over an arbitrary accumulator; the parser is its
   trimming instance, and accumulator maps carry one run to another. -/

import TheNews.Service.NewsParse
import Mathlib.Logic.Function.Basic

set_option autoImplicit false
set_option relaxedAutoImplicit false

namespace TheNews.Service.FieldReader

open TheNews.Text.Trimming
open NewsParse

universe u v
variable {φ : Type u} {ψ : Type v}

/-- The parts of an item that the parser collects. -/
inductive Field where
  | title
  | description
  | pubDate
  deriving DecidableEq, Repr

theorem Field.forall_iff {P : Field → Prop} :
    (∀ k, P k) ↔ P .title ∧ P .description ∧ P .pubDate :=
  ⟨fun all => ⟨all _, all _, all _⟩, fun all k => by cases k; exacts [all.1, all.2.1, all.2.2]⟩

instance {P : Field → Prop} [DecidablePred P] : Decidable (∀ k, P k) :=
  decidable_of_iff' _ Field.forall_iff

/-- The element a part is read from. -/
def Field.element : Field → String
  | .title => "title"
  | .description => "description"
  | .pubDate => "pubDate"

def Field.ofElement : String → Option Field
  | "title" => some .title
  | "description" => some .description
  | "pubDate" => some .pubDate
  | _ => none

@[simp] theorem Field.ofElement_element (k : Field) : Field.ofElement k.element = some k := by
  cases k <;> rfl

theorem Field.element_injective : Function.Injective Field.element := by
  intro j k same
  cases j <;> cases k <;> simp_all [Field.element]

theorem Field.ofElement_eq_some {name : String} {k : Field} :
    Field.ofElement name = some k ↔ name = k.element := by
  constructor
  · intro h
    unfold Field.ofElement at h
    split at h <;> cases h <;> rfl
  · rintro rfl
    simp

theorem Field.element_ne_item (k : Field) : k.element ≠ "item" := by
  cases k <;> decide

/-- How the text of a field is collected from its foundCharacters calls. -/
structure Accumulator (φ : Type u) where
  empty : φ
  append : φ → String → φ

/-- The parser's state with its three strings as one family of accumulators. -/
structure Reader (φ : Type u) where
  emitted : List (Field → φ)
  element : String
  fields : Field → φ

namespace Reader

def start (acc : Accumulator φ) : Reader φ := ⟨[], "", fun _ => acc.empty⟩

def step (acc : Accumulator φ) (r : Reader φ) : SaxEvent → Reader φ
  | .didStartElement name =>
      { r with element := name, fields := if name = "item" then fun _ => acc.empty else r.fields }
  | .foundCharacters string =>
      match Field.ofElement r.element with
      | some k => { r with fields := Function.update r.fields k (acc.append (r.fields k) string) }
      | none => r
  | .didEndElement name =>
      if name = "item" then { r with emitted := r.emitted ++ [r.fields] } else r

def run (acc : Accumulator φ) (r : Reader φ) (events : List SaxEvent) : Reader φ :=
  events.foldl (step acc) r

def map (f : φ → ψ) (r : Reader φ) : Reader ψ :=
  ⟨r.emitted.map (fun fields k => f (fields k)), r.element, fun k => f (r.fields k)⟩

@[simp] theorem run_nil (acc : Accumulator φ) (r : Reader φ) : r.run acc [] = r := rfl

@[simp] theorem run_cons (acc : Accumulator φ) (r : Reader φ) (e : SaxEvent)
    (events : List SaxEvent) : r.run acc (e :: events) = (r.step acc e).run acc events := rfl

@[simp] theorem step_foundCharacters_emitted (acc : Accumulator φ) (r : Reader φ)
    (string : String) : (r.step acc (.foundCharacters string)).emitted = r.emitted := by
  simp only [step]
  split <;> rfl

@[simp] theorem run_append (acc : Accumulator φ) (r : Reader φ) (events events' : List SaxEvent) :
    r.run acc (events ++ events') = (r.run acc events).run acc events' :=
  List.foldl_append

end Reader

/-- A map of accumulated values that commutes with collecting them. -/
structure Carries (f : φ → ψ) (a : Accumulator φ) (b : Accumulator ψ) : Prop where
  empty : f a.empty = b.empty
  append : ∀ x s, f (a.append x s) = b.append (f x) s

private theorem Carries.step {f : φ → ψ} {a : Accumulator φ} {b : Accumulator ψ}
    (carries : Carries f a b) (r : Reader φ) (e : SaxEvent) :
    (r.step a e).map f = (r.map f).step b e := by
  cases e with
  | didStartElement name =>
    simp only [Reader.step, Reader.map]
    split <;> simp [carries.empty]
  | foundCharacters string =>
    simp only [Reader.step, Reader.map]
    cases Field.ofElement r.element with
    | none => rfl
    | some k =>
      congr 1
      funext j
      by_cases same : j = k
      · subst same
        simp [carries.append]
      · simp [Function.update_of_ne same]
  | didEndElement name =>
    simp only [Reader.step, Reader.map]
    split <;> simp

theorem Carries.run {f : φ → ψ} {a : Accumulator φ} {b : Accumulator ψ}
    (carries : Carries f a b) (r : Reader φ) (events : List SaxEvent) :
    (r.run a events).map f = (r.map f).run b events := by
  induction events generalizing r with
  | nil => rfl
  | cons e events ih => rw [Reader.run_cons, ih, carries.step, Reader.run_cons]

theorem Carries.emitted {f : φ → ψ} {a : Accumulator φ} {b : Accumulator ψ}
    (carries : Carries f a b) (events : List SaxEvent) :
    ((Reader.start b).run b events).emitted =
      ((Reader.start a).run a events).emitted.map (fun fields k => f (fields k)) := by
  have start : (Reader.start a).map f = Reader.start b := by
    simp [Reader.map, Reader.start, carries.empty]
  rw [← start, ← carries.run]
  rfl

/-- The calls themselves, from which every accumulator can be computed. -/
def calls : Accumulator (List String) := ⟨[], fun strings s => strings ++ [s]⟩

/-- The calls joined to one text. -/
def joined : Accumulator String := ⟨"", fun text s => text ++ s⟩

/-- The accumulation of the source: trimmed again after every call. -/
def trimming : Accumulator String :=
  ⟨"", fun text s => trimmingCharacters whitespacesAndNewlines (text ++ s)⟩

/-- The non-whitespace characters of the calls. -/
def solidText : Accumulator (List Char) :=
  ⟨[], fun text s => text ++ solid whitespacesAndNewlines s.toList⟩

theorem calls_carry (b : Accumulator φ) :
    Carries (fun strings => strings.foldl b.append b.empty) calls b where
  empty := rfl
  append x s := by simp [calls, List.foldl_append]

theorem solid_carry :
    Carries (fun text : String => solid whitespacesAndNewlines text.toList) trimming solidText where
  empty := rfl
  append x s := by simp [trimming, solidText, trimmingCharacters]

theorem joined_carry :
    Carries (fun text : String => solid whitespacesAndNewlines text.toList) joined solidText where
  empty := rfl
  append x s := by simp [joined, solidText]

/-- An accumulator that cannot tell where a text was split. -/
structure Additive (a : Accumulator φ) : Prop where
  append_empty : ∀ x, a.append x "" = x
  append_append : ∀ x s t, a.append (a.append x s) t = a.append x (s ++ t)

theorem joined_additive : Additive joined := by
  constructor
  · intro x
    simp [joined]
  · intro x s t
    simp [joined, String.append_assoc]

/-- The text in front of the first tag, and every tag with the text behind it. -/
def textRuns : List SaxEvent → String × List (SaxEvent × String)
  | [] => ("", [])
  | .foundCharacters s :: rest => (s ++ (textRuns rest).1, (textRuns rest).2)
  | tag :: rest => ("", (tag, (textRuns rest).1) :: (textRuns rest).2)

/-- The two sequences differ only in how each run of character data is split
into foundCharacters calls. -/
def SameText (events events' : List SaxEvent) : Prop := textRuns events = textRuns events'

instance (events events' : List SaxEvent) : Decidable (SameText events events') :=
  inferInstanceAs (Decidable (_ = _))

private def unsplit (runs : String × List (SaxEvent × String)) : List SaxEvent :=
  .foundCharacters runs.1 :: runs.2.flatMap (fun x => [x.1, .foundCharacters x.2])

private theorem Additive.step_empty {a : Accumulator φ} (additive : Additive a) (r : Reader φ) :
    r.step a (.foundCharacters "") = r := by
  simp only [Reader.step]
  cases Field.ofElement r.element <;> simp [additive.append_empty]

private theorem Additive.step_step {a : Accumulator φ} (additive : Additive a) (r : Reader φ)
    (s t : String) : (r.step a (.foundCharacters s)).step a (.foundCharacters t) =
      r.step a (.foundCharacters (s ++ t)) := by
  simp only [Reader.step]
  cases owner : Field.ofElement r.element <;> simp [owner, additive.append_append]

private theorem Additive.run_unsplit {a : Accumulator φ} (additive : Additive a) (r : Reader φ)
    (events : List SaxEvent) : r.run a events = r.run a (unsplit (textRuns events)) := by
  induction events generalizing r with
  | nil => exact (additive.step_empty r).symm
  | cons e events ih =>
    rw [Reader.run_cons, ih]
    cases e with
    | foundCharacters s => simp [unsplit, textRuns, additive.step_step]
    | didStartElement name => simp [unsplit, textRuns, additive.step_empty]
    | didEndElement name => simp [unsplit, textRuns, additive.step_empty]

theorem Additive.run_congr {a : Accumulator φ} (additive : Additive a) (r : Reader φ)
    {events events' : List SaxEvent} (same : SameText events events') :
    r.run a events = r.run a events' := by
  rw [additive.run_unsplit, additive.run_unsplit r events', same]

/-! The parser is the trimming reader. -/

def itemField (item : NewsItem) : Field → String
  | .title => item.title
  | .description => item.description
  | .pubDate => item.pudDate

def toItem (fields : Field → String) : NewsItem :=
  { title := fields .title, description := fields .description, pudDate := fields .pubDate,
    isReading := false }

@[simp] theorem itemField_toItem (fields : Field → String) (k : Field) :
    itemField (toItem fields) k = fields k := by
  cases k <;> rfl

theorem toItem_injective : Function.Injective toItem := by
  intro f g same
  funext k
  rw [← itemField_toItem f, same, itemField_toItem]

def toParser (r : Reader String) : NewsParser :=
  { rssItems := r.emitted.map toItem
    currentElement := r.element
    currentTitle := r.fields .title
    currentDescription := r.fields .description
    currentPubDate := r.fields .pubDate }

private theorem toParser_step (r : Reader String) (e : SaxEvent) :
    (toParser r).step e = toParser (r.step trimming e) := by
  cases e with
  | didStartElement name =>
    by_cases item : name = "item"
    · simp only [NewsParser.step, NewsParser.didStartElement, Reader.step, toParser, item, if_true]
      rfl
    · simp [NewsParser.step, NewsParser.didStartElement, Reader.step, toParser, item]
  | foundCharacters string =>
    cases owner : Field.ofElement r.element with
    | none =>
      have other : (toParser r).foundCharacters string = toParser r := by
        unfold NewsParser.foundCharacters
        split
        · rename_i name; simp [show r.element = "title" from name, Field.ofElement] at owner
        · rename_i name; simp [show r.element = "description" from name, Field.ofElement] at owner
        · rename_i name; simp [show r.element = "pubDate" from name, Field.ofElement] at owner
        · rfl
      rw [Reader.step, owner]
      exact other
    | some k =>
      have name := Field.ofElement_eq_some.mp owner
      cases k <;> simp [NewsParser.step, NewsParser.foundCharacters, Reader.step, toParser, name,
        Field.element, Field.ofElement, trimming, NewsParser.setCurrentTitle,
        NewsParser.setCurrentDescription, NewsParser.setCurrentPubDate]
  | didEndElement name =>
    simp only [NewsParser.step, NewsParser.didEndElement, Reader.step]
    split <;> simp [toParser, toItem]

theorem toParser_run (r : Reader String) (events : List SaxEvent) :
    (toParser r).run events = toParser (r.run trimming events) := by
  induction events generalizing r with
  | nil => rfl
  | cons e events ih => rw [Reader.run_cons, ← ih, ← toParser_step]; rfl

/-- The delivered items are the fields the trimming reader emits. -/
theorem items_eq (events : List SaxEvent) :
    items events = ((Reader.start trimming).run trimming events).emitted.map toItem := by
  change ((toParser (Reader.start trimming)).run events).rssItems = _
  rw [toParser_run]
  rfl

theorem items_trimmed {events : List SaxEvent} {item : NewsItem} (member : item ∈ items events)
    (k : Field) : Trimmed whitespacesAndNewlines (itemField item k).toList := by
  rw [items_eq, (calls_carry trimming).emitted, List.map_map] at member
  obtain ⟨strings, -, rfl⟩ := List.mem_map.mp member
  simp only [Function.comp_apply, itemField_toItem]
  rcases List.eq_nil_or_concat (strings k) with none | ⟨before, last, split⟩
  · rw [none]
    exact trimmed_nil
  · simp only [split, List.concat_eq_append, List.foldl_append, List.foldl_cons, List.foldl_nil,
      trimming, trimmingCharacters, String.toList_ofList]
    exact trimmed_trim _

end TheNews.Service.FieldReader
