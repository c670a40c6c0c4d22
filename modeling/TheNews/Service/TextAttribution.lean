/- TheNews/Service/TextAttribution
   digest: Text reaches the field of the element that encloses it exactly when it is
   white space or that element selects the same field as the one started last. -/

import TheNews.Service.RssDocument

set_option autoImplicit false
set_option relaxedAutoImplicit false

namespace TheNews.Service.TextAttribution

open TheNews.Text.Trimming
open NewsParse FieldReader RssDocument

/-- The open elements, innermost first. -/
def openElements (stack : List String) : List SaxEvent → Option (List String)
  | [] => some stack
  | .didStartElement name :: events => openElements (name :: stack) events
  | .foundCharacters _ :: events => openElements stack events
  | .didEndElement name :: events => match stack with
    | [] => none
    | innermost :: outer => if name = innermost then openElements outer events else none

/-- Every end tag closes the innermost open element, and none is left open. -/
def WellNested (events : List SaxEvent) : Prop := openElements [] events = some []

instance (events : List SaxEvent) : Decidable (WellNested events) :=
  inferInstanceAs (Decidable (_ = _))

/-- The element whose start tag came last, open or not. -/
def lastStarted (events : List SaxEvent) : Option String :=
  events.foldl (fun last event => match event with
    | .didStartElement name => some name
    | _ => last) none

/-- Add a string to the text of a field, or to none. -/
def addTo (p : NewsParser) (string : String) : Option Field → NewsParser
  | some .title => p.setCurrentTitle (p.currentTitle ++ string)
  | some .description => p.setCurrentDescription (p.currentDescription ++ string)
  | some .pubDate => p.setCurrentPubDate (p.currentPubDate ++ string)
  | none => p

/-- What the parser should make of text inside the given innermost element. -/
def attributed (innermost : Option String) (p : NewsParser) (string : String) : NewsParser :=
  addTo p string (innermost.bind Field.ofElement)

def Blank (string : String) : Prop := ∀ c ∈ string.toList, whitespacesAndNewlines c = true

/-! Nesting -/

private theorem openElements_append (stack : List String) (pre post : List SaxEvent) :
    openElements stack (pre ++ post) =
      (openElements stack pre).bind fun inner => openElements inner post := by
  induction pre generalizing stack with
  | nil => rfl
  | cons event pre ih =>
    cases event with
    | didStartElement name => exact ih (name :: stack)
    | foundCharacters string => exact ih stack
    | didEndElement name =>
      cases stack with
      | nil => rfl
      | cons innermost outer =>
        simp only [List.cons_append, openElements]
        split
        · exact ih outer
        · rfl

private theorem openElements_events (stack : List String) (c : Content) :
    openElements stack c.events = some stack := by
  induction c generalizing stack with
  | nil => rfl
  | text string rest ih => exact ih stack
  | element name children rest ihc ih =>
    rw [Content.events, openElements, openElements_append, ihc, Option.bind_some, openElements,
      if_pos rfl, ih]

private theorem lastStarted_append (pre : List SaxEvent) (event : SaxEvent) :
    lastStarted (pre ++ [event]) = match event with
      | .didStartElement name => some name
      | _ => lastStarted pre := by
  rw [lastStarted, List.foldl_append]
  rfl

private theorem openElements_of_unstarted {pre : List SaxEvent} {stack : List String}
    (unstarted : lastStarted pre = none) (isOpen : openElements [] pre = some stack) :
    stack = [] := by
  induction pre using List.reverseRecOn generalizing stack with
  | nil => exact (Option.some.inj isOpen).symm
  | append_singleton pre event ih =>
    rw [openElements_append, Option.bind_eq_some_iff] at isOpen
    rw [lastStarted_append] at unstarted
    obtain ⟨before, isOpen, closed⟩ := isOpen
    cases event with
    | didStartElement name => cases unstarted
    | foundCharacters string =>
      rw [← ih unstarted isOpen]
      exact (Option.some.inj closed).symm
    | didEndElement name =>
      rw [ih unstarted isOpen] at closed
      cases closed

theorem wellNested_events (c : Content) : WellNested c.events := openElements_events [] c

/-! The element name -/

private theorem run_append_single (p : NewsParser) (pre : List SaxEvent) (event : SaxEvent) :
    p.run (pre ++ [event]) = (p.run pre).step event := by
  simp [NewsParser.run, List.foldl_append]

@[simp] private theorem foundCharacters_element (p : NewsParser) (string : String) :
    (p.foundCharacters string).currentElement = p.currentElement := by
  simp only [NewsParser.foundCharacters]
  split <;> rfl

theorem currentElement_eq (events : List SaxEvent) :
    (NewsParser.run {} events).currentElement = (lastStarted events).getD "" := by
  induction events using List.reverseRecOn with
  | nil => rfl
  | append_singleton pre event ih =>
    rw [run_append_single]
    cases event with
    | didStartElement name =>
      simp only [NewsParser.step, NewsParser.didStartElement, lastStarted_append]
      split <;> rfl
    | foundCharacters string => simpa [NewsParser.step, lastStarted_append] using ih
    | didEndElement name =>
      have kept (p : NewsParser) : (p.didEndElement name).currentElement = p.currentElement := by
        simp only [NewsParser.didEndElement]
        split <;> rfl
      simpa [NewsParser.step, kept, lastStarted_append] using ih

private theorem foundCharacters_eq (p : NewsParser) (string : String) :
    p.foundCharacters string = addTo p string (Field.ofElement p.currentElement) := by
  unfold NewsParser.foundCharacters Field.ofElement
  split <;> simp_all [addTo]

/-! The texts -/

def text (p : NewsParser) : Field → String
  | .title => p.currentTitle
  | .description => p.currentDescription
  | .pubDate => p.currentPubDate

private theorem text_addTo (p : NewsParser) (string : String) (k : Option Field) (j : Field) :
    text (addTo p string k) j = if k = some j
      then trimmingCharacters whitespacesAndNewlines (text p j ++ string) else text p j := by
  rcases k with _ | k
  · simp [addTo]
  · cases k <;> cases j <;>
      simp [addTo, text, NewsParser.setCurrentTitle, NewsParser.setCurrentDescription,
        NewsParser.setCurrentPubDate]

def TrimmedTexts (p : NewsParser) : Prop :=
  ∀ k, Trimmed whitespacesAndNewlines (text p k).toList

private theorem trimmedTexts_addTo {p : NewsParser} (before : TrimmedTexts p) (string : String)
    (k : Option Field) : TrimmedTexts (addTo p string k) := by
  intro j
  rw [text_addTo]
  split
  · simpa [trimmingCharacters] using trimmed_trim _
  · exact before j

private theorem trimmedTexts_run (events : List SaxEvent) :
    TrimmedTexts (NewsParser.run {} events) := by
  induction events using List.reverseRecOn with
  | nil => exact fun k => by cases k <;> exact trimmed_nil
  | append_singleton pre event ih =>
    rw [run_append_single]
    cases event with
    | didStartElement name =>
      have cleared : ∀ k, text ((NewsParser.run {} pre).didStartElement name) k =
          if name = "item" then "" else text (NewsParser.run {} pre) k := by
        intro k
        simp only [NewsParser.didStartElement]
        split <;> cases k <;> rfl
      intro k
      rw [NewsParser.step, cleared]
      split
      · exact trimmed_nil
      · exact ih k
    | foundCharacters string =>
      rw [NewsParser.step, foundCharacters_eq]
      exact trimmedTexts_addTo ih string _
    | didEndElement name =>
      have kept : ∀ k, text ((NewsParser.run {} pre).didEndElement name) k =
          text (NewsParser.run {} pre) k := by
        intro k
        simp only [NewsParser.didEndElement]
        split <;> cases k <;> rfl
      intro k
      rw [NewsParser.step, kept]
      exact ih k

private theorem append_eq_iff {p : NewsParser} (trimmed : TrimmedTexts p) (string : String)
    (k : Field) :
    trimmingCharacters whitespacesAndNewlines (text p k ++ string) = text p k ↔ Blank string := by
  rw [← String.toList_inj, trimmingCharacters, String.toList_ofList, String.toList_append]
  exact trim_append_eq_iff (trimmed k)

private theorem addTo_blank {p : NewsParser} (trimmed : TrimmedTexts p) {string : String}
    (blank : Blank string) (k : Option Field) : addTo p string k = p := by
  rcases k with _ | k
  · rfl
  · have same := (append_eq_iff trimmed string k).mpr blank
    cases k <;> simp only [text] at same <;>
      simp [addTo, NewsParser.setCurrentTitle, NewsParser.setCurrentDescription,
        NewsParser.setCurrentPubDate, same]

private theorem addTo_eq_iff {p : NewsParser} (trimmed : TrimmedTexts p) (string : String)
    (j k : Option Field) : addTo p string j = addTo p string k ↔ Blank string ∨ j = k := by
  constructor
  · intro same
    by_contra neither
    obtain ⟨solid, distinct⟩ := not_or.mp neither
    have untouched (i : Field) : j = some i ↔ k = some i := by
      have texts := congrArg (fun p => text p i) same
      have changed : trimmingCharacters whitespacesAndNewlines (text p i ++ string) ≠ text p i :=
        mt (append_eq_iff trimmed string i).mp solid
      simp only [text_addTo] at texts
      by_cases left : j = some i <;> by_cases right : k = some i <;>
        simp [left, right, changed, changed.symm] at texts ⊢
    exact distinct (Option.ext untouched)
  · rintro (blank | rfl)
    · rw [addTo_blank trimmed blank, addTo_blank trimmed blank]
    · rfl

/-- In every well-nested sequence, a text changes the parser as the element that
encloses it demands exactly when it is white space or that element selects the
same field as the element started last; and the parser's element name is that of
the enclosing element exactly when it was started last. -/
theorem attributed_iff {events pre post : List SaxEvent} {string : String}
    (nested : WellNested events) (split : events = pre ++ .foundCharacters string :: post) :
    ∃ stack, openElements [] pre = some stack ∧
      ((NewsParser.run {} pre).foundCharacters string =
          attributed stack.head? (NewsParser.run {} pre) string ↔
        Blank string ∨
          (lastStarted pre).bind Field.ofElement = stack.head?.bind Field.ofElement) ∧
      ((∀ name ∈ stack.head?, (NewsParser.run {} pre).currentElement = name) ↔
        ∀ name ∈ stack.head?, lastStarted pre = some name) := by
  rw [WellNested, split, openElements_append, Option.bind_eq_some_iff] at nested
  obtain ⟨stack, isOpen, -⟩ := nested
  have unread : Field.ofElement "" = none := rfl
  have selected : Field.ofElement (NewsParser.run {} pre).currentElement =
      (lastStarted pre).bind Field.ofElement := by
    rw [currentElement_eq]
    cases lastStarted pre with
    | none => exact unread
    | some name => rfl
  refine ⟨stack, isOpen, ?_, ?_⟩
  · rw [foundCharacters_eq, attributed, addTo_eq_iff (trimmedTexts_run pre), selected]
  · rw [currentElement_eq]
    cases last : lastStarted pre with
    | none => simp [openElements_of_unstarted last isOpen]
    | some name => simp

private def emphasised : Content :=
  .element "description"
    (.text "One " (.element "b" (.text "two" .nil) (.text " three" .nil))) .nil

theorem attributed_iff_emphasised :
    (NewsParser.run {} [.didStartElement "description"]).foundCharacters "One " =
      attributed (some "description") (NewsParser.run {} [.didStartElement "description"])
        "One " := by
  have split : emphasised.events = [.didStartElement "description"] ++
      .foundCharacters "One " :: emphasised.events.drop 2 := rfl
  obtain ⟨stack, isOpen, texts, -⟩ := attributed_iff (wellNested_events emphasised) split
  obtain rfl : ["description"] = stack := Option.some.inj isOpen
  exact texts.mpr (.inr rfl)

theorem not_attributed :
    ¬ ∀ (events pre post : List SaxEvent) (string : String), WellNested events →
      events = pre ++ .foundCharacters string :: post →
        ∀ stack, openElements [] pre = some stack →
          (NewsParser.run {} pre).foundCharacters string =
            attributed stack.head? (NewsParser.run {} pre) string := by
  intro attributes
  -- currentElement is still "b".
  have lost := attributes emphasised.events (emphasised.events.take 5)
    [.didEndElement "description"] " three" (wellNested_events emphasised) rfl _ rfl
  exact absurd lost (by decide)

end TheNews.Service.TextAttribution
