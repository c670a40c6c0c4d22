/- TheNews/Service/RssDocument
   digest: Every item element of an RSS document becomes one delivered item that
   holds the words of its own title, description and pubDate and nothing else. -/

import TheNews.Service.FieldReader
import Mathlib.Data.List.Forall2

set_option autoImplicit false
set_option relaxedAutoImplicit false

namespace TheNews.Service.RssDocument

open TheNews.Text.Trimming
open NewsParse FieldReader

/-- What an element or a document contains, in document order: texts, and
elements with their own content. -/
inductive Content where
  | nil
  | text (string : String) (rest : Content)
  | element (name : String) (children rest : Content)
  deriving DecidableEq, Repr

/-- White space in the sense of XML. -/
def xmlSpace (c : Char) : Bool := c == ' ' || c == '\t' || c == '\n' || c == '\r'

namespace Content

/-- One call for every text; a parser may split each of them further. -/
def events : Content → List SaxEvent
  | .nil => []
  | .text s rest => .foundCharacters s :: rest.events
  | .element name children rest =>
      .didStartElement name :: (children.events ++ .didEndElement name :: rest.events)

def textOnly : Content → Bool
  | .nil => true
  | .text _ rest => rest.textOnly
  | .element _ _ _ => false

def plainText : Content → String
  | .nil => ""
  | .text s rest => s ++ rest.plainText
  | .element _ _ rest => rest.plainText

/-- No element in here, at any depth, is an item or has the name of a field. -/
def foreign : Content → Bool
  | .nil => true
  | .text _ rest => rest.foreign
  | .element name children rest => name != "item" && (Field.ofElement name).isNone &&
      children.foreign && rest.foreign

/-- How many child elements have this name. -/
def occurrences (name : String) : Content → Nat
  | .nil => 0
  | .text _ rest => rest.occurrences name
  | .element name' _ rest => (if name' = name then 1 else 0) + rest.occurrences name

def itemChildren : Content → Bool
  | .nil => true
  | .text s rest => s.toList.all xmlSpace && rest.itemChildren
  | .element name children rest =>
      (if (Field.ofElement name).isSome then children.textOnly
        else name != "item" && children.foreign) && rest.itemChildren

/-- The content of an item: in any order, at most one text-only child for each
field and any other subtrees that are foreign, with white space between them. -/
def isItem (c : Content) : Bool :=
  c.itemChildren && decide (∀ k : Field, c.occurrences k.element ≤ 1)

/-- Every item element in here has the content of an item. Outside the items
there may be any elements and any text. -/
def isDocument : Content → Bool
  | .nil => true
  | .text _ rest => rest.isDocument
  | .element name children rest =>
      (if name = "item" then children.isItem else children.isDocument) && rest.isDocument

/-- The contents of the item elements, in document order. -/
def itemContents : Content → List Content
  | .nil => []
  | .text _ rest => rest.itemContents
  | .element name children rest =>
      (if name = "item" then [children] else children.itemContents) ++ rest.itemContents

/-- The text of the child a field is read from, empty when there is none. -/
def childText (k : Field) : Content → String
  | .nil => ""
  | .text _ rest => rest.childText k
  | .element name children rest =>
      if name = k.element then children.plainText else rest.childText k

end Content

/-- The non-whitespace characters, in order. -/
def words (s : String) : List Char := solid whitespacesAndNewlines s.toList

@[simp] theorem words_empty : words "" = [] := rfl

private theorem whitespace_of_xmlSpace {s : String} (space : s.toList.all xmlSpace = true) :
    ∀ c ∈ s.toList, whitespacesAndNewlines c = true := by
  intro c member
  have isSpace := List.all_eq_true.mp space c member
  simp only [xmlSpace, Bool.or_eq_true, beq_iff_eq] at isSpace
  rcases isSpace with ((rfl | rfl) | rfl) | rfl <;> decide

theorem childText_eq_empty {k : Field} {c : Content} (none : c.occurrences k.element = 0) :
    c.childText k = "" := by
  induction c with
  | nil => rfl
  | text s rest ih => exact ih none
  | element name children rest _ ih =>
    simp only [Content.occurrences] at none
    split at none
    · omega
    · rename_i other
      simpa [Content.childText, other] using ih (by omega)

universe u

theorem run_foreign {φ : Type u} (acc : Accumulator φ) {c : Content}
    (foreign : c.foreign = true) (r : Reader φ) (closed : Field.ofElement r.element = none) :
    ∃ e, Field.ofElement e = none ∧ r.run acc c.events = { r with element := e } := by
  induction c generalizing r with
  | nil => exact ⟨r.element, closed, rfl⟩
  | text s rest ih =>
    have ignored : r.step acc (.foundCharacters s) = r := by simp [Reader.step, closed]
    obtain ⟨e, h, run⟩ := ih foreign r closed
    exact ⟨e, h, by rw [Content.events, Reader.run_cons, ignored, run]⟩
  | element name children rest ihc ih =>
    simp only [Content.foreign, Bool.and_eq_true, bne_iff_ne, ne_eq, Option.isNone_iff_eq_none]
      at foreign
    obtain ⟨⟨⟨not_item, unread⟩, inside⟩, behind⟩ := foreign
    obtain ⟨e, he, run⟩ := ihc inside { r with element := name } unread
    obtain ⟨e', he', run'⟩ := ih behind { r with element := e } he
    refine ⟨e', he', ?_⟩
    have opened : r.step acc (.didStartElement name) = { r with element := name } := by
      simp [Reader.step, not_item]
    have ended : Reader.step acc { r with element := e } (.didEndElement name) =
        { r with element := e } := by
      simp [Reader.step, not_item]
    rw [Content.events, Reader.run_cons, opened, Reader.run_append, run, Reader.run_cons, ended,
      run']

private theorem run_textOnly {c : Content} (only : c.textOnly = true) (k : Field)
    (r : Reader String) (owner : r.element = k.element) :
    r.run joined c.events =
      { r with fields := Function.update r.fields k (r.fields k ++ c.plainText) } := by
  induction c generalizing r with
  | nil => simp [Content.events, Content.plainText]
  | text s rest ih =>
    let longer : Reader String :=
      { r with fields := Function.update r.fields k (r.fields k ++ s) }
    have taken : r.step joined (.foundCharacters s) = longer := by
      simp [Reader.step, owner, joined, longer]
    rw [Content.events, Reader.run_cons, taken, ih only longer owner]
    simp [Content.plainText, longer, String.append_assoc]
  | element name children rest => simp [Content.textOnly] at only

private theorem run_field {children rest : Content} (only : children.textOnly = true) (k : Field)
    (r : Reader String) :
    r.run joined (Content.element k.element children rest).events =
      Reader.run joined { r with
        element := k.element
        fields := Function.update r.fields k (r.fields k ++ children.plainText) } rest.events := by
  have not_item := Field.element_ne_item k
  let opened : Reader String := { r with element := k.element }
  let filled : Reader String :=
    { opened with fields := Function.update r.fields k (r.fields k ++ children.plainText) }
  have start : r.step joined (.didStartElement k.element) = opened := by
    simp [Reader.step, not_item, opened]
  have inside : opened.run joined children.events = filled := run_textOnly only k opened rfl
  have ended : filled.step joined (.didEndElement k.element) = filled := by
    simp [Reader.step, not_item]
  rw [Content.events, Reader.run_cons, start, Reader.run_append, inside, Reader.run_cons, ended]

private theorem run_unread {name : String} {children rest : Content} (not_item : name ≠ "item")
    (unread : Field.ofElement name = none) (foreign : children.foreign = true)
    (r : Reader String) :
    ∃ e, r.run joined (Content.element name children rest).events =
      Reader.run joined { r with element := e } rest.events := by
  have start : r.step joined (.didStartElement name) = { r with element := name } := by
    simp [Reader.step, not_item]
  obtain ⟨e, -, inside⟩ := run_foreign joined foreign { r with element := name } unread
  have ended : Reader.step joined { r with element := e } (.didEndElement name) =
      { r with element := e } := by
    simp [Reader.step, not_item]
  refine ⟨e, ?_⟩
  rw [Content.events, Reader.run_cons, start, Reader.run_append, inside, Reader.run_cons, ended]

/-- Each field holds the text of its own child of the item, in a frame of white space. -/
def HoldsTexts (fields : Field → String) (content : Content) : Prop :=
  ∀ k, Framed whitespacesAndNewlines (content.childText k).toList (fields k).toList

private theorem update_append (fields added : Field → String) (k : Field) (text : String) :
    (fun j => Function.update fields k (fields k ++ text) j ++ added j) =
      fun j => fields j ++ Function.update added k (text ++ added k) j := by
  funext j
  by_cases same : j = k
  · subst same
    simp [String.append_assoc]
  · simp [Function.update_of_ne same]

private theorem run_itemChildren {c : Content} (shape : c.itemChildren = true)
    (single : ∀ k : Field, c.occurrences k.element ≤ 1) (r : Reader String) :
    ∃ e added, r.run joined c.events = ⟨r.emitted, e, fun k => r.fields k ++ added k⟩ ∧
      HoldsTexts added c := by
  induction c generalizing r with
  | nil => exact ⟨r.element, fun _ => "", by simp [Content.events], fun _ => .refl _⟩
  | text s rest ih =>
    simp only [Content.itemChildren, Bool.and_eq_true] at shape
    have blank := whitespace_of_xmlSpace shape.1
    cases owner : Field.ofElement r.element with
    | none =>
      have ignored : r.step joined (.foundCharacters s) = r := by simp [Reader.step, owner]
      obtain ⟨e, added, run, holds⟩ := ih shape.2 single r
      exact ⟨e, added, by rw [Content.events, Reader.run_cons, ignored, run], holds⟩
    | some k =>
      let longer : Reader String :=
        { r with fields := Function.update r.fields k (r.fields k ++ s) }
      have taken : r.step joined (.foundCharacters s) = longer := by
        simp [Reader.step, owner, joined, longer]
      obtain ⟨e, added, run, holds⟩ := ih shape.2 single longer
      refine ⟨e, Function.update added k (s ++ added k), ?_, fun j => ?_⟩
      · rw [Content.events, Reader.run_cons, taken, run, update_append]
      · by_cases here : j = k
        · subst here
          rw [Function.update_self, String.toList_append]
          exact (holds j).behind blank
        · rw [Function.update_of_ne here]
          exact holds j
  | element name children rest _ ih =>
    simp only [Content.itemChildren, Bool.and_eq_true] at shape
    obtain ⟨child, behind⟩ := shape
    have others (k : Field) : rest.occurrences k.element ≤ 1 := by
      have all := single k
      simp only [Content.occurrences] at all
      omega
    cases read : Field.ofElement name with
    | some k =>
      obtain rfl := Field.ofElement_eq_some.mp read
      have only : children.textOnly = true := by simpa [read] using child
      have gone : rest.occurrences k.element = 0 := by
        have all := single k
        simp only [Content.occurrences, if_pos] at all
        omega
      obtain ⟨e, added, run, holds⟩ := ih behind others { r with
        element := k.element
        fields := Function.update r.fields k (r.fields k ++ children.plainText) }
      refine ⟨e, Function.update added k (children.plainText ++ added k), ?_, fun j => ?_⟩
      · rw [run_field only, run, update_append]
      · by_cases here : j = k
        · subst here
          have frame := holds j
          rw [childText_eq_empty gone] at frame
          rw [Function.update_self, String.toList_append, Content.childText, if_pos rfl]
          exact frame.before _
        · have other : k.element ≠ j.element := fun equal =>
            here (Field.element_injective equal.symm)
          rw [Function.update_of_ne here, Content.childText, if_neg other]
          exact holds j
    | none =>
      have shape : name ≠ "item" ∧ children.foreign = true := by simpa [read] using child
      obtain ⟨not_item, foreign⟩ := shape
      obtain ⟨e, passed⟩ := run_unread not_item read foreign r
      obtain ⟨e', added, run, holds⟩ := ih behind others { r with element := e }
      refine ⟨e', added, passed.trans run, fun j => ?_⟩
      have other : name ≠ j.element := by
        rintro rfl
        simp at read
      rw [Content.childText, if_neg other]
      exact holds j

private theorem run_document {c : Content} (document : c.isDocument = true) (r : Reader String) :
    ∃ e fields read, r.run joined c.events = ⟨r.emitted ++ read, e, fields⟩ ∧
      List.Forall₂ HoldsTexts read c.itemContents := by
  induction c generalizing r with
  | nil => exact ⟨r.element, r.fields, [], by simp [Content.events], .nil⟩
  | text s rest ih =>
    obtain ⟨e, fields, read, run, holds⟩ := ih document (r.step joined (.foundCharacters s))
    rw [Reader.step_foundCharacters_emitted] at run
    exact ⟨e, fields, read, by rw [Content.events, Reader.run_cons, run], holds⟩
  | element name children rest ihc ih =>
    simp only [Content.isDocument, Bool.and_eq_true] at document
    obtain ⟨inside, behind⟩ := document
    by_cases item : name = "item"
    · subst item
      have shape : children.isItem = true := by simpa using inside
      simp only [Content.isItem, Bool.and_eq_true, decide_eq_true_eq] at shape
      let cleared : Reader String := ⟨r.emitted, "item", fun _ => ""⟩
      have start : r.step joined (.didStartElement "item") = cleared := rfl
      -- Whatever was read before the item is cleared, so only its own texts are emitted.
      obtain ⟨e, own, run, holds⟩ := run_itemChildren shape.1 shape.2 cleared
      have inside : cleared.run joined children.events = ⟨r.emitted, e, own⟩ := by
        rw [run]
        simp [cleared]
      have ended : Reader.step joined ⟨r.emitted, e, own⟩ (.didEndElement "item") =
          ⟨r.emitted ++ [own], e, own⟩ := rfl
      obtain ⟨e', fields, read, run', behind⟩ := ih behind ⟨r.emitted ++ [own], e, own⟩
      refine ⟨e', fields, own :: read, ?_, .cons holds behind⟩
      rw [Content.events, Reader.run_cons, start, Reader.run_append, inside, Reader.run_cons,
        ended, run', List.append_assoc, List.singleton_append]
    · have nested : children.isDocument = true := by simpa [item] using inside
      have start : r.step joined (.didStartElement name) = { r with element := name } := by
        simp [Reader.step, item]
      obtain ⟨e, fields, read, run, holds⟩ := ihc nested { r with element := name }
      let middle : Reader String := ⟨r.emitted ++ read, e, fields⟩
      have inside : Reader.run joined { r with element := name } children.events = middle := run
      have ended : middle.step joined (.didEndElement name) = middle := by
        simp [Reader.step, item]
      obtain ⟨e', fields', read', run', holds'⟩ := ih behind middle
      refine ⟨e', fields', read ++ read', ?_, ?_⟩
      · rw [Content.events, Reader.run_cons, start, Reader.run_append, inside, Reader.run_cons,
          ended, run', ← List.append_assoc]
      · rw [Content.itemContents, if_neg item]
        exact List.rel_append holds holds'

theorem holdsTexts_of_document {c : Content} (document : c.isDocument = true)
    {events : List SaxEvent} (reported : SameText c.events events) :
    List.Forall₂ HoldsTexts ((Reader.start joined).run joined events).emitted c.itemContents := by
  obtain ⟨e, fields, read, run, holds⟩ := run_document document (Reader.start joined)
  rw [← joined_additive.run_congr _ reported, run]
  exact holds

/-- The item has no white space at either end of a field, and in each field the
words of its own child, in order; without such a child the field is empty. -/
def HoldsOwnText (item : NewsItem) (content : Content) : Prop :=
  ∀ k, Trimmed whitespacesAndNewlines (itemField item k).toList ∧
    words (itemField item k) = words (content.childText k) ∧
    (content.occurrences k.element = 0 → itemField item k = "")

private theorem items_words (events : List SaxEvent) :
    (items events).map (fun item k => words (itemField item k)) =
      ((Reader.start joined).run joined events).emitted.map (fun fields k => words (fields k)) := by
  have same := solid_carry.emitted events
  rw [joined_carry.emitted] at same
  rw [items_eq, List.map_map]
  simp only [Function.comp_def, itemField_toItem]
  exact same.symm

private theorem words_of_document {c : Content} (document : c.isDocument = true)
    {events : List SaxEvent} (reported : SameText c.events events) :
    List.Forall₂ (fun item content => ∀ k, words (itemField item k) = words (content.childText k))
      (items events) c.itemContents := by
  have read : List.Forall₂ (fun own content => ∀ k, own k = words (content.childText k))
      (((Reader.start joined).run joined events).emitted.map fun fields k => words (fields k))
      c.itemContents :=
    List.forall₂_map_left_iff.mpr
      ((holdsTexts_of_document document reported).imp fun _ _ holds k => (holds k).solid_eq)
  rw [← items_words, List.forall₂_map_left_iff] at read
  exact read

/-- However the parser splits the text of a document, exactly one item is
delivered for each item element, in document order, with that element's text. -/
theorem items_of_document {c : Content} (document : c.isDocument = true)
    {events : List SaxEvent} (reported : SameText c.events events) :
    List.Forall₂ HoldsOwnText (items events) c.itemContents := by
  have trimmed : ∀ item ∈ items events, ∀ k,
      Trimmed whitespacesAndNewlines (itemField item k).toList :=
    fun item member k => items_trimmed member k
  refine ((List.forall₂_and_left _ _).mpr ⟨trimmed, words_of_document document reported⟩).imp ?_
  rintro item content ⟨ends, same⟩ k
  refine ⟨ends k, same k, ?_⟩
  intro none
  have blank : words (itemField item k) = [] := by
    rw [same k, childText_eq_empty none, words_empty]
  exact String.toList_inj.mp (eq_nil_of_trimmed (ends k) blank)

private def sampleFeed : Content :=
  .element "rss" (.element "channel"
    (.text "\n" (.element "title" (.text "Banki.ru" .nil)
      (.element "item"
        (.text "\n " (.element "description" (.text "a & b" .nil)
          (.element "guid" (.text "1" .nil) (.element "title" (.text " News " .nil)
            (.text "\n" .nil)))))
        (.element "item"
          (.element "title" (.text "Rates" .nil) (.element "pubDate" (.text "Wed" .nil) .nil))
          .nil)))) .nil) .nil

theorem items_of_document_sampleFeed :
    List.Forall₂ HoldsOwnText
      (items [.didStartElement "rss", .didStartElement "channel", .foundCharacters "\n",
        .didStartElement "title", .foundCharacters "Banki", .foundCharacters ".ru",
        .didEndElement "title", .didStartElement "item", .foundCharacters "\n ",
        .didStartElement "description", .foundCharacters "a ", .foundCharacters "&",
        .foundCharacters " b", .didEndElement "description", .didStartElement "guid",
        .foundCharacters "1", .didEndElement "guid", .didStartElement "title",
        .foundCharacters " News ", .didEndElement "title", .foundCharacters "\n",
        .didEndElement "item", .didStartElement "item", .didStartElement "title",
        .foundCharacters "Ra", .foundCharacters "tes", .didEndElement "title",
        .didStartElement "pubDate", .foundCharacters "Wed", .didEndElement "pubDate",
        .didEndElement "item", .didEndElement "channel", .didEndElement "rss"])
      sampleFeed.itemContents :=
  items_of_document (c := sampleFeed) (by decide) (by decide)

end TheNews.Service.RssDocument
