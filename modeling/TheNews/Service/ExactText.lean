/- TheNews/Service/ExactText
   digest: A document is delivered to the letter, each field the text of its element
   without the white space around it, exactly when no space between two words ends
   a foundCharacters call. -/

import TheNews.Service.ChunkInvariance
import TheNews.Service.RssDocument

set_option autoImplicit false
set_option relaxedAutoImplicit false

namespace TheNews.Service.ExactText

open TheNews.Text.Trimming TheNews.Text.ChunkEnds
open NewsParse FieldReader RssDocument ChunkInvariance

/-- The item of an item element, to the letter. -/
def ownItem (content : Content) : NewsItem :=
  toItem fun k => trimmingCharacters whitespacesAndNewlines (content.childText k)

/-- In no field a white space character between two words is followed by nothing but
white space in its own call: each is cut like the whole text in one call. -/
def KeepsSpaces (events : List SaxEvent) : Prop :=
  ∀ f ∈ fieldCalls events, ∀ k,
    SameEnds whitespacesAndNewlines (characters (f k)) [(characters (f k)).flatten]

instance (events : List SaxEvent) : Decidable (KeepsSpaces events) :=
  inferInstanceAs (Decidable (∀ _ ∈ _, _))

private theorem calls_framed {c : Content} (document : c.isDocument = true)
    {events : List SaxEvent} (reported : SameText c.events events) :
    List.Forall₂ (fun f => HoldsTexts fun k => (f k).foldl joined.append joined.empty)
      (fieldCalls events) c.itemContents := by
  have holds := holdsTexts_of_document document reported
  rw [(calls_carry joined).emitted, List.forall₂_map_left_iff] at holds
  exact holds

private theorem collected_eq_iff {text : String} {strings : List String}
    (frame : Framed whitespacesAndNewlines text.toList
      (strings.foldl joined.append joined.empty).toList) :
    collected strings = trimmingCharacters whitespacesAndNewlines text ↔
      SameEnds whitespacesAndNewlines (characters strings) [(characters strings).flatten] := by
  have whole : accumulate whitespacesAndNewlines [(characters strings).flatten] =
      trim whitespacesAndNewlines text.toList := by
    rw [← frame.trim_eq, joined_toList, accumulate, List.foldl_cons, List.foldl_nil,
      List.nil_append]
  have joins : (characters strings).flatten = [(characters strings).flatten].flatten := by simp
  rw [← accumulate_eq_iff joins, whole, ← collected_toList, ← String.toList_inj,
    trimmingCharacters, String.toList_ofList]

/-- However a document's text is split, the items are those of its item elements to the
letter exactly when no white space between two words of a field ends its call. -/
theorem items_eq_ownItem_iff {c : Content} (document : c.isDocument = true)
    {events : List SaxEvent} (reported : SameText c.events events) :
    items events = c.itemContents.map ownItem ↔ KeepsSpaces events := by
  have frames := calls_framed document reported
  have each : List.Forall₂ (fun f i => toItem (fun k => collected (f k)) = ownItem i)
        (fieldCalls events) c.itemContents ↔
      List.Forall₂ (fun f i => (∀ k,
          SameEnds whitespacesAndNewlines (characters (f k)) [(characters (f k)).flatten]) ∧
          HoldsTexts (fun k => (f k).foldl joined.append joined.empty) i)
        (fieldCalls events) c.itemContents := by
    refine iff_of_forall₂ frames fun f i frame => ?_
    rw [ownItem, toItem_injective.eq_iff, funext_iff, and_iff_left frame]
    exact forall_congr' fun k => collected_eq_iff (frame k)
  rw [items_eq_calls, ← List.forall₂_eq_eq_eq, List.forall₂_map_left_iff,
    List.forall₂_map_right_iff, each, List.forall₂_and_left, and_iff_left frames, KeepsSpaces]

theorem items_eq_ownItem_iff_split :
    items [.didStartElement "item", .didStartElement "title", .foundCharacters " Banki news\n",
        .didEndElement "title", .didEndElement "item", .didStartElement "item",
        .didStartElement "title", .foundCharacters "A", .foundCharacters " & B",
        .didEndElement "title", .foundCharacters "\n", .didEndElement "item"] =
      [{ title := "Banki news", description := "", pudDate := "" },
        { title := "A & B", description := "", pudDate := "" }] := by
  let channel : Content :=
    .element "item" (.element "title" (.text " Banki news\n" .nil) .nil)
      (.element "item" (.element "title" (.text "A & B" .nil) (.text "\n" .nil)) .nil)
  have document : channel.isDocument = true := by decide
  exact (items_eq_ownItem_iff document (by decide)).mpr (by decide)

end TheNews.Service.ExactText
