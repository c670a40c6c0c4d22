/- TheNews/Service/ChunkInvariance
   digest: When two ways of splitting the same character data deliver the same
   items: exactly when the same spaces between words end a foundCharacters call. -/

import TheNews.Service.FieldReader
import TheNews.Text.ChunkEnds
import Mathlib.Data.List.Forall2

set_option autoImplicit false
set_option relaxedAutoImplicit false

namespace TheNews.Service.ChunkInvariance

open TheNews.Text.Trimming TheNews.Text.ChunkEnds
open NewsParse FieldReader

/-- For every delivered item, the foundCharacters calls each field was read from. -/
def fieldCalls (events : List SaxEvent) : List (Field → List String) :=
  ((Reader.start calls).run calls events).emitted

def characters (strings : List String) : List (List Char) := strings.map String.toList

/-- In every field of every item, the same whitespace characters behind the
first word are followed by nothing but whitespace in their own call. -/
def SameCuts (events events' : List SaxEvent) : Prop :=
  List.Forall₂ (fun f f' => ∀ k,
      SameEnds whitespacesAndNewlines (characters (f k)) (characters (f' k)))
    (fieldCalls events) (fieldCalls events')

instance (events events' : List SaxEvent) : Decidable (SameCuts events events') :=
  inferInstanceAs (Decidable (List.Forall₂ _ _ _))

def collected (strings : List String) : String :=
  strings.foldl trimming.append trimming.empty

theorem collected_toList (strings : List String) :
    (collected strings).toList = accumulate whitespacesAndNewlines (characters strings) := by
  induction strings using List.reverseRecOn with
  | nil => rfl
  | append_singleton strings s ih =>
    have ih' : (strings.foldl trimming.append trimming.empty).toList = _ := ih
    simp only [collected, characters, accumulate, List.foldl_append, List.foldl_cons,
      List.foldl_nil, List.map_append, List.map_cons, List.map_nil] at ih' ⊢
    simp only [trimming, trimmingCharacters, String.toList_ofList, String.toList_append] at ih' ⊢
    rw [ih']

theorem joined_toList (strings : List String) :
    (strings.foldl joined.append joined.empty).toList = (characters strings).flatten := by
  induction strings using List.reverseRecOn with
  | nil => rfl
  | append_singleton strings s ih =>
    simp only [characters, joined, List.foldl_append, List.foldl_cons, List.foldl_nil,
      String.toList_append, List.map_append, List.flatten_append] at ih ⊢
    simp [ih]

theorem items_eq_calls (events : List SaxEvent) :
    items events = (fieldCalls events).map (fun f => toItem (fun k => collected (f k))) := by
  rw [items_eq, (calls_carry trimming).emitted, List.map_map]
  rfl

private theorem same_characters {events events' : List SaxEvent}
    (same : SameText events events') :
    List.Forall₂ (fun f f' => ∀ k, (characters (f k)).flatten = (characters (f' k)).flatten)
      (fieldCalls events) (fieldCalls events') := by
  have texts : (fieldCalls events).map (fun f k => (f k).foldl joined.append joined.empty) =
      (fieldCalls events').map (fun f k => (f k).foldl joined.append joined.empty) := by
    rw [fieldCalls, ← (calls_carry joined).emitted, joined_additive.run_congr _ same,
      (calls_carry joined).emitted]
    rfl
  rw [← List.forall₂_eq_eq_eq, List.forall₂_map_left_iff, List.forall₂_map_right_iff] at texts
  refine texts.imp ?_
  intro f f' equal k
  have text := congrFun equal k
  rw [← joined_toList, text, joined_toList]

private theorem same_item_iff {f f' : Field → List String}
    (same : ∀ k, (characters (f k)).flatten = (characters (f' k)).flatten) :
    toItem (fun k => collected (f k)) = toItem (fun k => collected (f' k)) ↔
      ∀ k, SameEnds whitespacesAndNewlines (characters (f k)) (characters (f' k)) := by
  have field (k : Field) : collected (f k) = collected (f' k) ↔
      SameEnds whitespacesAndNewlines (characters (f k)) (characters (f' k)) := by
    rw [← accumulate_eq_iff (same k), ← collected_toList, ← collected_toList, String.toList_inj]
  rw [toItem_injective.eq_iff, funext_iff]
  exact forall_congr' field

/-- Two sequences that differ only in the splitting of their text deliver the
same items exactly when they cut the spaces between words alike. -/
theorem items_eq_iff_sameCuts {events events' : List SaxEvent} (same : SameText events events') :
    items events = items events' ↔ SameCuts events events' := by
  rw [items_eq_calls, items_eq_calls, ← List.forall₂_eq_eq_eq, List.forall₂_map_left_iff,
    List.forall₂_map_right_iff]
  exact iff_of_forall₂ (same_characters same) (fun _ _ => same_item_iff)

private def titleIn (strings : List String) : List SaxEvent :=
  [.didStartElement "item", .didStartElement "title"] ++ strings.map .foundCharacters ++
    [.didEndElement "title", .didEndElement "item"]

theorem items_eq_iff_sameCuts_ampersand :
    items (titleIn ["A", " & B"]) = items (titleIn ["A & B"]) :=
  (items_eq_iff_sameCuts (by decide)).mpr (by decide)

theorem not_chunk_invariant :
    ¬ ∀ events events' : List SaxEvent, SameText events events' → items events = items events' := by
  intro invariant
  -- The first space ends its call.
  have equal := invariant (titleIn ["A ", "&", " B"]) (titleIn ["A & B"]) (by decide)
  exact absurd equal (by decide)

end TheNews.Service.ChunkInvariance
