/- TheNews/Service/ItemIsolation
   digest: What the parser reads from the start of an item on does not depend on
   what it read before, which it keeps as it is. -/

import TheNews.Service.NewsParse
import Mathlib.Data.List.Basic

set_option autoImplicit false
set_option relaxedAutoImplicit false

namespace TheNews.Service.ItemIsolation

open NewsParse

/-- The parser with more items collected earlier. -/
def after (old : List NewsItem) (p : NewsParser) : NewsParser :=
  { p with rssItems := old ++ p.rssItems }

private theorem foundCharacters_after (old : List NewsItem) (p : NewsParser) (string : String) :
    (after old p).foundCharacters string = after old (p.foundCharacters string) := by
  simp only [NewsParser.foundCharacters, after]
  split <;> rfl

private theorem didStartElement_after (old : List NewsItem) (p : NewsParser) (name : String) :
    (after old p).didStartElement name = after old (p.didStartElement name) := by
  simp only [NewsParser.didStartElement, after]
  split <;> rfl

private theorem didEndElement_after (old : List NewsItem) (p : NewsParser) (name : String) :
    (after old p).didEndElement name = after old (p.didEndElement name) := by
  simp only [NewsParser.didEndElement, after]
  split
  · simp
  · rfl

private theorem step_after (old : List NewsItem) (p : NewsParser) (event : SaxEvent) :
    (after old p).step event = after old (p.step event) := by
  cases event with
  | didStartElement name => exact didStartElement_after old p name
  | foundCharacters string => exact foundCharacters_after old p string
  | didEndElement name => exact didEndElement_after old p name

theorem run_after (old : List NewsItem) (p : NewsParser) (events : List SaxEvent) :
    (after old p).run events = after old (p.run events) := by
  induction events generalizing p with
  | nil => rfl
  | cons event events ih =>
    calc (after old p).run (event :: events) = ((after old p).step event).run events := rfl
      _ = (after old (p.step event)).run events := by rw [step_after]
      _ = after old ((p.step event).run events) := ih (p.step event)

theorem didStartElement_item (p : NewsParser) :
    p.didStartElement "item" = after p.rssItems (({} : NewsParser).didStartElement "item") := by
  simp [NewsParser.didStartElement, NewsParser.setCurrentTitle, NewsParser.setCurrentDescription,
    NewsParser.setCurrentPubDate, after]

theorem run_item (p : NewsParser) (rest : List SaxEvent) :
    (p.run (.didStartElement "item" :: rest)).rssItems =
      p.rssItems ++ items (.didStartElement "item" :: rest) := by
  have started : p.run (.didStartElement "item" :: rest) =
      (after p.rssItems (({} : NewsParser).didStartElement "item")).run rest := by
    rw [← didStartElement_item]
    rfl
  rw [started, run_after]
  rfl

/-- Whatever events come before an item, it and all after it are read as if
they came first. -/
theorem items_append_item (events rest : List SaxEvent) :
    items (events ++ .didStartElement "item" :: rest) =
      items events ++ items (.didStartElement "item" :: rest) := by
  have split : NewsParser.run {} (events ++ .didStartElement "item" :: rest) =
      (NewsParser.run {} events).run (.didStartElement "item" :: rest) := List.foldl_append
  rw [items, NewsParser.parserDidEndDocument, split, run_item]
  rfl

end TheNews.Service.ItemIsolation
