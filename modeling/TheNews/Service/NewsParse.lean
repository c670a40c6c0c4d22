/- TheNews/Service/NewsParse
   models: Service/NewsParse.swift, Service/NewsItem.swift
   digest: The XMLParser callbacks of the RSS reader as a step function on its
   accumulators, and what its completion handler receives. -/

import TheNews.Text.Trimming

set_option autoImplicit false
set_option relaxedAutoImplicit false

namespace TheNews.Service.NewsParse

open TheNews.Text.Trimming (trim)

structure NewsItem where
  title : String
  description : String
  pudDate : String
  isReading : Bool := false
  deriving DecidableEq, Repr

/-- The delegate methods XMLParser calls while it reads a document. The
arguments the source ignores (namespace, qualified name, attributes) are left out. -/
inductive SaxEvent where
  | didStartElement (elementName : String)
  | foundCharacters (string : String)
  | didEndElement (elementName : String)
  deriving DecidableEq, Repr

/-- CharacterSet.whitespacesAndNewlines: general category Z, the tab, U+000A to
U+000D and U+0085. -/
def whitespacesAndNewlines (c : Char) : Bool :=
  let n := c.toNat
  (9 ≤ n && n ≤ 13) || n == 0x20 || n == 0x85 || n == 0xA0 || n == 0x1680 ||
    (0x2000 ≤ n && n ≤ 0x200A) || n == 0x2028 || n == 0x2029 || n == 0x202F ||
    n == 0x205F || n == 0x3000

def trimmingCharacters (set : Char → Bool) (s : String) : String :=
  String.ofList (trim set s.toList)

structure NewsParser where
  rssItems : List NewsItem := []
  currentElement : String := ""
  currentTitle : String := ""
  currentDescription : String := ""
  currentPubDate : String := ""
  deriving DecidableEq, Repr

namespace NewsParser

-- An assignment runs didSet, which stores the trimmed value; the store inside
-- didSet does not run it again.
def setCurrentTitle (p : NewsParser) (newValue : String) : NewsParser :=
  { p with currentTitle := trimmingCharacters whitespacesAndNewlines newValue }

def setCurrentDescription (p : NewsParser) (newValue : String) : NewsParser :=
  { p with currentDescription := trimmingCharacters whitespacesAndNewlines newValue }

def setCurrentPubDate (p : NewsParser) (newValue : String) : NewsParser :=
  { p with currentPubDate := trimmingCharacters whitespacesAndNewlines newValue }

def didStartElement (p : NewsParser) (elementName : String) : NewsParser :=
  let p := { p with currentElement := elementName }
  if p.currentElement = "item" then
    ((p.setCurrentTitle "").setCurrentDescription "").setCurrentPubDate ""
  else p

def foundCharacters (p : NewsParser) (string : String) : NewsParser :=
  match p.currentElement with
  | "title" => p.setCurrentTitle (p.currentTitle ++ string)
  | "description" => p.setCurrentDescription (p.currentDescription ++ string)
  | "pubDate" => p.setCurrentPubDate (p.currentPubDate ++ string)
  | _ => p

def didEndElement (p : NewsParser) (elementName : String) : NewsParser :=
  if elementName = "item" then
    let rssItem : NewsItem :=
      { title := p.currentTitle, description := p.currentDescription,
        pudDate := p.currentPubDate, isReading := false }
    { p with rssItems := p.rssItems ++ [rssItem] }
  else p

def step (p : NewsParser) : SaxEvent → NewsParser
  | .didStartElement name => p.didStartElement name
  | .foundCharacters string => p.foundCharacters string
  | .didEndElement name => p.didEndElement name

def run (p : NewsParser) (events : List SaxEvent) : NewsParser := events.foldl step p

/-- The array parserDidEndDocument passes to the completion handler. -/
def parserDidEndDocument (p : NewsParser) : List NewsItem := p.rssItems

end NewsParser

/-- What a fresh parser delivers for a document that is reported as `events`. -/
def items (events : List SaxEvent) : List NewsItem :=
  (NewsParser.run {} events).parserDidEndDocument

/-- The end of a data task: no data, or data that XMLParser reports as `events`
and then either ends or gives up on. -/
inductive Response where
  | noData
  | document (events : List SaxEvent)
  | malformed (events : List SaxEvent)
  deriving DecidableEq, Repr

/-- The array the completion handler of a load is called with, if it is called:
only parserDidEndDocument calls it. -/
def Response.delivered : Response → Option (List NewsItem)
  | .noData => none
  | .document events => some (items events)
  | .malformed _ => none

/-- A data task that has been resumed. -/
structure Load where
  url : String
  deriving DecidableEq, Repr

/-- `accepts` says for which strings URL(string:) is not nil; for the others
nothing is started and nothing is reported. -/
def parseFeed (accepts : String → Bool) (url : String) : Option Load :=
  if accepts url then some { url } else none

end TheNews.Service.NewsParse
