/- TheNews/News/NewsViewController
   models: News/NewsViewController.swift, News/NewsView.swift
   digest: The article screen: the texts it shows of a news item, the description
   without what its two patterns take for markup. -/

import TheNews.NewsFeed.NewsFeedViewController
import TheNews.Text.Deletion

set_option autoImplicit false
set_option relaxedAutoImplicit false

namespace TheNews.News

open TheNews.Extensions TheNews.Text Deletion
open TheNews.NewsFeed (NewsModel)

structure NewsView where
  titleText : String := ""
  dateText : String := ""
  descText : String := ""
  deriving DecidableEq, Repr

/-- <[^>]+> -/
def tagPattern : Regex Char := delimited '<' '>'

/-- &[^;]+; -/
def entityPattern : Regex Char := delimited '&' ';'

/-- `replacingOccurrences(of:with:options:range:)` for a regular expression and the
empty replacement. A place where one of the two patterns matches has only one
match, so that the greedy match is the longest one. -/
def replacingOccurrences (target : Regex Char) (s : String) : String :=
  String.ofList (deleteMatches target s.toList)

namespace NewsViewController

def removeHTMLTags (str : String) : String :=
  replacingOccurrences entityPattern (replacingOccurrences tagPattern str)

def updateInfo (foundation : Foundation) (newsView : NewsView) : Option NewsModel → NewsView
  | none => newsView
  | some news =>
      { titleText := news.title
        dateText := formattedDate foundation news.date
        descText := removeHTMLTags news.desc }

/-- `none` is the trap of `newsItem!`. -/
def viewDidLoad (foundation : Foundation) (newsItem : Option NewsModel) : Option NewsView := do
  let news ← newsItem
  return updateInfo foundation {} (some news)

end NewsViewController

end TheNews.News
