/- TheNews/Extensions/DateFormatter
   models: Extensions/DateFormatter.swift, Extensions/String.swift
   digest: What the feed screen asks of Foundation, and the date text made of it. -/

import Mathlib.Init

set_option autoImplicit false
set_option relaxedAutoImplicit false

namespace TheNews.Extensions

/-- The library calls whose answers the feed screen depends on. -/
structure Foundation where
  /-- The strings for which URL(string:) is not nil. -/
  url : String → Bool
  /-- `DateFormatter.dateFormatFromXML.date(from:)`, in seconds from a fixed instant. -/
  date : String → Option Int
  /-- `DateFormatter.dateFormatForView.string(from:)`. -/
  string : Int → String

def formattedDate (foundation : Foundation) (s : String) : String :=
  match foundation.date s with
  | none => ""
  | some date => foundation.string date

end TheNews.Extensions
