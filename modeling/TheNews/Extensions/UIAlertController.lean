/- TheNews/Extensions/UIAlertController
   models: Extensions/UIAlertController.swift
   digest: The checks on the two text fields of the add alert, which decide whether
   its Save action is enabled. -/

import TheNews.Service.NewsParse
import TheNews.Text.Separated

set_option autoImplicit false
set_option relaxedAutoImplicit false

namespace TheNews.Extensions

open TheNews.Text Regex Separated
open TheNews.Service.NewsParse (whitespacesAndNewlines)

/-- [:space:] is the property White_Space, the same characters as
CharacterSet.whitespacesAndNewlines. -/
def space (c : Char) : Bool := whitespacesAndNewlines c

def digit (c : Char) : Bool := '0' ≤ c && c ≤ '9'

/-- The dot does not match a line terminator. -/
def anyCharacter (c : Char) : Bool :=
  let n := c.toNat
  !((10 ≤ n && n ≤ 13) || n == 0x85 || n == 0x2028 || n == 0x2029)

/-- A bracket expression [^...[:space:]]. -/
def noneOf (excluded : List Char) (c : Char) : Bool := !excluded.contains c && !space c

/-- [^/:.[:space:]] -/
def labelCharacter (c : Char) : Bool := noneOf ['/', ':', '.'] c

/-- [0-9](.[0-9]{3}) -/
def address : Regex Char :=
  seq (one digit) (seq (one anyCharacter) (seq (one digit) (seq (one digit) (one digit))))

/-- :[0-9]+ -/
def portPattern : Regex Char := seq (one (· == ':')) (plus (one digit))

/-- (/[^?#[:space:]]+)([^#[:space:]]+)?(#.+)? -/
def behindPort : Regex Char :=
  seq (seq (one (· == '/')) (plus (one (noneOf ['?', '#']))))
    (seq (opt (plus (one (noneOf ['#'])))) (opt (seq (one (· == '#')) (plus (one anyCharacter)))))

/-- The labels are [^/:.[:space:]]+(.[^/:.[:space:]]+)*. -/
def behindScheme : Regex Char :=
  seq (alt (labels labelCharacter anyCharacter) address) (seq (opt portPattern) (opt behindPort))

/-- http[s]?://(([^/:.[:space:]]+(.[^/:.[:space:]]+)*)|([0-9](.[0-9]{3})))(:[0-9]+)?
((/[^?#[:space:]]+)([^#[:space:]]+)?(#.+)?)? -/
def urlPattern : Regex Char :=
  seq (word "http".toList) (seq (opt (one (· == 's'))) (seq (word "://".toList) behindScheme))

-- String.count counts grapheme clusters; their segmentation is left open.
variable (count : String → Nat)

/-- What the documentation of String.count promises: only the empty string has
no cluster, and an ASCII character is one, save for CR before LF. -/
structure Graphemes : Prop where
  empty : ∀ s, count s = 0 ↔ s = ""
  ascii : ∀ s : String, (∀ c ∈ s.toList, c.toNat < 128 ∧ c ≠ '\r') → count s = s.toList.length

theorem graphemes_length : Graphemes String.length :=
  ⟨fun s => by simp, fun s _ => rfl⟩

def isValidTitle (title : String) : Bool :=
  3 < count title && !title.toList.any whitespacesAndNewlines

def isValidURL (url : String) : Bool :=
  0 < count url && urlPattern.accepts url.toList

/-- An alert with the two text fields and the actions of createAlert; its last
action is Save. -/
structure UIAlertController where
  titleText : String := ""
  urlText : String := ""
  saveIsEnabled : Bool
  isPresented : Bool
  deriving DecidableEq, Repr

def UIAlertController.textDidChangeAlert (alert : UIAlertController) : UIAlertController :=
  { alert with
    saveIsEnabled := isValidURL count alert.urlText && isValidTitle count alert.titleText }

end TheNews.Extensions
