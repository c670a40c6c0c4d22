/- TheNews/News/MarkedText
   digest: Of a description in HTML, where every '<' opens a tag and every '&' a
   reference, the article screen shows the text and nothing of the markup. -/

import TheNews.News.NewsViewController

set_option autoImplicit false
set_option relaxedAutoImplicit false

namespace TheNews.News.MarkedText

open TheNews.Text Deletion
open NewsViewController (removeHTMLTags)

/-- A part of a text in HTML. -/
inductive Piece where
  | text (characters : List Char) (plain : '<' ∉ characters ∧ '&' ∉ characters)
  /-- A tag, a comment or a declaration. -/
  | tag (body : List Char) (nonempty : body ≠ []) (inner : '>' ∉ body)
  | reference (name : List Char) (nonempty : name ≠ []) (inner : ';' ∉ name ∧ '<' ∉ name)

namespace Piece

def written : Piece → List Char
  | text characters _ => characters
  | tag body _ _ => '<' :: (body ++ ['>'])
  | reference name _ _ => '&' :: (name ++ [';'])

def shown : Piece → List Char
  | text characters _ => characters
  | tag _ _ _ | reference _ _ _ => []

private def untagged : Piece → List Char
  | tag _ _ _ => []
  | piece => piece.written

end Piece

private theorem deleteMatches_written (pieces : List Piece) (rest : List Char) :
    deleteMatches tagPattern (pieces.flatMap Piece.written ++ rest) =
      pieces.flatMap Piece.untagged ++ deleteMatches tagPattern rest := by
  induction pieces with
  | nil => rfl
  | cons piece pieces ih =>
    rw [List.flatMap_cons, List.flatMap_cons, List.append_assoc, List.append_assoc, ← ih]
    cases piece with
    | text characters plain => exact deleteMatches_append_of_notMem plain.1 _
    | tag body nonempty inner =>
      rw [Piece.written, List.cons_append, List.append_assoc]
      exact deleteMatches_delimited_append nonempty inner _
    | reference name nonempty inner =>
      refine deleteMatches_append_of_notMem ?_ _
      simp [Piece.written, inner.2]

private theorem deleteMatches_untagged (pieces : List Piece) (rest : List Char) :
    deleteMatches entityPattern (pieces.flatMap Piece.untagged ++ rest) =
      pieces.flatMap Piece.shown ++ deleteMatches entityPattern rest := by
  induction pieces with
  | nil => rfl
  | cons piece pieces ih =>
    rw [List.flatMap_cons, List.flatMap_cons, List.append_assoc, List.append_assoc, ← ih]
    cases piece with
    | text characters plain => exact deleteMatches_append_of_notMem plain.2 _
    | tag body nonempty inner => rfl
    | reference name nonempty inner =>
      rw [show (Piece.reference name nonempty inner).untagged = '&' :: (name ++ [';']) from rfl,
        List.cons_append, List.append_assoc]
      exact deleteMatches_delimited_append nonempty inner.1 _

/-- Of HTML in front of any text exactly the markup is removed, and the text behind it
as if it stood alone. -/
theorem removeHTMLTags_written (pieces : List Piece) (s : String) :
    removeHTMLTags (String.ofList (pieces.flatMap Piece.written) ++ s) =
      String.ofList (pieces.flatMap Piece.shown) ++ removeHTMLTags s := by
  rw [← String.toList_inj, removeHTMLTags, removeHTMLTags]
  simp only [replacingOccurrences, String.toList_append, String.toList_ofList]
  rw [deleteMatches_written, deleteMatches_untagged]

/-- A paragraph with an attribute that has a reference, and a reference in its text. -/
example : removeHTMLTags "<p title=\"a&quot;b\">5 > 4; да&nbsp;</p>" = "5 > 4; да" :=
  rfl

end TheNews.News.MarkedText
