/- TheNews/News/MarkupRemoval
   digest: What is left of a description is free of both patterns, and a
   description is left alone exactly when its delimiters are all unclosed. -/

import TheNews.News.NewsViewController

set_option autoImplicit false
set_option relaxedAutoImplicit false

namespace TheNews.News.MarkupRemoval

open TheNews.Extensions TheNews.Text Deletion
open TheNews.NewsFeed (NewsModel)
open NewsViewController (removeHTMLTags viewDidLoad)

/-- Every '<' is followed by '>' at once or never, and every '&' by ';'. -/
def Unmarked (s : String) : Prop := Bare '<' '>' s.toList ∧ Bare '&' ';' s.toList

/-- No part of the string matches either pattern. -/
def MarkupGone (s : String) : Prop := Free tagPattern s.toList ∧ Free entityPattern s.toList

private theorem toList_removeHTMLTags (s : String) :
    (removeHTMLTags s).toList =
      deleteMatches entityPattern (deleteMatches tagPattern s.toList) := by
  simp [removeHTMLTags, replacingOccurrences]

theorem markupGone_iff (s : String) : MarkupGone s ↔ Unmarked s :=
  and_congr free_delimited_iff free_delimited_iff

/-- The second pass brings no '<' and '>' together, because '>' does not open an
entity. -/
theorem unmarked_removeHTMLTags (s : String) : Unmarked (removeHTMLTags s) := by
  rw [Unmarked, toList_removeHTMLTags]
  have first : Bare '<' '>' (deleteMatches tagPattern s.toList) :=
    bare_deleteMatches_self (by decide) s.toList
  exact ⟨bare_deleteMatches (by decide) first, bare_deleteMatches_self (by decide) _⟩

private theorem removeHTMLTags_of_unmarked {s : String} (unmarked : Unmarked s) :
    removeHTMLTags s = s := by
  rw [← String.toList_inj, toList_removeHTMLTags, tagPattern,
    deleteMatches_delimited_eq_self_iff.mpr unmarked.1, entityPattern,
    deleteMatches_delimited_eq_self_iff.mpr unmarked.2]

/-- Nothing in the result matches a pattern, so removing the tags again changes
nothing. -/
theorem markupGone_removeHTMLTags (s : String) :
    MarkupGone (removeHTMLTags s) ∧ removeHTMLTags (removeHTMLTags s) = removeHTMLTags s :=
  ⟨(markupGone_iff _).mpr (unmarked_removeHTMLTags s),
    removeHTMLTags_of_unmarked (unmarked_removeHTMLTags s)⟩

theorem markupGone_shown {foundation : Foundation} {newsItem : Option NewsModel}
    {newsView : NewsView} (shown : viewDidLoad foundation newsItem = some newsView) :
    MarkupGone newsView.descText := by
  cases newsItem with
  | none => cases shown
  | some news =>
    obtain rfl := Option.some.inj shown
    exact (markupGone_iff _).mpr (unmarked_removeHTMLTags news.desc)

/-- Exactly the strings whose delimiters are unclosed are kept in full. -/
theorem removeHTMLTags_eq_self_iff (s : String) : removeHTMLTags s = s ↔ Unmarked s := by
  constructor
  · intro same
    rw [← same]
    exact unmarked_removeHTMLTags s
  · exact removeHTMLTags_of_unmarked

/-! Markup of HTML -/

/-- '<' before a letter or one of '/', '!' and '?', with a '>' behind. -/
def startsTag : List Char → Bool
  | '<' :: c :: rest => (c.isAlpha || c == '/' || c == '!' || c == '?') && rest.contains '>'
  | _ => false

/-- '&', perhaps '#', letters and digits, ';'. -/
def startsReference : List Char → Bool
  | '&' :: '#' :: rest => named rest
  | '&' :: rest => named rest
  | _ => false
where
  named (rest : List Char) : Bool :=
    rest.head?.any Char.isAlphanum && (rest.dropWhile Char.isAlphanum).head? == some ';'

/-- No tag, comment or declaration and no character reference starts anywhere. -/
def MarkupFree (s : String) : Prop :=
  ∀ rest ∈ s.toList.tails, startsTag rest = false ∧ startsReference rest = false

instance (s : String) : Decidable (MarkupFree s) :=
  inferInstanceAs (Decidable (∀ rest ∈ s.toList.tails, _))

theorem not_kept : ¬ ∀ s, MarkupFree s → removeHTMLTags s = s := by
  intro kept
  -- What stands between '<' and '>' is taken for a tag.
  have same := kept "5 < 7 and 9 > 8" (by decide)
  exact absurd same (by decide)

end TheNews.News.MarkupRemoval
