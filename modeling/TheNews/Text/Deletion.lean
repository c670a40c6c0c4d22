/- TheNews/Text/Deletion
   digest: Deleting the matches of an expression in one scan from the left, and what
   the scan leaves of the text between two delimiters. -/

import TheNews.Text.Regex

set_option autoImplicit false
set_option relaxedAutoImplicit false

namespace TheNews.Text.Deletion

open Regex

universe u
variable {α : Type u}

/-- How far behind its first symbol the longest match at this place reaches. -/
def matchAt (target : Regex α) (x : α) (rest : List α) : Option Nat :=
  (List.range (rest.length + 1)).reverse.find? fun n => target.accepts (x :: rest.take n)

/-- The scan inside a match with so many symbols of it left, or at a place where
a match may start. -/
def scan (target : Regex α) : Nat → List α → List α
  | _, [] => []
  | left + 1, _ :: rest => scan target left rest
  | 0, x :: rest => match matchAt target x rest with
    | some n => scan target n rest
    | none => x :: scan target 0 rest

/-- Delete the leftmost longest matches that are not empty. -/
def deleteMatches (target : Regex α) (l : List α) : List α := scan target 0 l

/-- No part of the list is a match. -/
def Free (target : Regex α) (l : List α) : Prop := ∀ m, m <:+: l → m ∉ target.language

variable {target : Regex α} {x : α} {l rest : List α}

theorem matchAt_eq_none :
    matchAt target x rest = none ↔ ∀ m, m <+: rest → x :: m ∉ target.language := by
  rw [matchAt, List.find?_eq_none]
  constructor
  · intro fails m isPrefix
    have there : m.length ∈ (List.range (rest.length + 1)).reverse := by
      simpa using Nat.lt_succ_of_le isPrefix.length_le
    rw [List.prefix_iff_eq_take.mp isPrefix, ← accepts_iff]
    exact fails m.length there
  · intro fails n _
    rw [accepts_iff]
    exact fails _ (List.take_prefix n rest)

theorem scan_sublist (target : Regex α) (left : Nat) (l : List α) :
    (scan target left l).Sublist l := by
  induction l generalizing left with
  | nil => cases left <;> exact List.Sublist.refl []
  | cons x rest ih =>
    cases left with
    | succ left => exact (ih left).cons x
    | zero =>
      rw [scan]
      split
      · rename_i n _; exact (ih n).cons x
      · exact (ih 0).cons_cons x

theorem free_cons (nonempty : [] ∉ target.language) :
    Free target (x :: rest) ↔ matchAt target x rest = none ∧ Free target rest := by
  have here : (∀ m, m <+: x :: rest → m ∉ target.language) ↔ matchAt target x rest = none := by
    rw [matchAt_eq_none]
    constructor
    · exact fun fails m isPrefix => fails _ ((List.prefix_cons_inj x).mpr isPrefix)
    · intro fails m isPrefix
      rcases List.prefix_cons_iff.mp isPrefix with rfl | ⟨m, rfl, inner⟩
      · exact nonempty
      · exact fails m inner
  simp only [Free, List.infix_cons_iff, or_imp, forall_and, here]

theorem deleteMatches_eq_self_iff (nonempty : [] ∉ target.language) :
    deleteMatches target l = l ↔ Free target l := by
  induction l with
  | nil => simpa [deleteMatches, scan, Free] using nonempty
  | cons x rest ih =>
    rw [free_cons nonempty, ← ih, deleteMatches, deleteMatches, scan]
    cases found : matchAt target x rest with
    | none => simp
    | some n =>
      have shorter := (scan_sublist target n rest).length_le
      refine iff_of_false ?_ (by simp)
      intro same
      have longer := congrArg List.length same
      simp only [List.length_cons] at longer
      omega

/-! Matches between two delimiters -/

variable {opening closing a b : α}

/-- The closing delimiter follows at once or never. -/
def Unclosed (closing : α) (rest : List α) : Prop :=
  rest.head? = some closing ∨ closing ∉ rest

/-- Every opening delimiter is unclosed. -/
def Bare (opening closing : α) (l : List α) : Prop :=
  ∀ pre post, l = pre ++ opening :: post → Unclosed closing post

theorem bare_cons : Bare opening closing (x :: rest) ↔
    (x = opening → Unclosed closing rest) ∧ Bare opening closing rest := by
  constructor
  · intro bare
    refine ⟨?_, fun pre post split => bare (x :: pre) post (by simp [split])⟩
    rintro rfl
    exact bare [] rest rfl
  · rintro ⟨here, behind⟩ pre post split
    cases pre with
    | nil =>
      obtain ⟨rfl, rfl⟩ := List.cons.inj split
      exact here rfl
    | cons y pre => exact behind pre post (List.cons.inj split).2

variable [DecidableEq α]

/-- opening [^closing]+ closing -/
def delimited (opening closing : α) : Regex α :=
  seq (one (· == opening)) (seq (plus (one (· != closing))) (one (· == closing)))

theorem mem_delimited : l ∈ (delimited opening closing).language ↔
    ∃ body, body ≠ [] ∧ closing ∉ body ∧ l = opening :: (body ++ [closing]) := by
  simp only [delimited, mem_seq, mem_one, mem_plus_one, beq_iff_eq, bne_iff_ne]
  constructor
  · rintro ⟨_, ⟨x, rfl, rfl⟩, _, ⟨body, ⟨nonempty, inner⟩, _, ⟨y, rfl, rfl⟩, rfl⟩, rfl⟩
    exact ⟨body, nonempty, fun member => inner _ member rfl, rfl⟩
  · rintro ⟨body, nonempty, inner, rfl⟩
    exact ⟨[opening], ⟨opening, rfl, rfl⟩, body ++ [closing],
      ⟨body, ⟨nonempty, fun x member => ne_of_mem_of_not_mem member inner⟩, [closing],
        ⟨closing, rfl, rfl⟩, rfl⟩, rfl⟩

theorem nil_notMem_delimited : [] ∉ (delimited opening closing).language := by
  simp [mem_delimited]

theorem matchAt_delimited_eq_none :
    matchAt (delimited opening closing) x rest = none ↔ (x = opening → Unclosed closing rest) := by
  rw [matchAt_eq_none]
  constructor
  · rintro fails rfl
    by_contra closed
    obtain ⟨later, member⟩ := not_or.mp closed
    obtain ⟨body, post, rfl, inner⟩ := List.eq_append_cons_of_mem (not_not.mp member)
    have nonempty : body ≠ [] := by
      rintro rfl
      exact later rfl
    exact fails (body ++ [closing]) ⟨post, by simp⟩
      (mem_delimited.mpr ⟨body, nonempty, inner, rfl⟩)
  · rintro unclosed m ⟨post, rfl⟩ matched
    obtain ⟨body, nonempty, inner, split⟩ := mem_delimited.mp matched
    obtain ⟨rfl, rfl⟩ := List.cons.inj split
    obtain ⟨first, body, rfl⟩ := List.exists_cons_of_ne_nil nonempty
    rcases unclosed rfl with now | never
    · exact inner (by simp_all)
    · exact never (by simp)

theorem free_delimited_iff : Free (delimited opening closing) l ↔ Bare opening closing l := by
  induction l with
  | nil => simp [Free, Bare, nil_notMem_delimited]
  | cons x rest ih =>
    rw [free_cons nil_notMem_delimited, matchAt_delimited_eq_none, bare_cons, ih]

private theorem unclosed_scan (other : b ≠ opening) (unclosed : Unclosed b rest) :
    Unclosed b (scan (delimited opening closing) 0 rest) := by
  rcases unclosed with now | never
  · cases rest with
    | nil => cases now
    | cons y rest =>
      obtain rfl := Option.some.inj now
      have kept : matchAt (delimited opening closing) y rest = none :=
        matchAt_delimited_eq_none.mpr fun same => absurd same other
      exact .inl (by rw [scan, kept]; rfl)
  · exact .inr fun member => never ((scan_sublist _ 0 rest).subset member)

/-- Whether the scan leaves delimiters together is decided where it keeps the first
of them. -/
private theorem bare_scan (other : b ≠ opening) (left : Nat)
    (ahead : ∀ rest, a :: rest <:+ l → matchAt (delimited opening closing) a rest = none →
      Unclosed b rest) : Bare a b (scan (delimited opening closing) left l) := by
  induction l generalizing left with
  | nil => cases left <;> simp [scan, Bare]
  | cons x rest ih =>
    have behind (left : Nat) : Bare a b (scan (delimited opening closing) left rest) := by
      apply ih
      intro after suffix
      exact ahead after (suffix.trans (List.suffix_cons x rest))
    cases left with
    | succ left => exact behind left
    | zero =>
      rw [scan]
      split
      · rename_i n _; exact behind n
      · rename_i fails
        refine bare_cons.mpr ⟨?_, behind 0⟩
        rintro rfl
        exact unclosed_scan other (ahead rest List.suffix_rfl fails)

/-- Deleting matches of one kind brings no delimiters of another kind together, if
the second of these does not open a match. -/
theorem bare_deleteMatches (other : b ≠ opening) (bare : Bare a b l) :
    Bare a b (deleteMatches (delimited opening closing) l) := by
  apply bare_scan other 0
  rintro rest ⟨pre, split⟩ _
  exact bare pre rest split.symm

theorem bare_deleteMatches_self (other : closing ≠ opening) (l : List α) :
    Bare opening closing (deleteMatches (delimited opening closing) l) := by
  apply bare_scan other 0
  intro rest _ fails
  exact matchAt_delimited_eq_none.mp fails rfl

/-- Exactly the lists whose opening delimiters are all unclosed stay as they are. -/
theorem deleteMatches_delimited_eq_self_iff :
    deleteMatches (delimited opening closing) l = l ↔ Bare opening closing l := by
  rw [deleteMatches_eq_self_iff nil_notMem_delimited, free_delimited_iff]

private theorem matchAt_delimited {body : List α} (nonempty : body ≠ []) (inner : closing ∉ body) :
    matchAt (delimited opening closing) opening (body ++ closing :: rest) =
      some (body.length + 1) := by
  cases found : matchAt (delimited opening closing) opening (body ++ closing :: rest) with
  | none =>
    have unclosed := matchAt_delimited_eq_none.mp found rfl
    obtain ⟨first, body, rfl⟩ := List.exists_cons_of_ne_nil nonempty
    rcases unclosed with now | never
    · exact absurd (Option.some.inj now ▸ List.mem_cons_self) inner
    · exact absurd (by simp) never
  | some n =>
    have matched := List.find?_some found
    rw [accepts_iff, mem_delimited] at matched
    obtain ⟨body', -, inner', split⟩ := matched
    have taken := (List.cons.inj split).2
    have first (m behind : List α) (outside : closing ∉ m) :
        (m ++ closing :: behind).takeWhile (· != closing) = m := by
      rw [List.takeWhile_append_of_pos fun x member => by
        simpa using ne_of_mem_of_not_mem member outside]
      simp
    have same : body = body' := by
      rw [← first body rest inner, ← List.take_append_drop n (body ++ closing :: rest), taken,
        List.append_assoc]
      exact first body' _ inner'
    have bound := List.mem_range.mp (List.mem_reverse.mp (List.mem_of_find?_eq_some found))
    have length := congrArg List.length taken
    rw [List.length_take_of_le (by omega), List.length_append, List.length_singleton,
      ← same] at length
    rw [Option.some.injEq]
    omega

theorem deleteMatches_append_of_notMem (outside : opening ∉ l) (rest : List α) :
    deleteMatches (delimited opening closing) (l ++ rest) =
      l ++ deleteMatches (delimited opening closing) rest := by
  induction l with
  | nil => rfl
  | cons x l ih =>
    have other : opening ≠ x ∧ opening ∉ l := List.ne_and_not_mem_of_not_mem_cons outside
    have kept : matchAt (delimited opening closing) x (l ++ rest) = none :=
      matchAt_delimited_eq_none.mpr fun same => absurd same.symm other.1
    rw [List.cons_append, deleteMatches, scan, kept]
    exact congrArg (x :: ·) (ih other.2)

theorem deleteMatches_delimited_append {body : List α} (nonempty : body ≠ [])
    (inner : closing ∉ body) (rest : List α) :
    deleteMatches (delimited opening closing) (opening :: (body ++ closing :: rest)) =
      deleteMatches (delimited opening closing) rest := by
  have skip (m : List α) : scan (delimited opening closing) m.length (m ++ rest) =
      scan (delimited opening closing) 0 rest := by
    induction m with
    | nil => rfl
    | cons x m ih => exact ih
  rw [deleteMatches, scan, matchAt_delimited nonempty inner]
  have behind := skip (body ++ [closing])
  rw [List.append_assoc, List.length_append, List.length_singleton] at behind
  exact behind

end TheNews.Text.Deletion
