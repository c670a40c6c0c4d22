/- TheNews/Text/Regex
   digest: Regular expressions over predicates on symbols, matched against a whole
   list by derivatives, and the language each of them matches. -/

import Mathlib.Computability.Language

set_option autoImplicit false
set_option relaxedAutoImplicit false

namespace TheNews.Text

universe u

/-- A symbol class is any Boolean predicate, so the alphabet need not be finite. -/
inductive Regex (α : Type u) where
  | empty
  | epsilon
  | one (p : α → Bool)
  | seq (r s : Regex α)
  | alt (r s : Regex α)
  | star (r : Regex α)

namespace Regex
variable {α : Type u}

def plus (r : Regex α) : Regex α := .seq r (.star r)

def opt (r : Regex α) : Regex α := .alt r .epsilon

/-- One given symbol after another. -/
def word [BEq α] : List α → Regex α
  | [] => .epsilon
  | x :: rest => .seq (.one (· == x)) (word rest)

/-- Does the expression match the empty list? -/
def nullable : Regex α → Bool
  | .empty => false
  | .epsilon => true
  | .one _ => false
  | .seq r s => r.nullable && s.nullable
  | .alt r s => r.nullable || s.nullable
  | .star _ => true

/-- What must match the rest of the list once `x` has been read. -/
def derivative (x : α) : Regex α → Regex α
  | .empty => .empty
  | .epsilon => .empty
  | .one p => if p x then .epsilon else .empty
  | .seq r s =>
      if r.nullable then .alt (.seq (r.derivative x) s) (s.derivative x)
      else .seq (r.derivative x) s
  | .alt r s => .alt (r.derivative x) (s.derivative x)
  | .star r => .seq (r.derivative x) (.star r)

/-- A match of the whole list. -/
def accepts (r : Regex α) (l : List α) : Bool := (l.foldl (fun r x => r.derivative x) r).nullable

/-! The language of an expression -/

/-- What an expression means, in the algebra of languages. -/
def language : Regex α → Language α
  | .empty => 0
  | .epsilon => 1
  | .one p => {l | ∃ x, p x = true ∧ l = [x]}
  | .seq r s => r.language * s.language
  | .alt r s => r.language + s.language
  | .star r => KStar.kstar r.language

variable {r s : Regex α} {p : α → Bool} {l : List α}

@[simp] theorem mem_empty : l ∈ (empty : Regex α).language ↔ False := Iff.rfl

@[simp] theorem mem_epsilon : l ∈ (epsilon : Regex α).language ↔ l = [] := Iff.rfl

@[simp] theorem mem_one : l ∈ (one p).language ↔ ∃ x, p x = true ∧ l = [x] := Iff.rfl

@[simp] theorem mem_seq :
    l ∈ (seq r s).language ↔ ∃ a ∈ r.language, ∃ b ∈ s.language, a ++ b = l := Language.mem_mul

@[simp] theorem mem_alt : l ∈ (alt r s).language ↔ l ∈ r.language ∨ l ∈ s.language := Iff.rfl

@[simp] theorem nil_mem_star : [] ∈ (star r).language := Language.nil_mem_kstar _

theorem cons_mem_seq {x : α} :
    x :: l ∈ (seq r s).language ↔
      (∃ a, x :: a ∈ r.language ∧ ∃ b ∈ s.language, a ++ b = l) ∨
        [] ∈ r.language ∧ x :: l ∈ s.language := by
  rw [mem_seq]
  constructor
  · rintro ⟨a, first, b, second, split⟩
    cases a with
    | nil =>
      obtain rfl : b = x :: l := split
      exact .inr ⟨first, second⟩
    | cons y a =>
      obtain ⟨rfl, rest⟩ := List.cons.inj split
      exact .inl ⟨a, first, b, second, rest⟩
  · rintro (⟨a, first, b, second, rfl⟩ | ⟨first, second⟩)
    · exact ⟨x :: a, first, b, second, rfl⟩
    · exact ⟨[], first, x :: l, second, rfl⟩

theorem cons_mem_one_seq {x : α} :
    x :: l ∈ (seq (one p) s).language ↔ p x = true ∧ l ∈ s.language := by
  rw [cons_mem_seq]
  constructor
  · rintro (⟨a, ⟨y, holds, single⟩, b, rest, rfl⟩ | ⟨⟨y, -, none⟩, -⟩)
    · obtain ⟨rfl, rfl⟩ := List.cons.inj single
      exact ⟨holds, rest⟩
    · cases none
  · rintro ⟨holds, rest⟩
    exact .inl ⟨[], ⟨x, holds, rfl⟩, l, rest, rfl⟩

theorem cons_mem_star {x : α} :
    x :: l ∈ (star r).language ↔
      ∃ a, x :: a ∈ r.language ∧ ∃ b ∈ (star r).language, a ++ b = l := by
  constructor
  · intro member
    obtain ⟨parts, split, all⟩ := Language.mem_kstar_iff_exists_nonempty.mp member
    cases parts with
    | nil => cases split
    | cons first parts =>
      obtain ⟨matched, nonempty⟩ := all first List.mem_cons_self
      cases first with
      | nil => exact absurd rfl nonempty
      | cons y a =>
        obtain ⟨rfl, rfl⟩ := List.cons.inj split
        have rest : parts.flatten ∈ (star r).language :=
          Language.join_mem_kstar fun part there => (all part (List.mem_cons_of_mem _ there)).1
        exact ⟨a, matched, parts.flatten, rest, rfl⟩
  · rintro ⟨a, matched, b, rest, rfl⟩
    obtain ⟨parts, rfl, all⟩ := Language.mem_kstar.mp rest
    have joined : ((x :: a) :: parts).flatten ∈ (star r).language :=
      Language.join_mem_kstar (List.forall_mem_cons.mpr ⟨matched, all⟩)
    exact joined

theorem nullable_iff : r.nullable = true ↔ [] ∈ r.language := by
  induction r with
  | empty => simp [nullable]
  | epsilon => simp [nullable]
  | one p => simp [nullable]
  | seq r s ihr ihs => simp [nullable, ihr, ihs]
  | alt r s ihr ihs => simp [nullable, ihr, ihs]
  | star r ih => simp [nullable]

theorem mem_derivative {x : α} : l ∈ (r.derivative x).language ↔ x :: l ∈ r.language := by
  induction r generalizing l with
  | empty => simp [derivative]
  | epsilon => simp [derivative]
  | one p =>
    rw [derivative]
    split
    · rename_i holds; simp [holds]
    · rename_i fails; simp [fails]
  | seq r s ihr ihs =>
    rw [cons_mem_seq, derivative]
    split
    · rename_i skips
      simp [ihr, ihs, nullable_iff.mp skips]
    · rename_i reads
      simp [ihr, mt nullable_iff.mpr reads]
  | alt r s ihr ihs => simp [derivative, ihr, ihs]
  | star r ih =>
    rw [cons_mem_star, derivative, mem_seq]
    simp [ih]

/-- Derivatives decide the language. -/
theorem accepts_iff : r.accepts l = true ↔ l ∈ r.language := by
  induction l generalizing r with
  | nil => exact nullable_iff
  | cons x l ih => rw [← mem_derivative, ← ih, accepts, accepts, List.foldl_cons]

/-! Derived expressions -/

@[simp] theorem mem_opt : l ∈ (opt r).language ↔ l ∈ r.language ∨ l = [] := by simp [opt]

@[simp] theorem mem_word [BEq α] [LawfulBEq α] {w : List α} :
    l ∈ (word w).language ↔ l = w := by
  induction w generalizing l with
  | nil => simp [word]
  | cons x w ih =>
    simp only [word, mem_seq, mem_one, ih, beq_iff_eq]
    constructor
    · rintro ⟨_, ⟨y, rfl, rfl⟩, _, rfl, rfl⟩
      rfl
    · rintro rfl
      exact ⟨[x], ⟨x, rfl, rfl⟩, w, rfl, rfl⟩

@[simp] theorem mem_star_one : l ∈ (star (one p)).language ↔ ∀ x ∈ l, p x = true := by
  induction l with
  | nil => simp
  | cons x l ih =>
    have again : x :: l ∈ (star (one p)).language ↔
        x :: l ∈ (seq (one p) (star (one p))).language := by
      rw [cons_mem_star, cons_mem_seq]
      simp
    rw [again, cons_mem_one_seq, ih, List.forall_mem_cons]

@[simp] theorem mem_plus_one : l ∈ (plus (one p)).language ↔ l ≠ [] ∧ ∀ x ∈ l, p x = true := by
  cases l with
  | nil => simp [plus]
  | cons x l => simp [plus]

end Regex

end TheNews.Text
