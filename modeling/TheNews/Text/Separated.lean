/- TheNews/Text/Separated
   digest: Labels with one symbol between any two of them, as a scan that knows only
   whether a label may end here. -/

import TheNews.Text.Regex

set_option autoImplicit false
set_option relaxedAutoImplicit false

namespace TheNews.Text.Separated

open Regex

universe u
variable {α : Type u} (label any : α → Bool)

/-- label+ (any label+)* -/
def labels : Regex α :=
  seq (plus (one label)) (star (seq (one any) (plus (one label))))

/-- The same as a scan; the flag says whether the list may end here. -/
def separated : Bool → List α → Bool
  | ended, [] => ended
  | true, x :: l => if label x then separated true l else any x && separated false l
  | false, x :: l => label x && separated true l

variable {label any} {x : α} {l m : List α}

/-- What may follow inside a label: label* (any label+)* -/
private def behind (label any : α → Bool) : Regex α :=
  seq (star (one label)) (star (seq (one any) (plus (one label))))

private theorem cons_mem_labels :
    x :: l ∈ (labels label any).language ↔
      label x = true ∧ l ∈ (behind label any).language := by
  rw [labels, cons_mem_seq, behind, mem_seq]
  simp only [mem_plus_one, mem_star_one, List.forall_mem_cons]
  constructor
  · rintro (⟨a, ⟨-, first, all⟩, b, rest, rfl⟩ | ⟨⟨nonempty, -⟩, -⟩)
    · exact ⟨first, a, all, b, rest, rfl⟩
    · exact absurd rfl nonempty
  · rintro ⟨first, a, all, b, rest, rfl⟩
    exact .inl ⟨a, ⟨List.cons_ne_nil x a, first, all⟩, b, rest, rfl⟩

private theorem behind_of_labels (member : l ∈ (labels label any).language) :
    l ∈ (behind label any).language := by
  obtain ⟨a, first, b, rest, rfl⟩ := mem_seq.mp member
  exact mem_seq.mpr ⟨a, mem_star_one.mpr (mem_plus_one.mp first).2, b, rest, rfl⟩

private theorem cons_mem_behind :
    x :: l ∈ (behind label any).language ↔
      label x = true ∧ l ∈ (behind label any).language ∨
        any x = true ∧ l ∈ (labels label any).language := by
  have longer : (∃ a, x :: a ∈ (star (one label)).language ∧
      ∃ b ∈ (star (seq (one any) (plus (one label)))).language, a ++ b = l) ↔
        label x = true ∧ l ∈ (behind label any).language := by
    simp only [behind, mem_seq, mem_star_one, List.forall_mem_cons, and_assoc, exists_and_left]
  have next : x :: l ∈ (star (seq (one any) (plus (one label)))).language ↔
      any x = true ∧ l ∈ (labels label any).language := by
    rw [cons_mem_star, labels, mem_seq]
    simp only [cons_mem_one_seq, and_assoc, exists_and_left]
  exact cons_mem_seq.trans (or_congr longer ((and_iff_right nil_mem_star).trans next))

private theorem language_iff :
    (l ∈ (behind label any).language ↔ separated label any true l = true) ∧
      (l ∈ (labels label any).language ↔ separated label any false l = true) := by
  induction l with
  | nil => simp [behind, labels, separated, plus]
  | cons x l ih =>
    constructor
    · rw [cons_mem_behind, separated]
      split
      · rename_i inside
        rw [← ih.1]
        exact ⟨fun either => either.elim And.right fun next => behind_of_labels next.2,
          fun member => .inl ⟨inside, member⟩⟩
      · rename_i outside
        simp [outside, ih.2]
    · rw [cons_mem_labels, separated, Bool.and_eq_true, ih.1]

theorem mem_labels : l ∈ (labels label any).language ↔ separated label any false l = true :=
  language_iff.2

theorem separated_split {ended : Bool} (outside : label x = false) :
    separated label any ended (l ++ x :: m) = true ↔ separated label any ended l = true ∧
      any x = true ∧ separated label any false m = true := by
  induction l generalizing ended with
  | nil => cases ended <;> simp [separated, outside]
  | cons y l ih =>
    cases ended with
    | true =>
      rw [List.cons_append, separated, separated]
      split
      · exact ih
      · rw [Bool.and_eq_true, Bool.and_eq_true, ih, and_assoc]
    | false => rw [List.cons_append, separated, separated, Bool.and_eq_true, Bool.and_eq_true, ih,
        and_assoc]

theorem separated_label {ended : Bool} (nonempty : l ≠ []) (inside : ∀ y ∈ l, label y = true) :
    separated label any ended (l ++ m) = separated label any true m := by
  induction l generalizing ended with
  | nil => exact absurd rfl nonempty
  | cons y l ih =>
    obtain ⟨first, inside⟩ := List.forall_mem_cons.mp inside
    have begun : separated label any ended (y :: (l ++ m)) =
        separated label any true (l ++ m) := by
      cases ended <;> simp [separated, first]
    rw [List.cons_append, begun]
    cases l with
    | nil => rfl
    | cons z l => exact ih (List.cons_ne_nil z l) inside

/-- A list of labels. -/
def AreLabels (label : α → Bool) (parts : List (List α)) : Prop :=
  ∀ part ∈ parts, part ≠ [] ∧ ∀ y ∈ part, label y = true

theorem separated_intercalate {parts : List (List α)} (separates : any x = true)
    (outside : label x = false) (some : parts ≠ []) (all : AreLabels label parts) :
    separated label any false ([x].intercalate parts) = true := by
  induction parts with
  | nil => exact absurd rfl some
  | cons part parts ih =>
    obtain ⟨⟨nonempty, inside⟩, all⟩ := List.forall_mem_cons.mp all
    have alone : separated label any false part = true := by
      have whole : separated label any false (part ++ []) = separated label any true [] :=
        separated_label nonempty inside
      rwa [List.append_nil] at whole
    cases parts with
    | nil => rwa [List.intercalate_singleton]
    | cons next parts =>
      rw [List.intercalate_cons_cons, List.append_assoc, List.singleton_append,
        separated_split outside]
      exact ⟨alone, separates, ih (List.cons_ne_nil next parts) all⟩

theorem label_or_separator {parts : List (List α)} (all : AreLabels label parts) :
    ∀ y ∈ [x].intercalate parts, label y = true ∨ y = x := by
  induction parts with
  | nil => simp
  | cons part parts ih =>
    obtain ⟨⟨-, inside⟩, all⟩ := List.forall_mem_cons.mp all
    cases parts with
    | nil =>
      rw [List.intercalate_singleton]
      exact fun y member => .inl (inside y member)
    | cons next parts =>
      intro y member
      rw [List.intercalate_cons_cons, List.mem_append, List.mem_append,
        List.mem_singleton] at member
      rcases member with (here | separator) | later
      · exact .inl (inside y here)
      · exact .inr separator
      · exact ih all y later

private theorem exists_parts (only : ∀ y ∈ l, label y = true ∨ y = x) :
    (separated label any true l = true → ∃ first parts, (∀ y ∈ first, label y = true) ∧
        AreLabels label parts ∧ l = [x].intercalate (first :: parts)) ∧
      (separated label any false l = true → ∃ first parts, first ≠ [] ∧
        (∀ y ∈ first, label y = true) ∧
          AreLabels label parts ∧ l = [x].intercalate (first :: parts)) := by
  induction l with
  | nil => exact ⟨fun _ => ⟨[], [], by simp [AreLabels]⟩, by simp [separated]⟩
  | cons y l ih =>
    obtain ⟨this, only⟩ := List.forall_mem_cons.mp only
    obtain ⟨goesOn, begins⟩ := ih only
    constructor
    · intro ends
      rw [separated] at ends
      split at ends
      · rename_i inside
        obtain ⟨first, parts, all, rest, rfl⟩ := goesOn ends
        exact ⟨y :: first, parts, List.forall_mem_cons.mpr ⟨inside, all⟩, rest,
          List.intercalate_cons_cons_left.symm⟩
      · rename_i outside
        obtain rfl := this.resolve_left outside
        obtain ⟨first, parts, nonempty, all, rest, rfl⟩ :=
          begins (Bool.and_eq_true_iff.mp ends).2
        exact ⟨[], first :: parts, by simp, List.forall_mem_cons.mpr ⟨⟨nonempty, all⟩, rest⟩,
          by simp [List.intercalate_cons_cons]⟩
    · intro ends
      obtain ⟨inside, ends⟩ := Bool.and_eq_true_iff.mp ends
      obtain ⟨first, parts, all, rest, rfl⟩ := goesOn ends
      exact ⟨y :: first, parts, List.cons_ne_nil y first,
        List.forall_mem_cons.mpr ⟨inside, all⟩, rest, List.intercalate_cons_cons_left.symm⟩

theorem exists_intercalate (ends : separated label any false l = true)
    (only : ∀ y ∈ l, label y = true ∨ y = x) :
    ∃ parts : List (List α), parts ≠ [] ∧ AreLabels label parts ∧ l = [x].intercalate parts := by
  obtain ⟨first, parts, nonempty, all, rest, rfl⟩ := (exists_parts only).2 ends
  exact ⟨first :: parts, List.cons_ne_nil first parts,
    List.forall_mem_cons.mpr ⟨⟨nonempty, all⟩, rest⟩, rfl⟩

end TheNews.Text.Separated
