/- TheNews/Text/Trimming
   digest: Trimming after every append keeps all non-blank elements and loses
   exactly the blanks that end a chunk. -/

import Mathlib.Data.List.DropRight
import Mathlib.Data.List.TakeWhile

set_option autoImplicit false
set_option relaxedAutoImplicit false

namespace TheNews.Text.Trimming

universe u
variable {α : Type u} (blank : α → Bool)

/-- Strip the blanks at both ends. -/
def trim (l : List α) : List α := (l.dropWhile blank).rdropWhile blank

/-- Neither end is blank. -/
def Trimmed (l : List α) : Prop :=
  (∀ x ∈ l.head?, blank x = false) ∧ ∀ x ∈ l.getLast?, blank x = false

/-- The elements that are not blank, in order. -/
def solid (l : List α) : List α := l.filter (fun x => !blank x)

/-- The list with blanks before and behind it. -/
def Framed (l framed : List α) : Prop :=
  ∃ before after, framed = before ++ l ++ after ∧
    (∀ x ∈ before, blank x = true) ∧ ∀ x ∈ after, blank x = true

/-- A buffer that is trimmed again after every appended chunk. -/
def accumulate (chunks : List (List α)) : List α :=
  chunks.foldl (fun buffer chunk => trim blank (buffer ++ chunk)) []

@[simp] theorem solid_nil : solid blank ([] : List α) = [] := rfl

@[simp] theorem solid_append (l m : List α) :
    solid blank (l ++ m) = solid blank l ++ solid blank m := List.filter_append l m

variable {blank}

theorem solid_of_all {l : List α} (all : ∀ x ∈ l, blank x = true) : solid blank l = [] := by
  simpa [solid, List.filter_eq_nil_iff] using all

private theorem solid_dropWhile (blank : α → Bool) (l : List α) :
    solid blank (l.dropWhile blank) = solid blank l := by
  induction l with
  | nil => rfl
  | cons x l ih =>
    by_cases h : blank x = true
    · rw [List.dropWhile_cons_of_pos h, ih]
      simp [solid, h]
    · rw [List.dropWhile_cons_of_neg h]

private theorem solid_rdropWhile (l : List α) :
    solid blank (l.rdropWhile blank) = solid blank l := by
  have h := solid_dropWhile blank l.reverse
  simp only [solid, List.rdropWhile] at h ⊢
  rw [List.filter_reverse, h, List.filter_reverse, List.reverse_reverse]

@[simp] theorem solid_trim (l : List α) : solid blank (trim blank l) = solid blank l := by
  rw [trim, solid_rdropWhile, solid_dropWhile]

theorem rdropWhile_append (blank : α → Bool) (l m : List α) :
    (l ++ m).rdropWhile blank =
      if m.rdropWhile blank = [] then l.rdropWhile blank else l ++ m.rdropWhile blank := by
  simp only [List.rdropWhile, List.reverse_append, List.dropWhile_append, List.isEmpty_iff,
    List.reverse_eq_nil_iff]
  split <;> simp

private theorem rdropWhile_dropWhile (l : List α) :
    (l.dropWhile blank).rdropWhile blank = (l.rdropWhile blank).dropWhile blank := by
  induction l with
  | nil => rfl
  | cons x l ih =>
    have whole := rdropWhile_append blank [x] l
    simp only [List.singleton_append, List.rdropWhile_singleton] at whole
    by_cases h : blank x = true
    · rw [List.dropWhile_cons_of_pos h, ih, whole]
      split
      · rename_i all; rw [all]
      · rw [List.dropWhile_cons_of_pos h]
    · rw [List.dropWhile_cons_of_neg h, whole]
      split <;> simp [h]

private theorem dropWhile_dropWhile_append (l m : List α) :
    (l.dropWhile blank ++ m).dropWhile blank = (l ++ m).dropWhile blank := by
  induction l with
  | nil => rfl
  | cons x l ih =>
    by_cases h : blank x = true
    · rw [List.dropWhile_cons_of_pos h, ih, List.cons_append, List.dropWhile_cons_of_pos h]
    · rw [List.dropWhile_cons_of_neg h]

theorem trimmed_trim (l : List α) : Trimmed blank (trim blank l) := by
  constructor
  · intro x member
    rw [trim, rdropWhile_dropWhile] at member
    have first := List.head?_dropWhile_not blank (l.rdropWhile blank)
    rw [Option.mem_def.mp member] at first
    simpa using first
  · intro x member
    have nonempty : trim blank l ≠ [] := by rintro h; simp [h] at member
    have last := List.rdropWhile_last_not blank (l.dropWhile blank) nonempty
    rw [List.getLast?_eq_some_getLast nonempty] at member
    rw [← Option.some.inj member]
    exact Bool.eq_false_iff.mpr last

theorem trimmed_nil : Trimmed blank ([] : List α) := by simp [Trimmed]

theorem eq_nil_of_trimmed {l : List α} (trimmed : Trimmed blank l) (none : solid blank l = []) :
    l = [] := by
  cases l with
  | nil => rfl
  | cons x l =>
    have solid_x : blank x = false := trimmed.1 x (by simp)
    simp [solid, solid_x] at none

theorem trim_append_eq_iff {l m : List α} (trimmed : Trimmed blank l) :
    trim blank (l ++ m) = l ↔ ∀ x ∈ m, blank x = true := by
  constructor
  · intro same x member
    have nothing : solid blank l ++ solid blank m = solid blank l := by
      rw [← solid_append, ← solid_trim, same]
    have none := List.append_right_eq_self.mp nothing
    rw [solid, List.filter_eq_nil_iff] at none
    simpa using none x member
  · intro all
    have dropped : m.rdropWhile blank = [] := List.rdropWhile_eq_nil_iff.mpr all
    have ends : l.rdropWhile blank = l := List.rdropWhile_eq_self_iff.mpr fun nonempty => by
      simp [trimmed.2 _ (List.getLast_mem_getLast? nonempty)]
    rw [trim, rdropWhile_dropWhile, rdropWhile_append, if_pos dropped, ends]
    cases l with
    | nil => rfl
    | cons x l => rw [List.dropWhile_cons_of_neg (by simp [trimmed.1 x rfl])]

namespace Framed

theorem refl (l : List α) : Framed blank l l := ⟨[], [], by simp, by simp, by simp⟩

theorem behind {l framed m : List α} (frame : Framed blank l framed)
    (all : ∀ x ∈ m, blank x = true) : Framed blank l (m ++ framed) := by
  obtain ⟨before, after, rfl, left, right⟩ := frame
  exact ⟨m ++ before, after, by simp only [List.append_assoc],
    fun x member => (List.mem_append.mp member).elim (all x) (left x), right⟩

theorem before {framed : List α} (frame : Framed blank [] framed) (l : List α) :
    Framed blank l (l ++ framed) := by
  obtain ⟨before, after, rfl, left, right⟩ := frame
  exact ⟨[], before ++ after, by simp, by simp,
    fun x member => (List.mem_append.mp member).elim (left x) (right x)⟩

theorem solid_eq {l framed : List α} (frame : Framed blank l framed) :
    solid blank framed = solid blank l := by
  obtain ⟨before, after, rfl, left, right⟩ := frame
  rw [solid_append, solid_append, solid_of_all left, solid_of_all right, List.nil_append,
    List.append_nil]

theorem trim_eq {l framed : List α} (frame : Framed blank l framed) :
    trim blank framed = trim blank l := by
  obtain ⟨before, after, rfl, left, right⟩ := frame
  have dropped : after.rdropWhile blank = [] := List.rdropWhile_eq_nil_iff.mpr right
  rw [trim, List.append_assoc, List.dropWhile_append_of_pos left, rdropWhile_dropWhile,
    rdropWhile_append, if_pos dropped, ← rdropWhile_dropWhile, trim]

end Framed

private theorem flatMap_rdropWhile (chunks : List (List α)) :
    (chunks.flatMap (·.rdropWhile blank)).rdropWhile blank =
      chunks.flatMap (·.rdropWhile blank) := by
  induction chunks with
  | nil => rfl
  | cons c chunks ih =>
    rw [List.flatMap_cons, rdropWhile_append, ih, List.rdropWhile_idempotent]
    split
    · rename_i none; rw [none, List.append_nil]
    · rfl

/-- The buffer holds every chunk without its trailing blanks, and the blanks in
front of the first non-blank element are gone. -/
theorem accumulate_eq (chunks : List (List α)) :
    accumulate blank chunks = (chunks.flatMap (·.rdropWhile blank)).dropWhile blank := by
  induction chunks using List.reverseRecOn with
  | nil => rfl
  | append_singleton chunks c ih =>
    let kept := chunks.flatMap (·.rdropWhile blank)
    have closed : (kept.dropWhile blank).rdropWhile blank = kept.dropWhile blank := by
      rw [rdropWhile_dropWhile, flatMap_rdropWhile]
    have joined : (kept.dropWhile blank ++ c).rdropWhile blank =
        kept.dropWhile blank ++ c.rdropWhile blank := by
      rw [rdropWhile_append, closed]
      split <;> simp_all
    calc
      accumulate blank (chunks ++ [c])
        = trim blank (accumulate blank chunks ++ c) := by simp [accumulate, List.foldl_append]
      _ = ((kept.dropWhile blank ++ c).rdropWhile blank).dropWhile blank := by
        rw [ih, trim, rdropWhile_dropWhile]
      _ = (kept ++ c.rdropWhile blank).dropWhile blank := by
        rw [joined, dropWhile_dropWhile_append]
      _ = ((chunks ++ [c]).flatMap (·.rdropWhile blank)).dropWhile blank := by
        simp [kept, List.flatMap_append]

end TheNews.Text.Trimming
