/- TheNews/Extensions/URLForms
   models: Extensions/UIAlertController.swift
   digest: All strings that the add alert takes for a URL: what stands in front of the
   path, and the path with its query and its fragment. -/

import TheNews.Extensions.URLGrammar

set_option autoImplicit false
set_option relaxedAutoImplicit false

namespace TheNews.Extensions.URLForms

open TheNews.Text Regex Separated
open URLGrammar

/-- '#' and at least one character, white space and '#' included, on one line. -/
def IsFragment (l : List Char) : Prop :=
  ∃ text, text ≠ [] ∧ (∀ c ∈ text, anyCharacter c = true) ∧ l = '#' :: text

/-- A path that goes on behind its '/', but not with '?', and has no white space up to
the fragment. -/
def IsResource (l : List Char) : Prop :=
  ∃ first query fragment, noneOf ['?', '#'] first = true ∧ (∀ c ∈ query, noneOf ['#'] c = true) ∧
    (fragment = [] ∨ IsFragment fragment) ∧ l = '/' :: first :: (query ++ fragment)

variable {count : String → Nat} {l rest : List Char}

private theorem noneOf_hash {c : Char} (outside : noneOf ['?', '#'] c = true) :
    noneOf ['#'] c = true := by
  rw [noneOf_iff] at outside ⊢
  exact ⟨fun member => outside.1 (List.mem_cons_of_mem _ member), outside.2⟩

private theorem mem_resource : l ∈ behindPort.language ↔ IsResource l := by
  simp only [behindPort, mem_seq, mem_opt, mem_one, mem_plus_one, beq_iff_eq]
  constructor
  · rintro ⟨_, ⟨_, ⟨_, rfl, rfl⟩, p, ⟨nonempty, inside⟩, rfl⟩, _, ⟨q, query, f, fragment, rfl⟩, rfl⟩
    obtain ⟨first, p, rfl⟩ := List.exists_cons_of_ne_nil nonempty
    refine ⟨first, p ++ q, f, inside first List.mem_cons_self, ?_, ?_, by simp⟩
    · intro c member
      rcases List.mem_append.mp member with inPath | inQuery
      · exact noneOf_hash (inside c (List.mem_cons_of_mem _ inPath))
      · rcases query with ⟨-, all⟩ | rfl
        · exact all c inQuery
        · cases inQuery
    · rcases fragment with ⟨_, ⟨_, rfl, rfl⟩, text, ⟨some, all⟩, rfl⟩ | none
      · exact .inr ⟨text, some, all, rfl⟩
      · exact .inl none
  · rintro ⟨first, query, fragment, inside, all, behind, rfl⟩
    refine ⟨['/', first], ⟨['/'], ⟨'/', rfl, rfl⟩, [first], ⟨by simp, by simpa using inside⟩, rfl⟩,
      query ++ fragment, ⟨query, ?_, fragment, ?_, rfl⟩, rfl⟩
    · by_cases none : query = []
      · exact .inr none
      · exact .inl ⟨none, all⟩
    · rcases behind with none | ⟨text, some, each, rfl⟩
      · exact .inr none
      · exact .inl ⟨['#'], ⟨'#', rfl, rfl⟩, text, ⟨some, each⟩, rfl⟩

private theorem mem_form : rest ∈ behindScheme.language ↔
    ∃ front resource, separated labelCharacter anyCharacter false front = true ∧
      (resource = [] ∨ IsResource resource) ∧ rest = front ++ resource := by
  simp only [behindScheme, mem_seq, mem_alt, mem_opt, mem_labels, mem_portPattern, mem_resource]
  constructor
  · rintro ⟨host, isHost, _, ⟨port, isPort, resource, isResource, rfl⟩, rfl⟩
    have ends := isHost.elim id separated_of_address
    exact ⟨host ++ port, resource, separated_port ends isPort.symm, isResource.symm, by simp⟩
  · rintro ⟨front, resource, ends, isResource, rfl⟩
    exact ⟨front, .inl ends, resource, ⟨[], .inr rfl, resource, isResource.symm, rfl⟩, rfl⟩

/-- The check accepts exactly: a scheme, label characters with single characters of any
kind between them, and perhaps a resource. So a '?' or '#' may stand in a host, white
space between two labels and in a fragment, and the rest of the pattern adds nothing. -/
theorem isValidURL_iff_form (graphemes : Graphemes count) (s : String) :
    isValidURL count s = true ↔ ∃ front resource, Schemed s.toList (front ++ resource) ∧
      separated labelCharacter anyCharacter false front = true ∧
      (resource = [] ∨ IsResource resource) := by
  have accepted : urlPattern.accepts s.toList = true ↔
      ∃ front resource, Schemed s.toList (front ++ resource) ∧
        separated labelCharacter anyCharacter false front = true ∧
        (resource = [] ∨ IsResource resource) := by
    rw [accepts_iff, mem_urlPattern]
    simp only [mem_form]
    constructor
    · rintro ⟨_, schemed, front, resource, ends, isResource, rfl⟩
      exact ⟨front, resource, schemed, ends, isResource⟩
    · rintro ⟨front, resource, schemed, ends, isResource⟩
      exact ⟨_, schemed, front, resource, ends, isResource, rfl⟩
  rw [isValidURL, Bool.and_eq_true, accepted, decide_eq_true_iff, and_iff_right_iff_imp]
  rintro ⟨front, resource, schemed, -⟩
  rw [Nat.pos_iff_ne_zero]
  intro zero
  rw [(graphemes.empty s).mp zero] at schemed
  rcases schemed with none | none <;> cases none

theorem isValidURL_iff_form_fragment :
    isValidURL String.length "http://a?b.c/d?e#f g" = true :=
  (isValidURL_iff_form graphemes_length _).mpr
    ⟨"a?b.c".toList, "/d?e#f g".toList, .inl rfl, rfl, .inr
      ⟨'d', ['?', 'e'], ['#', 'f', ' ', 'g'], by decide, List.all_eq_true.mp (by decide),
        .inr ⟨['f', ' ', 'g'], by decide, List.all_eq_true.mp (by decide), rfl⟩, rfl⟩⟩

end TheNews.Extensions.URLForms
