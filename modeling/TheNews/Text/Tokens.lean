/- TheNews/Text/Tokens
   digest: Numerals and names at the start of a text, as they are written and read. -/

import Mathlib.Data.List.Basic
import Mathlib.Data.Nat.Digits.Defs

set_option autoImplicit false
set_option relaxedAutoImplicit false

namespace TheNews.Text.Tokens

/-- The decimal numeral of a number, with at least so many digits. -/
def numeral (width n : Nat) : List Char := (Nat.toDigits 10 n).leftpad width '0'

/-- The digits at the start of a text and what follows them. -/
def digits (text : List Char) : List Char × List Char :=
  (text.takeWhile Char.isDigit, text.dropWhile Char.isDigit)

def readNumeral (text : List Char) : Option (Nat × List Char) :=
  if (digits text).1 = [] then none
  else some (Nat.ofDigitChars 10 (digits text).1 0, (digits text).2)

theorem isDigit_of_mem_numeral {width n : Nat} {c : Char} (member : c ∈ numeral width n) :
    c.isDigit = true := by
  rw [numeral, List.leftpad, List.mem_append] at member
  rcases member with padding | digit
  · rw [List.eq_of_mem_replicate padding]
    decide
  · exact Nat.isDigit_of_mem_toDigits (by decide) (by decide) digit

theorem count_numeral {width n : Nat} {c : Char} (other : c.isDigit = false) :
    (numeral width n).count c = 0 := by
  apply List.count_eq_zero_of_not_mem
  intro member
  rw [isDigit_of_mem_numeral member] at other
  exact Bool.false_ne_true other.symm

theorem numeral_ne_nil (width n : Nat) : numeral width n ≠ [] :=
  List.append_ne_nil_of_right_ne_nil _ Nat.toDigits_ne_nil

theorem length_numeral {width n : Nat} (positive : 0 < width) (short : n < 10 ^ width) :
    (numeral width n).length = width := by
  have fits := (Nat.length_toDigits_le_iff (by decide : 1 < 10) positive).mpr short
  rw [numeral, List.length_leftpad]
  omega

theorem ofDigitChars_numeral (width n : Nat) : Nat.ofDigitChars 10 (numeral width n) 0 = n := by
  simp [numeral, List.leftpad, Nat.ofDigitChars_append]

theorem digits_append {run rest : List Char} (all : ∀ c ∈ run, c.isDigit = true)
    (stop : ∀ c ∈ rest.head?, c.isDigit = false) : digits (run ++ rest) = (run, rest) := by
  rw [digits, List.takeWhile_append_of_pos all, List.dropWhile_append_of_pos all]
  cases rest with
  | nil => simp
  | cons c rest => simp [stop c rfl]

theorem stop_cons {c : Char} {rest : List Char} (other : c.isDigit = false) :
    ∀ x ∈ (c :: rest).head?, x.isDigit = false := by
  intro x first
  obtain rfl := Option.some.inj first
  exact other

theorem readNumeral_numeral {width n : Nat} {rest : List Char}
    (stop : ∀ c ∈ rest.head?, c.isDigit = false) :
    readNumeral (numeral width n ++ rest) = some (n, rest) := by
  have run : digits (numeral width n ++ rest) = (numeral width n, rest) :=
    digits_append (fun _ => isDigit_of_mem_numeral) stop
  rw [readNumeral, run, if_neg (numeral_ne_nil width n), ofDigitChars_numeral]

theorem suffix_of_readNumeral {text : List Char} {found : Nat × List Char}
    (read : readNumeral text = some found) : found.2 <:+ text := by
  rw [readNumeral] at read
  split at read
  · exact absurd read (Option.some_ne_none found).symm
  · obtain rfl := Option.some.inj read
    exact List.dropWhile_suffix _

theorem append_cons_inj {c : Char} {front front' rest rest' : List Char} (outside : c ∉ front)
    (outside' : c ∉ front') (same : front ++ c :: rest = front' ++ c :: rest') :
    front = front' ∧ rest = rest' := by
  rcases List.append_eq_append_iff.mp same with ⟨inner, longer, tail⟩ | ⟨inner, longer, tail⟩
  · cases inner with
    | nil => exact ⟨by simpa using longer.symm, (List.cons.inj tail).2⟩
    | cons x inner =>
      have inside : x ∈ front' := longer ▸ List.mem_append_right front List.mem_cons_self
      exact absurd ((List.cons.inj tail).1 ▸ inside) outside'
  · cases inner with
    | nil => exact ⟨by simpa using longer, (List.cons.inj tail).2.symm⟩
    | cons x inner =>
      have inside : x ∈ front := longer ▸ List.mem_append_right front' List.mem_cons_self
      exact absurd ((List.cons.inj tail).1 ▸ inside) outside

section Names

variable {ι : Type} {spellings : List (List Char × ι)} {text name rest : List Char} {i : ι}

/-- The longest start of the text of at most so many characters that is a spelling. -/
def readSpelling (spellings : List (List Char × ι)) (text : List Char) :
    Nat → Option (ι × List Char)
  | 0 => none
  | length + 1 =>
    match spellings.lookup (text.take (length + 1)) with
    | some i => some (i, text.drop (length + 1))
    | none => readSpelling spellings text length

/-- The longest spelling that starts the text, and the first of the meanings it has. -/
def readName (spellings : List (List Char × ι)) (text : List Char) : Option (ι × List Char) :=
  readSpelling spellings text text.length

/-- No spelling goes on behind the name. -/
def Ends (spellings : List (List Char × ι)) (name rest : List Char) : Prop :=
  ∀ spelling ∈ spellings, spelling.1 <+: name ++ rest → spelling.1.length ≤ name.length

instance : Decidable (Ends spellings name rest) :=
  inferInstanceAs (Decidable (∀ spelling ∈ spellings, _))

private theorem readSpelling_eq_some {length : Nat} :
    readSpelling spellings text length = some (i, rest) ↔
      ∃ k, k < length ∧ spellings.lookup (text.take (k + 1)) = some i ∧ rest = text.drop (k + 1) ∧
        ∀ j, k < j → j < length → spellings.lookup (text.take (j + 1)) = none := by
  induction length with
  | zero => simp [readSpelling]
  | succ length ih =>
    rw [readSpelling]
    cases found : spellings.lookup (text.take (length + 1)) with
    | some i' =>
      constructor
      · intro read
        obtain ⟨rfl, rfl⟩ := Prod.mk.inj (Option.some.inj read)
        exact ⟨length, length.lt_succ_self, found, rfl, fun j _ _ => by omega⟩
      · rintro ⟨k, inside, spelled, rfl, longest⟩
        have last : k = length := by
          by_contra earlier
          have none := longest length (by omega) length.lt_succ_self
          rw [found] at none
          exact Option.some_ne_none i' none
        subst last
        rw [found] at spelled
        rw [Option.some.inj spelled]
    | none =>
      simp only
      rw [ih]
      constructor
      · rintro ⟨k, inside, spelled, tail, longest⟩
        refine ⟨k, by omega, spelled, tail, fun j after before => ?_⟩
        rcases Nat.lt_succ_iff_lt_or_eq.mp before with earlier | rfl
        · exact longest j after earlier
        · exact found
      · rintro ⟨k, inside, spelled, tail, longest⟩
        have earlier : k ≠ length := by
          rintro rfl
          rw [found] at spelled
          exact Option.some_ne_none i spelled.symm
        exact ⟨k, by omega, spelled, tail, fun j after before => longest j after (by omega)⟩

private theorem ends_iff :
    Ends spellings name rest ↔ ∀ j, name.length ≤ j → j < (name ++ rest).length →
      spellings.lookup ((name ++ rest).take (j + 1)) = none := by
  constructor
  · intro ends j after inside
    rw [List.lookup_eq_none_iff]
    intro spelling member
    rw [bne_iff_ne]
    intro spelled
    have short := ends spelling member (spelled ▸ List.take_prefix (j + 1) (name ++ rest))
    rw [← spelled, List.length_take] at short
    omega
  · intro none spelling member start
    by_contra longer
    have long := start.length_le
    have unspelled := none (spelling.1.length - 1) (by omega) (by omega)
    rw [show spelling.1.length - 1 + 1 = spelling.1.length by omega,
      ← List.prefix_iff_eq_take.mp start, List.lookup_eq_none_iff] at unspelled
    have differs := unspelled spelling member
    rw [bne_self_eq_false] at differs
    exact Bool.false_ne_true differs

theorem readName_append :
    readName spellings (name ++ rest) = some (i, rest) ↔
      name ≠ [] ∧ spellings.lookup name = some i ∧ Ends spellings name rest := by
  rw [readName, readSpelling_eq_some, ends_iff]
  constructor
  · rintro ⟨k, inside, spelled, tail, longest⟩
    have size : name.length = k + 1 := by
      have lengths := congrArg List.length tail
      rw [List.length_drop] at lengths
      rw [List.length_append] at lengths inside
      omega
    rw [← size, List.take_left'] at spelled
    · refine ⟨List.ne_nil_of_length_eq_add_one size, spelled, fun j after before => ?_⟩
      exact longest j (by omega) before
    · rfl
  · rintro ⟨nonempty, spelled, ends⟩
    have size : name.length - 1 + 1 = name.length :=
      Nat.sub_add_cancel (List.length_pos_iff.mpr nonempty)
    have inside : name.length ≤ (name ++ rest).length := by simp
    refine ⟨name.length - 1, by omega, ?_, ?_, fun j after before => ?_⟩
    · rw [size, List.take_left' rfl, spelled]
    · rw [size, List.drop_left' rfl]
    · exact ends j (by omega) before

theorem ends_cons {c : Char} (stop : ∀ spelling ∈ spellings, ¬ name ++ [c] <+: spelling.1) :
    Ends spellings name (c :: rest) := by
  intro spelling member start
  by_contra longer
  apply stop spelling member
  have whole : name ++ [c] <+: name ++ c :: rest := ⟨rest, by simp⟩
  exact List.prefix_of_prefix_length_le whole start (by simp; omega)

theorem suffix_of_readName {found : ι × List Char} (read : readName spellings text = some found) :
    found.2 <:+ text := by
  obtain ⟨k, -, -, tail, -⟩ := readSpelling_eq_some.mp read
  rw [tail]
  exact List.drop_suffix (k + 1) text

end Names

end TheNews.Text.Tokens
