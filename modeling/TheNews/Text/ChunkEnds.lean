/- TheNews/Text/ChunkEnds
   digest: Two chunkings of one text accumulate alike exactly when, behind the
   first word, the same blanks end their chunk. -/

import TheNews.Text.Trimming
import Mathlib.Data.List.Forall2

set_option autoImplicit false
set_option relaxedAutoImplicit false

namespace TheNews.Text.ChunkEnds

open TheNews.Text.Trimming

universe u v
variable {α : Type u} (blank : α → Bool)

/-- For every element of a chunk: is the chunk blank from here to its end? -/
def ending : List α → List Bool
  | [] => []
  | x :: rest => (x :: rest).all blank :: ending rest

/-- The flags of all chunks, one for each element of the joined text. -/
def endings (chunks : List (List α)) : List Bool := chunks.flatMap (ending blank)

/-- Behind the first non-blank element of the text, both chunkings flag the same
elements. -/
def SameEnds (chunks chunks' : List (List α)) : Prop :=
  (endings blank chunks).drop (chunks.flatten.takeWhile blank).length =
    (endings blank chunks').drop (chunks'.flatten.takeWhile blank).length

instance (chunks chunks' : List (List α)) : Decidable (SameEnds blank chunks chunks') :=
  inferInstanceAs (Decidable (_ = _))

private abbrev Marked (α : Type u) := List (α × Bool)

private def marked : List α → Marked α
  | [] => []
  | x :: rest => (x, (x :: rest).all blank) :: marked rest

private def kept (m : Marked α) : List α := (m.filter (fun x => !x.2)).map Prod.fst

private def lead (l : List α) : Nat := (l.takeWhile blank).length

/-- Only blanks are flagged, and an unflagged blank stands in front of another
unflagged element: its chunk goes on to a non-blank one. -/
private def Coherent : Marked α → Prop
  | [] => True
  | (x, flag) :: rest => (blank x = false → flag = false) ∧
      (blank x = true → flag = false → ∃ y m, rest = (y, false) :: m) ∧ Coherent rest

variable {blank}

private theorem marked_fst (c : List α) : (marked blank c).map Prod.fst = c := by
  induction c with
  | nil => rfl
  | cons x c ih => simp [marked, ih]

private theorem marked_snd (c : List α) : (marked blank c).map Prod.snd = ending blank c := by
  induction c with
  | nil => rfl
  | cons x c ih => simp [marked, ending, ih]

private theorem kept_append (m n : Marked α) : kept (m ++ n) = kept m ++ kept n := by
  simp [kept]

private theorem kept_marked (c : List α) : kept (marked blank c) = c.rdropWhile blank := by
  induction c with
  | nil => rfl
  | cons x c ih =>
    have whole : (x :: c).rdropWhile blank =
        if (x :: c).all blank then [] else x :: c.rdropWhile blank := by
      split
      · rename_i all
        exact List.rdropWhile_eq_nil_iff.mpr (by simpa using all)
      · rename_i some_solid
        have split_off := rdropWhile_append blank [x] c
        rw [List.singleton_append, List.rdropWhile_singleton] at split_off
        rw [split_off]
        split
        · rename_i none
          have blanks := List.rdropWhile_eq_nil_iff.mp none
          have solid_x : ¬ blank x = true := by
            intro h
            exact some_solid (by simpa [h] using blanks)
          rw [if_neg solid_x, none]
        · rfl
    have step : kept (marked blank (x :: c)) =
        if (x :: c).all blank then kept (marked blank c) else x :: kept (marked blank c) := by
      by_cases all : (x :: c).all blank = true
      · simp [marked, kept, all]
      · simp [marked, kept, all]
    rw [step, whole, ih]
    split
    · rename_i all
      refine List.rdropWhile_eq_nil_iff.mpr ?_
      simp only [List.all_cons, Bool.and_eq_true, List.all_eq_true] at all
      exact all.2
    · rfl

private theorem coherent_append (c : List α) (m : Marked α) (coherent : Coherent blank m) :
    Coherent blank (marked blank c ++ m) := by
  induction c with
  | nil => exact coherent
  | cons x c ih =>
    refine ⟨?_, ?_, ih⟩
    · intro solid_x
      simp [solid_x]
    · intro blank_x unflagged
      cases c with
      | nil => simp [blank_x] at unflagged
      | cons y c =>
        refine ⟨y, marked blank c ++ m, ?_⟩
        have same : (y :: c).all blank = false := by simpa [blank_x] using unflagged
        rw [marked, same]
        rfl

private theorem coherent_chunks (chunks : List (List α)) :
    Coherent blank (chunks.flatMap (marked blank)) := by
  induction chunks with
  | nil => trivial
  | cons c chunks ih => exact coherent_append c _ ih

private theorem Coherent.drop {m : Marked α} (coherent : Coherent blank m) (n : Nat) :
    Coherent blank (m.drop n) := by
  induction n generalizing m with
  | zero => exact coherent
  | succ n ih =>
    cases m with
    | nil => trivial
    | cons x m => exact ih coherent.2.2

private theorem lead_kept_le {m : Marked α} (coherent : Coherent blank m) :
    lead blank (kept m) ≤ lead blank (m.map Prod.fst) := by
  induction m with
  | nil => exact le_rfl
  | cons x m ih =>
    obtain ⟨x, flag⟩ := x
    have rest := ih coherent.2.2
    cases blank_x : blank x with
    | false =>
      have unflagged := coherent.1 blank_x
      simp [unflagged, kept, lead, blank_x]
    | true =>
      cases flag with
      | true =>
        refine le_trans ?_ (rest.trans ?_)
        · simp [kept]
        · simp [lead, blank_x]
      | false => simpa [kept, lead, blank_x] using rest

private theorem lead_kept_eq {y : α} {m : Marked α} (coherent : Coherent blank ((y, false) :: m)) :
    lead blank (kept ((y, false) :: m)) = lead blank (y :: m.map Prod.fst) := by
  induction m generalizing y with
  | nil => simp [kept, lead]
  | cons z m ih =>
    cases blank_y : blank y with
    | false => simp [kept, lead, blank_y]
    | true =>
      obtain ⟨w, m', same⟩ := coherent.2.1 blank_y rfl
      obtain ⟨rfl, rfl⟩ := List.cons.inj same
      have rest := ih coherent.2.2
      simp only [kept, lead, Bool.not_false, List.filter_cons_of_pos, List.map_cons,
        List.takeWhile_cons, blank_y, if_true, List.length_cons] at rest ⊢
      omega

private theorem kept_flagged_ne {x : α} {m m' : Marked α} (same : m.map Prod.fst = m'.map Prod.fst)
    (coherent : Coherent blank m) (coherent' : Coherent blank ((x, false) :: m'))
    (blank_x : blank x = true) : kept m ≠ kept ((x, false) :: m') := by
  intro equal
  have short := lead_kept_le coherent
  have long := lead_kept_eq coherent'
  rw [← equal] at long
  simp only [lead, List.takeWhile_cons, blank_x, if_true, List.length_cons, ← same] at short long
  omega

/-- The surviving elements determine the flags. -/
private theorem kept_eq_iff {m m' : Marked α} (same : m.map Prod.fst = m'.map Prod.fst)
    (coherent : Coherent blank m) (coherent' : Coherent blank m') :
    kept m = kept m' ↔ m = m' := by
  refine ⟨?_, fun h => h ▸ rfl⟩
  induction m generalizing m' with
  | nil =>
    intro _
    exact (List.map_eq_nil_iff.mp same.symm).symm
  | cons x m ih =>
    cases m' with
    | nil => simp at same
    | cons x' m' =>
      obtain ⟨x, flag⟩ := x
      obtain ⟨x', flag'⟩ := x'
      simp only [List.map_cons, List.cons.injEq] at same
      obtain ⟨rfl, rest⟩ := same
      have tail := ih rest coherent.2.2 coherent'.2.2
      intro equal
      cases blank_x : blank x with
      | false =>
        obtain rfl := coherent.1 blank_x
        obtain rfl := coherent'.1 blank_x
        rw [tail (by simpa [kept] using equal)]
      | true =>
        cases flag <;> cases flag'
        · rw [tail (by simpa [kept] using equal)]
        · exact absurd (by simpa [kept] using equal.symm)
            (kept_flagged_ne rest.symm coherent'.2.2 coherent blank_x)
        · exact absurd (by simpa [kept] using equal)
            (kept_flagged_ne rest coherent.2.2 coherent' blank_x)
        · rw [tail (by simpa [kept] using equal)]

private theorem kept_dropWhile {m : Marked α} (coherent : Coherent blank m) :
    (kept m).dropWhile blank = kept (m.drop (lead blank (m.map Prod.fst))) := by
  induction m with
  | nil => rfl
  | cons x m ih =>
    obtain ⟨x, flag⟩ := x
    cases blank_x : blank x with
    | false =>
      obtain rfl := coherent.1 blank_x
      simp [kept, lead, blank_x]
    | true =>
      have rest := ih coherent.2.2
      cases flag <;> simpa [kept, lead, blank_x] using rest

private theorem marked_chunks_fst (chunks : List (List α)) :
    (chunks.flatMap (marked blank)).map Prod.fst = chunks.flatten := by
  induction chunks with
  | nil => rfl
  | cons c chunks ih => simp [marked_fst, ih]

private theorem marked_chunks_snd (chunks : List (List α)) :
    (chunks.flatMap (marked blank)).map Prod.snd = endings blank chunks := by
  simp [List.map_flatMap, marked_snd, endings]

private theorem kept_chunks (chunks : List (List α)) :
    kept (chunks.flatMap (marked blank)) = chunks.flatMap (·.rdropWhile blank) := by
  induction chunks with
  | nil => rfl
  | cons c chunks ih => rw [List.flatMap_cons, kept_append, kept_marked, ih, List.flatMap_cons]

private theorem accumulate_marked (chunks : List (List α)) :
    accumulate blank chunks =
      kept ((chunks.flatMap (marked blank)).drop (lead blank chunks.flatten)) := by
  rw [accumulate_eq, ← kept_chunks, kept_dropWhile (coherent_chunks chunks), marked_chunks_fst]

/-- Two chunkings of the same text leave the same buffer exactly when the same
blanks behind the first word end their chunk. -/
theorem accumulate_eq_iff {chunks chunks' : List (List α)}
    (same : chunks.flatten = chunks'.flatten) :
    accumulate blank chunks = accumulate blank chunks' ↔ SameEnds blank chunks chunks' := by
  let behind (cs : List (List α)) : Marked α :=
    (cs.flatMap (marked blank)).drop (lead blank cs.flatten)
  have texts : (behind chunks).map Prod.fst = (behind chunks').map Prod.fst := by
    simp only [behind, List.map_drop, marked_chunks_fst, same]
  have flags (cs : List (List α)) : (behind cs).map Prod.snd =
      (endings blank cs).drop (lead blank cs.flatten) := by
    simp only [behind, List.map_drop, marked_chunks_snd]
  have coherent (cs : List (List α)) : Coherent blank (behind cs) := (coherent_chunks cs).drop _
  rw [accumulate_marked, accumulate_marked]
  change kept (behind chunks) = kept (behind chunks') ↔ _
  rw [kept_eq_iff texts (coherent chunks) (coherent chunks')]
  constructor
  · intro equal
    change (endings blank chunks).drop (lead blank chunks.flatten) = _
    rw [← flags, equal, flags]
    rfl
  · intro ends
    have equal : (behind chunks).map Prod.snd = (behind chunks').map Prod.snd := by
      rw [flags, flags]
      exact ends
    rw [List.zip_of_prod texts equal]
    exact (List.zip_of_prod rfl rfl).symm

theorem iff_of_forall₂ {β : Type v} {J R S : α → β → Prop} {l : List α} {m : List β}
    (given : List.Forall₂ J l m) (same : ∀ a b, J a b → (R a b ↔ S a b)) :
    List.Forall₂ R l m ↔ List.Forall₂ S l m :=
  ⟨given.mp fun a b pair => (same a b pair).mp, given.mp fun a b pair => (same a b pair).mpr⟩

end TheNews.Text.ChunkEnds
