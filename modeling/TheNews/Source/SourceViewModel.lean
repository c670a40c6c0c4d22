/- TheNews/Source/SourceViewModel
   models: Source/Models/SourceModel.swift, Source/ViewModels/SourceViewModel.swift
   digest: The list of sources, its mark, and the two loops that split it into the
   saved arrays and read it back by index. -/

import TheNews.UserDefault.UserDefaultManager
import Mathlib.Data.List.Basic

set_option autoImplicit false
set_option relaxedAutoImplicit false

namespace TheNews.Source

open TheNews.UserDefault UserDefaultManager

structure SourceModel where
  title : String := ""
  url : String := ""
  isCurrent : Bool := false
  deriving DecidableEq, Repr

/-- What of a source is saved. -/
def SourceModel.saved (s : SourceModel) : String × String := (s.title, s.url)

structure SourceViewModel where
  sources : List SourceModel :=
    [{ title := "Banki.ru", url := getBankiURlString, isCurrent := true },
      { title := "Finam.ru", url := getFinamURlString, isCurrent := false }]
  currentSource : Option SourceModel := none
  deriving DecidableEq, Repr

namespace SourceViewModel

def numberOfRows (viewModel : SourceViewModel) : Nat := viewModel.sources.length

def saveSourcesInUserDefaults (viewModel : SourceViewModel) (userDefault : UserDefaults) :
    UserDefaults :=
  let (sourcesTitle, sourcesURL) := viewModel.sources.foldl
    (fun (titles, urls) source => (titles ++ [source.title], urls ++ [source.url])) ([], [])
  saveSources userDefault sourcesTitle sourcesURL

/-- The body of the loop in loadSources; an index past the end of an array traps. -/
def loadSource (title url : List String) (sources : List SourceModel) (i : Nat) :
    Option (List SourceModel) := do
  let titleI ← title[i]?
  let urlI ← url[i]?
  return sources ++ [{ title := titleI, url := urlI, isCurrent := false }]

/-- `none` is the trap of an index out of bounds. -/
def loadSources (viewModel : SourceViewModel) (userDefault : UserDefaults) :
    Option SourceViewModel := do
  let title := getSourcesTitle userDefault
  let url := getSourcesURL userDefault
  let sources ← if title.isEmpty then some []
    else (List.range title.length).foldlM (loadSource title url) []
  return { viewModel with sources }

def refreshIsCurrent (viewModel : SourceViewModel) : SourceViewModel :=
  { viewModel with sources := viewModel.sources.map fun s => { s with isCurrent := false } }

def setIsCurrent (viewModel : SourceViewModel) : SourceViewModel :=
  match viewModel.sources with
  | [] => viewModel
  | first :: rest => { viewModel with sources := { first with isCurrent := true } :: rest }

theorem saveSourcesInUserDefaults_eq (viewModel : SourceViewModel) (d : UserDefaults) :
    viewModel.saveSourcesInUserDefaults d =
      saveSources d (viewModel.sources.map (·.title)) (viewModel.sources.map (·.url)) := by
  have columns (sources : List SourceModel) (titles urls : List String) :
      sources.foldl (fun (titles, urls) source =>
        (titles ++ [source.title], urls ++ [source.url])) (titles, urls) =
          (titles ++ sources.map (·.title), urls ++ sources.map (·.url)) := by
    induction sources generalizing titles urls with
    | nil => simp
    | cons s sources ih => simp [ih]
  simp [saveSourcesInUserDefaults, columns]

/-- The unmarked source of a saved title and URL. -/
def unmarked (title url : String) : SourceModel := { title, url, isCurrent := false }

private theorem loadLoop (title url : List String) (n : Nat) (bound : n ≤ title.length) :
    (List.range n).foldlM (loadSource title url) [] =
      if n ≤ url.length then some (List.zipWith unmarked (title.take n) (url.take n))
      else none := by
  induction n with
  | zero => simp
  | succ n ih =>
    rw [List.range_succ, List.foldlM_append, ih (by omega)]
    have titleN : title[n]? = some title[n] := List.getElem?_eq_getElem (by omega)
    by_cases enough : n + 1 ≤ url.length
    · have urlN : url[n]? = some url[n] := List.getElem?_eq_getElem (by omega)
      have loaded : loadSource title url (List.zipWith unmarked (title.take n) (url.take n)) n =
          some (List.zipWith unmarked (title.take n) (url.take n) ++
            [unmarked title[n] url[n]]) := by
        simp [loadSource, titleN, urlN, unmarked]
      have pairs : List.zipWith unmarked (title.take (n + 1)) (url.take (n + 1)) =
          List.zipWith unmarked (title.take n) (url.take n) ++ [unmarked title[n] url[n]] := by
        rw [List.take_succ_eq_append_getElem (by omega),
          List.take_succ_eq_append_getElem (by omega), List.zipWith_append (by simp; omega)]
        rfl
      simp only [if_pos (show n ≤ url.length by omega), if_pos enough, List.foldlM_cons,
        List.foldlM_nil, Option.bind_eq_bind, Option.bind_some, loaded, pairs, Option.pure_def]
    · have trap (sources : List SourceModel) (missing : url.length ≤ n) :
          loadSource title url sources n = none := by
        simp [loadSource, titleN, List.getElem?_eq_none missing]
      rw [if_neg enough]
      split
      · simp [trap _ (by omega)]
      · rfl

theorem loadSources_eq (viewModel : SourceViewModel) (d : UserDefaults) :
    viewModel.loadSources d =
      if (getSourcesTitle d).length ≤ (getSourcesURL d).length then
        some { viewModel with
          sources := List.zipWith unmarked (getSourcesTitle d) (getSourcesURL d) }
      else none := by
  let n := (getSourcesTitle d).length
  have loop := loadLoop (getSourcesTitle d) (getSourcesURL d) n (Nat.le_refl n)
  have whole : List.zipWith unmarked ((getSourcesTitle d).take n) ((getSourcesURL d).take n) =
      List.zipWith unmarked (getSourcesTitle d) (getSourcesURL d) := by
    rw [← List.take_zipWith, List.take_of_length_le]
    simp only [List.length_zipWith]
    exact Nat.min_le_left _ _
  rw [whole] at loop
  unfold loadSources
  by_cases empty : (getSourcesTitle d).isEmpty = true
  · simp [List.isEmpty_iff.mp empty]
  · simp only [empty, Bool.false_eq_true, if_false, loop, n]
    split <;> rfl

private theorem zipWith_columns (sources : List SourceModel) :
    (List.zipWith unmarked (sources.map (·.title)) (sources.map (·.url))).map SourceModel.saved =
      sources.map SourceModel.saved := by
  simp [unmarked, SourceModel.saved]

theorem loadSources_saveSources (viewModel saver : SourceViewModel) (d : UserDefaults) :
    ∃ loaded, viewModel.loadSources (saver.saveSourcesInUserDefaults d) = some loaded ∧
      loaded.sources.map SourceModel.saved = saver.sources.map SourceModel.saved := by
  rw [saveSourcesInUserDefaults_eq, loadSources_eq]
  simp only [getSourcesTitle_saveSources, getSourcesURL_saveSources, List.length_map, Nat.le_refl,
    if_true]
  exact ⟨_, rfl, zipWith_columns saver.sources⟩

/-- The list a launch shows when nothing has been saved. -/
def defaultSaved : List (String × String) :=
  [("Banki.ru", getBankiURlString), ("Finam.ru", getFinamURlString)]

theorem loadSources_of_absent (viewModel : SourceViewModel) {d : UserDefaults}
    (absent : d.value userSessionKey = none) :
    ∃ loaded, viewModel.loadSources d = some loaded ∧
      loaded.sources.map SourceModel.saved = defaultSaved := by
  obtain ⟨titles, urls⟩ := getSources_of_absent absent
  rw [loadSources_eq, titles, urls]
  exact ⟨_, rfl, rfl⟩

@[simp] theorem refreshIsCurrent_saved (viewModel : SourceViewModel) :
    viewModel.refreshIsCurrent.sources.map SourceModel.saved =
      viewModel.sources.map SourceModel.saved := by
  simp [refreshIsCurrent, SourceModel.saved]

@[simp] theorem setIsCurrent_saved (viewModel : SourceViewModel) :
    viewModel.setIsCurrent.sources.map SourceModel.saved =
      viewModel.sources.map SourceModel.saved := by
  unfold setIsCurrent
  split
  · rename_i none; simp [none]
  · rename_i first rest split; simp [split, SourceModel.saved]

end SourceViewModel

end TheNews.Source
