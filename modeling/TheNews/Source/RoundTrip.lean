/- TheNews/Source/RoundTrip
   digest: Loading a saved list gives it back unmarked, and saving a loaded list
   gives back the dictionary it was loaded from. -/

import TheNews.Source.SourceViewModel

set_option autoImplicit false
set_option relaxedAutoImplicit false

namespace TheNews.Source.RoundTrip

open TheNews.UserDefault UserDefaultManager
open SourceViewModel (unmarked)

/-- A dictionary with the two keys and no other, whose arrays have one length. -/
structure IsColumns (dict : Dictionary) : Prop where
  keys : ∀ key, (dict key).isSome = true ↔ key = sourceTitleKey ∨ key = sourceURLKey
  lengths : (dict sourceTitleKey).map List.length = (dict sourceURLKey).map List.length

theorem sources_of_saved (loader saver : SourceViewModel) (d : UserDefaults) :
    loader.loadSources (saver.saveSourcesInUserDefaults d) = some { loader with
      sources := saver.sources.map fun source => { source with isCurrent := false } } := by
  rw [SourceViewModel.saveSourcesInUserDefaults_eq, SourceViewModel.loadSources_eq]
  simp [unmarked]

private theorem eq_columns {dict : Dictionary} (columns : IsColumns dict) :
    ∃ titles urls : List String, titles.length = urls.length ∧ dict = fun key =>
      if key = sourceTitleKey then some titles
      else if key = sourceURLKey then some urls
      else none := by
  obtain ⟨titles, hasTitles⟩ :=
    Option.isSome_iff_exists.mp ((columns.keys sourceTitleKey).mpr (.inl rfl))
  obtain ⟨urls, hasURLs⟩ :=
    Option.isSome_iff_exists.mp ((columns.keys sourceURLKey).mpr (.inr rfl))
  have lengths := columns.lengths
  rw [hasTitles, hasURLs, Option.map_some, Option.map_some, Option.some.injEq] at lengths
  refine ⟨titles, urls, lengths, ?_⟩
  funext key
  by_cases title : key = sourceTitleKey
  · rw [if_pos title, title, hasTitles]
  by_cases url : key = sourceURLKey
  · rw [if_neg title, if_pos url, url, hasURLs]
  · rw [if_neg title, if_neg url]
    have absent := mt (columns.keys key).mp (not_or.mpr ⟨title, url⟩)
    simpa using absent

theorem saved_of_loaded (loader : SourceViewModel) {d : UserDefaults} {dict : Dictionary}
    (stored : d.value userSessionKey = some (.dictionary dict)) (columns : IsColumns dict) :
    ∃ loaded, loader.loadSources d = some loaded ∧ loaded.saveSourcesInUserDefaults d = d := by
  obtain ⟨titles, urls, lengths, rfl⟩ := eq_columns columns
  have unchanged : saveSources d titles urls = d := by
    rw [saveSources, UserDefaults.set, ← stored]
    exact Function.update_eq_self _ _
  have getTitles : getSourcesTitle d = titles := by
    rw [← unchanged, getSourcesTitle_saveSources]
  have getURLs : getSourcesURL d = urls := by
    rw [← unchanged, getSourcesURL_saveSources]
  rw [SourceViewModel.loadSources_eq, getTitles, getURLs, if_pos (Nat.le_of_eq lengths)]
  refine ⟨_, rfl, ?_⟩
  have pairs : List.zipWith unmarked titles urls =
      (titles.zip urls).map fun pair => unmarked pair.1 pair.2 := by
    rw [List.zip_eq_zipWith, List.map_zipWith]
  have titleColumn : (List.zipWith unmarked titles urls).map (·.title) = titles := by
    rw [pairs, List.map_map]
    exact List.map_fst_zip (Nat.le_of_eq lengths)
  have urlColumn : (List.zipWith unmarked titles urls).map (·.url) = urls := by
    rw [pairs, List.map_map]
    exact List.map_snd_zip (Nat.le_of_eq lengths.symm)
  rw [SourceViewModel.saveSourcesInUserDefaults_eq, titleColumn, urlColumn, unchanged]

/-- Loading undoes saving, and saving undoes loading. -/
theorem roundTrip (d : UserDefaults) :
    (∀ loader saver : SourceViewModel,
      loader.loadSources (saver.saveSourcesInUserDefaults d) = some { loader with
        sources := saver.sources.map fun source => { source with isCurrent := false } }) ∧
    ∀ (loader : SourceViewModel) (dict : Dictionary),
      d.value userSessionKey = some (.dictionary dict) → IsColumns dict →
        ∃ loaded, loader.loadSources d = some loaded ∧ loaded.saveSourcesInUserDefaults d = d :=
  ⟨fun loader saver => sources_of_saved loader saver d,
    fun loader _ stored columns => saved_of_loaded loader stored columns⟩

theorem roundTrip_twoSources :
    ∃ loaded, ({} : SourceViewModel).loadSources (saveSources (fun _ => none)
        ["Banki.ru", "Finam.ru"] [getBankiURlString, getFinamURlString]) = some loaded ∧
      loaded.saveSourcesInUserDefaults (saveSources (fun _ => none)
        ["Banki.ru", "Finam.ru"] [getBankiURlString, getFinamURlString]) =
          saveSources (fun _ => none) ["Banki.ru", "Finam.ru"]
            [getBankiURlString, getFinamURlString] :=
  (roundTrip _).2 {} _ rfl ⟨fun key => by
    by_cases title : key = sourceTitleKey <;> simp [title], rfl⟩

end TheNews.Source.RoundTrip
