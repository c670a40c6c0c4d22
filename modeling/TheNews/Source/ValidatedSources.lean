/- TheNews/Source/ValidatedSources
   digest: Only sources that pass the two checks of the add alert are ever shown
   or saved. -/

import TheNews.Source.SourceViewController

set_option autoImplicit false
set_option relaxedAutoImplicit false

namespace TheNews.Source.ValidatedSources

open TheNews.Transition.Runs TheNews.UserDefault UserDefaultManager TheNews.Extensions
open SourceViewModel (unmarked)

variable (count : String → Nat)

def Valid (title url : String) : Prop :=
  isValidTitle count title = true ∧ isValidURL count url = true

def ValidSources (sources : List SourceModel) : Prop :=
  ∀ source ∈ sources, Valid count source.title source.url

/-- Both arrays saved under FeedNews, as far as they are there. -/
structure ValidStore (d : UserDefaults) : Prop where
  titles : ∀ saved, savedDictionary d sourceTitleKey = some saved →
    ∀ title ∈ saved, isValidTitle count title = true
  urls : ∀ saved, savedDictionary d sourceURLKey = some saved →
    ∀ url ∈ saved, isValidURL count url = true

structure Validated (s : SourceScreen) : Prop where
  sources : ValidSources count s.controller.viewModel.sources
  store : ValidStore count s.userDefaults

/-- A pressed Save would read two valid texts. -/
def SaveGuarded (s : SourceScreen) : Prop :=
  ∀ alert, s.shownAlert = some alert → alert.saveIsEnabled = true →
    Valid count alert.titleText alert.urlText

variable {count}

theorem saveGuarded_step {s t : SourceScreen} {a : SourceAction}
    (guarded : SaveGuarded count s) (move : s.step count a = .next t) : SaveGuarded count t := by
  have kept (same : t.controller.alert = s.controller.alert) : SaveGuarded count t := by
    intro alert shown
    rw [SourceScreen.shownAlert, same] at shown
    exact guarded alert shown
  cases SourceScreen.step_display move with
  | fresh unread closed => simp [SaveGuarded, SourceScreen.shownAlert, closed]
  | alert only checked => exact fun alert shown enabled => (checked alert shown enabled).symm
  | still same => exact kept (by rw [same])
  | reload counted alert =>
    rcases alert with same | closed
    · exact kept same
    · simp [SaveGuarded, closed]

/-! The lists a launch falls back to -/

private theorem validTitle_default (graphemes : Graphemes count) {title : String}
    (default : title ∈ ["Banki.ru", "Finam.ru"]) : isValidTitle count title = true := by
  have checked : title.toList.all (fun c => c.toNat < 128 && c != '\r') = true := by
    revert title
    decide
  have ascii : ∀ c ∈ title.toList, c.toNat < 128 ∧ c ≠ '\r' := by
    simpa using List.all_eq_true.mp checked
  rw [isValidTitle, graphemes.ascii title ascii]
  clear checked ascii
  revert title
  decide

private theorem validURL_default (graphemes : Graphemes count) {url : String}
    (default : url ∈ [getBankiURlString, getFinamURlString]) : isValidURL count url = true := by
  have nonempty : url ≠ "" := by
    revert url
    decide
  have counted : 0 < count url :=
    Nat.pos_of_ne_zero fun zero => nonempty ((graphemes.empty url).mp zero)
  rw [isValidURL, decide_eq_true counted, Bool.true_and]
  clear nonempty counted
  revert url
  decide +kernel

/-! Loading and saving -/

private theorem validSources_of_saved {sources sources' : List SourceModel}
    (valid : ValidSources count sources)
    (same : sources'.map SourceModel.saved = sources.map SourceModel.saved) :
    ValidSources count sources' := by
  intro source member
  have saved := List.mem_map_of_mem (f := SourceModel.saved) member
  rw [same, List.mem_map] at saved
  obtain ⟨other, there, equal⟩ := saved
  obtain ⟨title, url⟩ := Prod.mk.inj equal
  rw [← title, ← url]
  exact valid other there

private theorem validStore_of_absent {d : UserDefaults} (absent : d.value userSessionKey = none) :
    ValidStore count d := by
  have empty : savedDictionary d = fun _ => none := by simp [savedDictionary, absent]
  constructor <;> simp [empty]

private theorem validStore_saved {viewModel : SourceViewModel} (d : UserDefaults)
    (valid : ValidSources count viewModel.sources) :
    ValidStore count (viewModel.saveSourcesInUserDefaults d) := by
  rw [SourceViewModel.saveSourcesInUserDefaults_eq]
  constructor
  · intro saved isSaved title member
    rw [savedDictionary_saveSources_title] at isSaved
    obtain rfl := Option.some.inj isSaved
    obtain ⟨source, there, rfl⟩ := List.mem_map.mp member
    exact (valid source there).1
  · intro saved isSaved url member
    rw [savedDictionary_saveSources_url] at isSaved
    obtain rfl := Option.some.inj isSaved
    obtain ⟨source, there, rfl⟩ := List.mem_map.mp member
    exact (valid source there).2

private theorem validTitle_read (graphemes : Graphemes count) {d : UserDefaults}
    (valid : ValidStore count d) :
    ∀ title ∈ getSourcesTitle d, isValidTitle count title = true := by
  rw [getSourcesTitle, UserDetails.ofJson]
  cases saved : savedDictionary d sourceTitleKey with
  | none => exact fun title => validTitle_default graphemes
  | some titles => exact valid.titles titles saved

private theorem validURL_read (graphemes : Graphemes count) {d : UserDefaults}
    (valid : ValidStore count d) :
    ∀ url ∈ getSourcesURL d, isValidURL count url = true := by
  rw [getSourcesURL, UserDetails.ofJson]
  cases saved : savedDictionary d sourceURLKey with
  | none => exact fun url => validURL_default graphemes
  | some urls => exact valid.urls urls saved

private theorem validSources_loaded (graphemes : Graphemes count) {loaded : SourceViewModel}
    {d : UserDefaults} (valid : ValidStore count d)
    (load : ({} : SourceViewModel).loadSources d = some loaded) :
    ValidSources count loaded.setIsCurrent.sources := by
  refine validSources_of_saved ?_ (SourceViewModel.setIsCurrent_saved loaded)
  rw [SourceViewModel.loadSources_eq] at load
  split at load
  · obtain rfl := Option.some.inj load
    intro source member
    obtain ⟨i, bound, rfl⟩ := List.mem_iff_getElem.mp member
    rw [List.getElem_zipWith]
    exact ⟨validTitle_read graphemes valid _ (List.getElem_mem _),
      validURL_read graphemes valid _ (List.getElem_mem _)⟩
  · cases load

private theorem validated_step (graphemes : Graphemes count) {s t : SourceScreen}
    {a : SourceAction} (guarded : SaveGuarded count s) (before : Validated count s)
    (move : s.step count a = .next t) : Validated count t := by
  obtain ⟨told, effect⟩ := SourceScreen.step_effect move
  cases effect with
  | launch loaded load => exact ⟨validSources_loaded graphemes before.store load, before.store⟩
  | quiet vc quiet same => exact ⟨by rw [same]; exact before.sources, before.store⟩
  | save alert vc newSource shown enabled read added =>
    have valid : ValidSources count vc.viewModel.sources := by
      rw [added]
      intro source member
      rcases List.mem_append.mp member with old | new
      · exact validSources_of_saved before.sources
          (SourceViewModel.refreshIsCurrent_saved _) source old
      · rw [List.mem_singleton.mp new, read]
        exact guarded alert shown enabled
    exact ⟨valid, validStore_saved _ valid⟩
  | select row vc source newSource there copied marked =>
    refine ⟨?_, before.store⟩
    rw [marked]
    intro other member
    rcases List.mem_or_eq_of_mem_set member with old | rfl
    · exact validSources_of_saved before.sources
        (SourceViewModel.refreshIsCurrent_saved _) other old
    · rw [copied]
      exact before.sources source (List.mem_of_getElem? there)
  | delete row vc there removed =>
    refine ⟨?_, validStore_of_absent (value_clearUserData _)⟩
    rw [removed]
    exact fun source member => before.sources source (List.mem_of_mem_eraseIdx member)

/-- From a store without the key, every run shows and saves valid sources only. -/
theorem validated_throughout (graphemes : Graphemes count) {d : UserDefaults}
    (absent : d.value userSessionKey = none) {s₀ s : SourceScreen}
    (launched : SourceScreen.launched d = some s₀) {trace : Trace SourceScreen SourceAction}
    (run : Run (SourceScreen.step count) s₀ trace s) : Validated count s := by
  have store : ValidStore count d := validStore_of_absent absent
  obtain ⟨loaded, load, rfl⟩ := SourceScreen.launched_eq_some.mp launched
  have first : Validated count ⟨{ viewModel := loaded.setIsCurrent }, d⟩ :=
    ⟨validSources_loaded graphemes store load, store⟩
  have unopened : SaveGuarded count ⟨{ viewModel := loaded.setIsCurrent }, d⟩ := by
    simp [SaveGuarded, SourceScreen.shownAlert]
  have both := run.state_invariant (fun s => SaveGuarded count s ∧ Validated count s)
    ⟨unopened, first⟩ fun _ _ _ before move =>
      ⟨saveGuarded_step before.1 move, validated_step graphemes before.1 before.2 move⟩
  exact both.2

theorem validated_throughout_added :
    ∃ trace s, Run (SourceScreen.step String.length) SourceScreen.builtIn trace s ∧
      trace.map Prod.snd = [.viewWillAppear, .createAlert, .editURL "https://a.b/c",
        .editTitle "News", .save, .commitDelete 0] ∧
      Validated String.length s :=
  have run := (((((Run.refl.tail rfl).tail rfl).tail rfl).tail rfl).tail rfl).tail rfl
  ⟨_, _, run, rfl,
    validated_throughout graphemes_length rfl SourceScreen.launched_empty run⟩

end TheNews.Source.ValidatedSources
