/- TheNews/MainTabBar/AppTraps
   digest: The one action of the whole app that can trap is the opening of the source
   tab, and whether it does is settled by what UserDefaults holds at the first launch. -/

import TheNews.MainTabBar.TwoTabs
import TheNews.NewsFeed.History
import TheNews.Source.LaunchTraps

set_option autoImplicit false
set_option relaxedAutoImplicit false

namespace TheNews.MainTabBar.AppTraps

open TheNews.Transition.Runs TheNews.Extensions TheNews.NewsFeed
open TheNews.Source (SourceModel SourceViewModel SourceViewController SourceScreen SourceAction)
open TheNews.Source.RowBounds TheNews.Source.LaunchTraps
open TheNews.UserDefault UserDefaultManager
open TwoTabs

/-- No run pairs the saved columns or sets them apart, and the source screen is only
up over paired ones. -/
structure Guarded (d : UserDefaults) (s : App) : Prop where
  paired : Paired s.userDefaults ↔ Paired d
  opened : ∀ controller, s.source = some controller →
    Paired s.userDefaults ∧ Counted ⟨controller, s.userDefaults⟩

variable {foundation : Foundation} {count : String → Nat} {d : UserDefaults} {s t : App}
  {a : AppAction}

private theorem viewDidLoad_eq_none_iff :
    SourceViewController.viewDidLoad d = none ↔ ¬ Paired d := by
  rw [← loadSources_isSome, ← Option.isSome_iff_exists, Option.not_isSome_iff_eq_none,
    SourceViewController.viewDidLoad]
  cases ({} : SourceViewModel).loadSources d <;> simp

private theorem guarded_step (assembled : Assembled foundation s) (before : Guarded d s)
    (move : s.step foundation count a = .next t) : Guarded d t := by
  cases step_effect assembled move with
  | launch => exact ⟨before.paired, nofun⟩
  | openSource loaded load =>
    refine ⟨before.paired, fun controller shown => ?_⟩
    obtain rfl := Option.some.inj shown
    exact ⟨(loadSources_isSome _).mp ⟨loaded, load⟩, .inl rfl⟩
  | feed a feed coherent same => exact ⟨before.paired, before.opened⟩
  | source a controller screen told isOpen effect running =>
    obtain ⟨paired, counted⟩ := before.opened controller isOpen
    rw [step_source_open s assembled.undelegated isOpen running] at move
    obtain ⟨after, move, same⟩ := Outcome.map_eq_next.mp move
    have still := paired_step paired move
    rw [← same]
    refine ⟨iff_of_true still (before.paired.mp paired), fun controller shown => ?_⟩
    obtain rfl := Option.some.inj shown
    exact ⟨still, counted_step counted move⟩

private theorem run_guarded {trace : Trace App AppAction}
    (run : Run (App.step foundation count) (App.launched foundation d) trace s) :
    Assembled foundation s ∧ Guarded d s := by
  refine run.state_invariant (fun s => Assembled foundation s ∧ Guarded d s) ?_ ?_
  · have launched : Run (App.step foundation count) (App.launched foundation d) [] _ := .refl
    exact ⟨Assembled.run launched, .rfl, nofun⟩
  · intro s a t before move
    exact ⟨before.1.step move, guarded_step before.1 before.2 move⟩

private theorem openSource_trapped_iff :
    s.step foundation count .openSource = .trapped ↔ s.source = none ∧ ¬ Paired s.userDefaults := by
  rw [← viewDidLoad_eq_none_iff]
  simp only [App.step]
  cases s.source with
  | some controller => simp
  | none => cases SourceViewController.viewDidLoad s.userDefaults <;> simp

/-- In every run of the app, over any store, an action traps exactly if it opens the
source tab of a launch over a store that held more titles than URLs to begin with:
then it does after every launch, and otherwise nothing does in either tab. A tap
opens and writes the Realm file, which is taken to succeed. -/
theorem trapped_iff {trace : Trace App AppAction}
    (run : Run (App.step foundation count) (App.launched foundation d) trace s) (a : AppAction) :
    s.step foundation count a = .trapped ↔
      a = .openSource ∧ s.source = none ∧
        (getSourcesURL d).length < (getSourcesTitle d).length := by
  obtain ⟨assembled, guarded⟩ := run_guarded run
  rw [← not_le, ← Paired, ← guarded.paired]
  cases a with
  | launch => simp [App.step]
  | openSource => simpa using openSource_trapped_iff
  | feed a =>
    refine iff_of_false ?_ (by simp)
    cases a with
    | updateSource source => simp [App.step]
    | _ =>
      simp only [App.step]
      intro trapped
      exact assembled.coherent.step_ne_trapped (Outcome.map_eq_trapped.mp trapped)
  | source a =>
    refine iff_of_false ?_ (by simp)
    by_cases launch : a = .launch
    · subst launch
      simp [App.step]
    · cases isOpen : s.source with
      | none => cases a <;> simp [App.step, isOpen]
      | some controller =>
        rw [step_source_open s assembled.undelegated isOpen launch]
        intro trapped
        obtain ⟨-, counted⟩ := guarded.opened controller isOpen
        exact counted_ne_trapped counted launch (Outcome.map_eq_trapped.mp trapped)

theorem trapped_iff_relaunched :
    ∃ trace s, Run (App.step moscow String.length)
        (App.launched moscow (saveSources (fun _ => none) ["Banki.ru", "Finam.ru"] [])) trace s ∧
      trace.map Prod.snd = [.feed .refresh, .launch] ∧
      s.step moscow String.length .openSource = .trapped := by
  have run : Run (App.step moscow String.length)
      (App.launched moscow (saveSources (fun _ => none) ["Banki.ru", "Finam.ru"] [])) _ _ :=
    Run.replay [.feed .refresh, .launch] rfl
  exact ⟨_, _, run, rfl, (trapped_iff run .openSource).mpr ⟨rfl, rfl, by decide⟩⟩

end TheNews.MainTabBar.AppTraps
