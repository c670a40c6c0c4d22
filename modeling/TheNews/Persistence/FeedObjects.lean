/- TheNews/Persistence/FeedObjects
   digest: The feed screen over a Realm: its articles are objects of no Realm, so
   its calls all return, its marks stay in memory and the file is never written. -/

import TheNews.NewsFeed.History
import TheNews.Persistence.RealmManager
import TheNews.Transition.Simulation

set_option autoImplicit false
set_option relaxedAutoImplicit false

namespace TheNews.Persistence

open TheNews.Transition.Runs TheNews.Extensions TheNews.NewsFeed
open TheNews.UserDefault (getBankiURlString)

/-- What an action of the feed screen does with NewsModel objects: the loop creates
one for each item, a cell reads one, and a tap marks one. -/
def realmCalls (s : FeedScreen) : FeedAction → List RealmAction
  | .runCompletion op => op.newsItem.map fun el => .initNewsModel (NewsModel.ofItem el)
  | .cellForRowAt row => (s.controller.viewModel.newsItem[row]?).toList.map .get
  | .didSelectRowAt row => (s.controller.viewModel.newsItem[row]?).toList.map (.makeItRead · true)
  | _ => []

/-- The process of a screen with these objects, over this file. -/
def unsavedDevice (file : List NewsModel) (objects : List NewsModel) : Device :=
  .running { Realm.opened file with objects := objects.map .unmanaged }

section Calls
variable {file objects : List NewsModel} {ref : Ref} {news : NewsModel}

private theorem initAll (file objects : List NewsModel) (newsItem : List NewsModel) :
    Steps (Moves Device.step) (unsavedDevice file objects) (newsItem.map .initNewsModel)
      (unsavedDevice file (objects ++ newsItem)) := by
  induction newsItem generalizing objects with
  | nil => simpa using Steps.refl
  | cons news rest ih =>
    have created : Moves Device.step (unsavedDevice file objects) (.initNewsModel news)
        (unsavedDevice file (objects ++ [news])) := by
      simp [Moves, Device.step, unsavedDevice, RealmAction.arguments, RealmAction.perform,
        Realm.initNewsModel, Realm.opened]
    have later := ih (objects ++ [news])
    rw [List.append_assoc, List.singleton_append] at later
    exact (Steps.single created).trans later

private theorem get_unsaved (there : objects[ref]? = some news) :
    Moves Device.step (unsavedDevice file objects) (.get ref) (unsavedDevice file objects) := by
  obtain ⟨bound, -⟩ := List.getElem?_eq_some_iff.mp there
  simp [Moves, Device.step, unsavedDevice, RealmAction.arguments, RealmAction.perform, Realm.get,
    Realm.opened, bound]

private theorem makeItRead_unsaved (there : objects[ref]? = some news) :
    Moves Device.step (unsavedDevice file objects) (.makeItRead ref true)
      (unsavedDevice file (objects.set ref { news with isReading := true })) := by
  obtain ⟨bound, rfl⟩ := List.getElem?_eq_some_iff.mp there
  simp [Moves, Device.step, unsavedDevice, RealmAction.arguments, RealmAction.perform,
    RealmManager.makeItRead, Realm.write, Realm.beginWrite, Realm.setValue, Realm.commitWrite,
    Realm.opened, bound, List.map_set]

end Calls

variable {foundation : Foundation} {trace : FeedTrace} {s t : FeedScreen} {a : FeedAction}

private theorem getElem?_newsItem (coherent : Coherent foundation s.controller) {row : Nat}
    {news : NewsModel} (there : s.controller.objects[row]? = some news) :
    s.controller.viewModel.newsItem[row]? = some row := by
  obtain ⟨bound, -⟩ := List.getElem?_eq_some_iff.mp there
  simp [coherent.newsItem, bound]

private theorem calls_return (file : List NewsModel) (coherent : Coherent foundation s.controller)
    (move : s.step foundation a = .next t) :
    Steps (Moves Device.step) (unsavedDevice file s.controller.objects) (realmCalls s a)
      (unsavedDevice file t.controller.objects) := by
  cases coherent.step_effect move with
  | table cells onlyTable redrawn =>
    cases a with
    | viewWillAppear => exact .refl
    | cellForRowAt row =>
      cases there : s.controller.objects[row]? with
      | none =>
        have outside : s.controller.viewModel.newsItem[row]? = none := by
          simpa [coherent.newsItem] using there
        rw [realmCalls, outside]
        exact .refl
      | some news =>
        rw [realmCalls, getElem?_newsItem coherent there]
        exact .single (get_unsaved there)
    | _ => cases onlyTable
  | load source loads =>
    cases a with
    | refresh => exact .refl
    | updateSource source => exact .refl
    | _ => cases loads
  | respond load response flying => exact .refl
  | runCompletion op pending =>
    have created := initAll file s.controller.objects (op.newsItem.map NewsModel.ofItem)
    rw [List.map_map] at created
    exact created
  | didSelectRowAt row news there =>
    rw [realmCalls, getElem?_newsItem coherent there]
    exact .single (makeItRead_unsaved there)

/-- In every run of the feed screen, over any file that opens and takes writes, the
calls all return and leave file and table as they were, and the objects of the
process are the screen's, none of them in the Realm. -/
theorem feedRun_calls (file : List NewsModel) (run : FeedRun foundation trace s) :
    Steps (Moves Device.step) (.running (Realm.opened file))
      (trace.flatMap fun x => realmCalls x.1 x.2) (unsavedDevice file s.controller.objects) := by
  obtain ⟨d, steps, rfl⟩ := run.simulated
    (fun s d => d = unsavedDevice file s.controller.objects) realmCalls rfl
    fun _ s a t d prior here move =>
      ⟨_, here ▸ calls_return file (Coherent.run prior) move, rfl⟩
  exact steps

theorem feedRun_calls_tap :
    ∃ trace s, FeedRun moscow trace s ∧
      s.controller.objects = [{ NewsModel.ofItem wednesdayNews with isReading := true }] ∧
      Steps (Moves Device.step) (.running (Realm.opened [NewsModel.ofItem thursdayNews]))
        (trace.flatMap fun x => realmCalls x.1 x.2)
        (unsavedDevice [NewsModel.ofItem thursdayNews] s.controller.objects) := by
  have run : FeedRun moscow _ _ := Run.replay
    [.respond ⟨getBankiURlString⟩ (.document (rssDocument [wednesdayNews])),
      .runCompletion ⟨⟨getBankiURlString⟩, [wednesdayNews]⟩, .viewWillAppear,
      .didSelectRowAt 0] rfl
  exact ⟨_, _, run, rfl, feedRun_calls _ run⟩

end TheNews.Persistence
