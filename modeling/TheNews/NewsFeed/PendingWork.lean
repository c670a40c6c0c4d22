/- TheNews/NewsFeed/PendingWork
   digest: No load is lost or answered twice, and what is pending settles in
   bounded time in whatever order it is dealt with. -/

import TheNews.NewsFeed.History
import TheNews.Transition.Simulation

set_option autoImplicit false
set_option relaxedAutoImplicit false

namespace TheNews.NewsFeed.PendingWork

open TheNews.Transition.Runs TheNews.Service.NewsParse TheNews.Extensions
open TheNews.UserDefault (getBankiURlString)

variable (foundation : Foundation)

/-- The load an action has started, if its source has a URL. -/
def starts (s : FeedScreen) (a : FeedAction) : Option Load :=
  (a.loads s).bind fun source => parseFeed foundation.url source.url

/-- The load of the first screen and those started since. -/
def issued (trace : FeedTrace) : List Load :=
  (parseFeed foundation.url getBankiURlString).toList ++
    trace.filterMap fun x => starts foundation x.1 x.2

variable {foundation}

def answers : FeedAction → Option Load
  | .respond load _ => some load
  | _ => none

/-- The loads that have ended. -/
def answered (trace : FeedTrace) : List Load := trace.filterMap fun x => answers x.2

/-- The steps that are up to the session and the main queue. -/
def settles : FeedAction → Bool
  | .respond _ _ | .runCompletion _ => true
  | _ => false

/-- A load takes at most two steps, its response and its completion. -/
def pending (s : FeedScreen) : Nat := 2 * s.inFlight.length + s.mainQueue.length

variable {trace rest : FeedTrace} {s t : FeedScreen} {a : FeedAction}

private theorem issued_tail : issued foundation (trace ++ [(s, a)]) =
    issued foundation trace ++ (starts foundation s a).toList := by
  cases started : starts foundation s a <;> simp [issued, started]

private theorem answered_tail : answered (trace ++ [(s, a)]) =
    answered trace ++ (answers a).toList := by
  cases ended : answers a <;> simp [answered, ended]

private theorem quiet_of_onlyTable (only : a.onlyTable = true) :
    settles a = false ∧ starts foundation s a = none ∧ answers a = none := by
  cases a with
  | viewWillAppear => exact ⟨rfl, rfl, rfl⟩
  | cellForRowAt row => exact ⟨rfl, rfl, rfl⟩
  | _ => cases only

private theorem quiet_of_loads {source : TheNews.Source.SourceModel}
    (loads : a.loads s = some source) : settles a = false ∧ answers a = none := by
  cases a with
  | refresh => exact ⟨rfl, rfl⟩
  | updateSource source => exact ⟨rfl, rfl⟩
  | _ => cases loads

/-- Every load issued has either ended or is in flight, each as often as it was
issued. -/
theorem answered_perm_issued (run : FeedRun foundation trace s) :
    (answered trace ++ s.inFlight).Perm (issued foundation trace) := by
  induction run with
  | refl =>
    have first : (FeedScreen.viewDidLoad foundation).inFlight =
        (parseFeed foundation.url getBankiURlString).toList := rfl
    simp [answered, issued, first]
  | tail prior move ih =>
    rename_i before s t a
    rw [issued_tail, answered_tail]
    cases (Coherent.run prior).step_effect move with
    | table cells onlyTable redrawn =>
      obtain ⟨-, unstarted, unanswered⟩ := @quiet_of_onlyTable foundation s a onlyTable
      rw [unstarted, unanswered]
      simpa using ih
    | load source loads =>
      have started : starts foundation s a = parseFeed foundation.url source.url := by
        simp [starts, loads]
      obtain ⟨-, unanswered⟩ := quiet_of_loads loads
      rw [started, unanswered, Option.toList_none, List.append_nil, ← List.append_assoc]
      exact ih.append_right _
    | respond load response flying =>
      have erased := (List.perm_cons_erase flying).symm.append_left (answered before)
      simp only [starts, FeedAction.loads, answers, FeedScreen.settle, Option.bind_none,
        Option.toList_none, Option.toList_some, List.append_nil, List.append_assoc,
        List.singleton_append]
      exact erased.trans ih
    | runCompletion op waiting => simpa [starts, FeedAction.loads, answers] using ih
    | didSelectRowAt row news there => simpa [starts, FeedAction.loads, answers] using ih

private theorem pending_step (coherent : Coherent foundation s.controller)
    (settling : settles a = true) (move : s.step foundation a = .next t) :
    pending t < pending s := by
  cases coherent.step_effect move with
  | table cells onlyTable redrawn =>
    have unsettling := (@quiet_of_onlyTable foundation s a onlyTable).1
    cases unsettling.symm.trans settling
  | load source loads =>
    obtain ⟨unsettling, -⟩ := quiet_of_loads loads
    cases unsettling.symm.trans settling
  | respond load response flying =>
    have shorter := List.length_erase_of_mem flying
    have some_left := List.length_pos_of_mem flying
    have one : (response.delivered.map (Completion.mk load)).toList.length ≤ 1 :=
      Option.length_toList_le
    simp only [pending, FeedScreen.settle, List.length_append, shorter]
    omega
  | runCompletion op waiting =>
    have shorter := List.length_erase_of_mem waiting
    have some_left := List.length_pos_of_mem waiting
    simp only [pending, shorter]
    omega
  | didSelectRowAt row news there => cases settling

private theorem settled_iff_blocked : pending s = 0 ↔
    ∀ a, settles a = true → s.step foundation a = .blocked := by
  constructor
  · intro settled a settling
    have none_flying : s.inFlight = [] := List.eq_nil_of_length_eq_zero (by
      unfold pending at settled; omega)
    have none_waiting : s.mainQueue = [] := List.eq_nil_of_length_eq_zero (by
      unfold pending at settled; omega)
    cases a with
    | respond load response => simp [FeedScreen.step, none_flying]
    | runCompletion op => simp [FeedScreen.step, none_waiting]
    | _ => cases settling
  · intro blocked
    cases flying : s.inFlight with
    | cons load rest =>
      have stuck := blocked (.respond load .noData) rfl
      simp [FeedScreen.step, flying] at stuck
    | nil =>
      cases waiting : s.mainQueue with
      | cons op rest =>
        have stuck := blocked (.runCompletion op) rfl
        simp [FeedScreen.step, waiting] at stuck
      | nil => simp [pending, flying, waiting]

/-- From any state of any run, in whatever order responses and operations come and
whatever they bring, they come to an end within two steps for each load in flight
and one for each operation; they cannot get stuck before nothing is pending; and
then every load issued has ended exactly once and every list delivered has been
shown exactly once. -/
theorem settles_in_bounded_time (run : FeedRun foundation trace s)
    (more : Run (FeedScreen.step foundation) s rest t) (only : ∀ x ∈ rest, settles x.2 = true) :
    rest.length + pending t ≤ pending s ∧
      ((∀ a, settles a = true → t.step foundation a = .blocked) →
        pending t = 0 ∧ (answered (trace ++ rest)).Perm (issued foundation trace) ∧
          (deliveries (trace ++ rest)).Perm (queued (trace ++ rest))) := by
  have whole := run.trans more
  have bound : rest.length + pending t ≤ pending s ∧
      issued foundation (trace ++ rest) = issued foundation trace := by
    induction more with
    | refl => simp
    | tail prior move ih =>
      rename_i rest s' t a
      have settling := only (s', a) (by simp)
      obtain ⟨earlier, same⟩ := ih (fun x member => only x (List.mem_append_left _ member))
        (run.trans prior)
      have less := pending_step (Coherent.run (run.trans prior)) settling move
      have unstarted : starts foundation s' a = none := by
        cases a with
        | respond load response => rfl
        | runCompletion op => rfl
        | _ => cases settling
      rw [← List.append_assoc, issued_tail, same, unstarted]
      refine ⟨?_, by simp⟩
      rw [List.length_append, List.length_singleton]
      omega
  refine ⟨bound.1, fun stuck => ?_⟩
  have settled := settled_iff_blocked.mpr stuck
  have none_flying : t.inFlight = [] := List.eq_nil_of_length_eq_zero (by
    unfold pending at settled; omega)
  have none_waiting : t.mainQueue = [] := List.eq_nil_of_length_eq_zero (by
    unfold pending at settled; omega)
  have loads := answered_perm_issued whole
  have shown := deliveries_perm_queued whole
  rw [none_flying, List.append_nil, bound.2] at loads
  rw [none_waiting, List.append_nil] at shown
  exact ⟨settled, loads, shown⟩

theorem settles_in_bounded_time_delivery :
    ∃ rest t, Run (FeedScreen.step moscow) (FeedScreen.viewDidLoad moscow) rest t ∧
      rest.map Prod.snd = [.respond ⟨getBankiURlString⟩ (.document (rssDocument [wednesdayNews])),
        .runCompletion ⟨⟨getBankiURlString⟩, [wednesdayNews]⟩] ∧
      rest.length + pending t ≤ pending (FeedScreen.viewDidLoad moscow) :=
  have more := (Run.refl.tail rfl).tail rfl
  ⟨_, _, more, rfl, (settles_in_bounded_time .refl more (by simp [settles])).1⟩

end TheNews.NewsFeed.PendingWork
