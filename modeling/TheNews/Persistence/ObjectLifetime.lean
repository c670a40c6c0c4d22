/- TheNews/Persistence/ObjectLifetime
   digest: How long an object can be read and what it shows meanwhile: exactly until
   its own entry is deleted, and the marks set on any object of that entry. -/

import TheNews.Persistence.EntryRefinement

set_option autoImplicit false
set_option relaxedAutoImplicit false

namespace TheNews.Persistence

open TheNews.Transition.Runs TheNews.Storage
open TheNews.NewsFeed (NewsModel Ref)

/-- The two objects are one, or point at one row. -/
def Realm.sharesEntry (realm : Realm) (object other : Ref) : Bool :=
  object == other || match realm.objects[object]?, realm.objects[other]? with
    | some (.attached row), some (.attached row') => row == row'
    | _, _ => false

/-- What a call changes of the values an object shows. -/
def marked (object : Ref) (d : Device) (a : RealmAction) (news : NewsModel) : NewsModel :=
  match d, a with
  | .running realm, .makeItRead editNews newState =>
      if realm.sharesEntry object editNews then { news with isReading := newState } else news
  | .running realm, .makeItFavourite editNews newState =>
      if realm.sharesEntry object editNews then { news with isFavourite := newState } else news
  | _, _ => news

/-- The values of an object that showed `news` at the start of the run. -/
def shown (object : Ref) (news : NewsModel) (trace : Trace Device RealmAction) : NewsModel :=
  trace.foldl (fun news x => marked object x.1 x.2 news) news

/-- The action deletes the entry of the object, or ends the process it lives in. -/
def Deletes (object : Ref) (d : Device) : RealmAction → Prop
  | .launch => True
  | .deleteAll => ∃ realm row, d = .running realm ∧ realm.objects[object]? = some (.attached row)
  | .deleteObject other => ∃ realm row, d = .running realm ∧
      realm.objects[object]? = some (.attached row) ∧ realm.objects[other]? = some (.attached row)
  | _ => False

section Step
variable {rows : List (Nat × NewsModel)} {realm : Realm} {store : EntryStore NewsModel}
  {object other : Ref} {news : NewsModel}

private theorem same_row_iff (tracks : Tracks rows realm store) {row id id' : Nat} {r r' : Bool}
    (there : realm.objects[object]? = some (.attached row))
    (held : store.handles[object]? = some (.entry id r))
    (held' : store.handles[other]? = some (.entry id' r')) :
    id' = id ↔ realm.objects[other]? = some (.attached row) := by
  obtain ⟨at_row, -⟩ := tracks.objects object _ _ there held
  obtain ⟨bound, -⟩ := List.getElem?_eq_some_iff.mp held'
  have inside : other < realm.objects.length := tracks.length ▸ bound
  have there' : realm.objects[other]? = some realm.objects[other] :=
    List.getElem?_eq_getElem inside
  have matched := tracks.objects other _ _ there' held'
  rw [there', Option.some.injEq]
  cases found : realm.objects[other] with
  | unmanaged values => simp [found, Matches] at matched
  | attached row' =>
    rw [found] at matched
    obtain ⟨at_row', -⟩ := matched
    rw [RLMObjectBase.attached.injEq]
    constructor
    · rintro rfl
      obtain ⟨at_table, -⟩ := List.getElem?_eq_some_iff.mp at_row'
      exact (List.getElem?_inj at_table tracks.nodup).mp (at_row'.trans at_row.symm)
    · rintro rfl
      exact Option.some.inj (at_row'.symm.trans at_row)
  | detached realm' =>
    rw [found] at matched
    refine iff_of_false ?_ (by simp)
    rintro rfl
    exact matched.1 (List.mem_of_getElem? at_row)

private theorem object_of_get (tracks : Tracks rows realm store)
    (readable : realm.get object = some news) :
    (realm.objects[object]? = some (.unmanaged news) ∧
      store.handles[object]? = some (.own news)) ∨
    ∃ row id, realm.objects[object]? = some (.attached row) ∧
      store.handles[object]? = some (.entry id false) := by
  cases there : realm.objects[object]? with
  | none => simp [Realm.get, there] at readable
  | some found =>
    obtain ⟨handle, held, matched⟩ := tracks.handle_of_object there
    cases found with
    | unmanaged values =>
      obtain rfl : values = news := by simpa [Realm.get, there] using readable
      cases handle with
      | own value =>
        obtain rfl : values = value := matched
        exact .inl ⟨rfl, held⟩
      | entry id released => cases matched
    | attached row =>
      obtain ⟨e, -, rfl, -⟩ := tracks.row_of_attached matched
      exact .inr ⟨row, e.1, rfl, held⟩
    | detached r => simp [Realm.get, there] at readable

private theorem sharesEntry_iff (tracks : Tracks rows realm store)
    (readable : realm.get object = some news) :
    realm.sharesEntry object other = true ↔ store.Alias object other := by
  unfold Realm.sharesEntry EntryStore.Alias
  rw [Bool.or_eq_true, beq_iff_eq]
  refine or_congr_right ?_
  rcases object_of_get tracks readable with ⟨there, held⟩ | ⟨row, id, there, held⟩
  · simp [there, held]
  · constructor
    · intro same
      rw [there] at same
      cases there' : realm.objects[other]? with
      | none => simp [there'] at same
      | some found =>
        cases found with
        | unmanaged values => simp [there'] at same
        | detached r => simp [there'] at same
        | attached row' =>
          obtain rfl : row = row' := by simpa [there'] using same
          obtain ⟨handle, held', matched⟩ := tracks.handle_of_object there'
          obtain ⟨e, -, rfl, -⟩ := tracks.row_of_attached matched
          obtain rfl := (same_row_iff tracks there held held').mpr there'
          exact ⟨_, _, _, held, held'⟩
    · rintro ⟨id', r, r', entry, held'⟩
      obtain ⟨rfl, -⟩ := Handle.entry.inj (Option.some.inj (held.symm.trans entry))
      have there' := (same_row_iff tracks there held held').mp rfl
      simp [there, there']

private theorem read_saveAll {objects : List Ref} {store store' : EntryStore NewsModel}
    (done : objects.foldlM EntryStore.save store = some store') (object : Nat) :
    store'.read object = store.read object := by
  induction objects generalizing store with
  | nil =>
    obtain rfl := Option.some.inj done
    rfl
  | cons ref rest ih =>
    rw [List.foldlM_cons, Option.bind_eq_bind, Option.bind_eq_some_iff] at done
    obtain ⟨between, first, later⟩ := done
    rw [ih later, EntryStore.read_save first]

private theorem modified_get {realm' : Realm} {rows' : List (Nat × NewsModel)}
    {store' : EntryStore NewsModel} {property : NewsModel → NewsModel}
    (tracks : Tracks rows realm store) (tracks' : Tracks rows' realm' store')
    (readable : realm.get object = some news) (done : store.modify other property = some store') :
    realm'.get object = some (if realm.sharesEntry object other then property news else news) := by
  obtain ⟨aliased, apart⟩ := EntryStore.read_modify (h := object) done
  have before : store.read object = some news := by rw [← tracks.get_eq_read, readable]
  have same : realm.sharesEntry object other = true ↔ store.Alias object other :=
    sharesEntry_iff tracks readable
  rw [tracks'.get_eq_read]
  split
  · rename_i shared
    rw [aliased (same.mp shared), before, Option.map_some]
  · rename_i unshared
    rw [apart fun shared => unshared (same.mpr shared), before]

private theorem deleted_get {realm' : Realm} {rows' : List (Nat × NewsModel)}
    {store' : EntryStore NewsModel} (tracks : Tracks rows realm store)
    (tracks' : Tracks rows' realm' store') (readable : realm.get object = some news)
    (done : store.delete other = some store') :
    realm'.get object = some news ↔ ¬ Deletes object (.running realm) (.deleteObject other) := by
  have before : store.read object = some news := by rw [← tracks.get_eq_read, readable]
  by_cases release : ∃ id, store.handles[other]? = some (.entry id false)
  · obtain ⟨id, held'⟩ := release
    rw [EntryStore.delete_of_held held'] at done
    obtain rfl := Option.some.inj done
    obtain ⟨gone, left⟩ := EntryStore.read_remove (h := object) held'
    rw [tracks'.get_eq_read]
    rcases object_of_get tracks readable with ⟨there, own⟩ | ⟨row, id', there, entry⟩
    · refine iff_of_true ?_ (by simp [Deletes, there])
      rw [left (by simp [own]), before]
    · have same := same_row_iff tracks there entry held'
      by_cases here : id = id'
      · refine iff_of_false ?_ ?_
        · rw [gone ⟨false, here ▸ entry⟩]
          simp
        · exact fun alive => alive ⟨realm, row, rfl, there, same.mp here⟩
      · refine iff_of_true ?_ ?_
        · rw [left, before]
          intro held
          obtain ⟨r, entry'⟩ := held
          rw [entry] at entry'
          exact here (Handle.entry.inj (Option.some.inj entry')).1.symm
        · intro deletes
          obtain ⟨_, row', this_realm, there', other_row⟩ := deletes
          obtain rfl := Device.running.inj this_realm
          obtain rfl := RLMObjectBase.attached.inj (Option.some.inj (there.symm.trans there'))
          exact here (same.mpr other_row)
  · rw [EntryStore.delete_of_not_held (fun id held' => release ⟨id, held'⟩)] at done
    cases done

private theorem returned_get {realm' : Realm} {rows' : List (Nat × NewsModel)}
    {store' : EntryStore NewsModel} {order : List (Nat × NewsModel)} {a : RealmAction}
    (tracks : Tracks rows realm store) (tracks' : Tracks rows' realm' store')
    (readable : realm.get object = some news) (running : a ≠ .launch)
    (done : specCall store order a = some store') :
    realm'.get object = some (marked object (.running realm) a news) ↔
      ¬ Deletes object (.running realm) a := by
  have before : store.read object = some news := by rw [← tracks.get_eq_read, readable]
  have held : object < store.handles.length := by
    rcases object_of_get tracks readable with ⟨-, held⟩ | ⟨row, id, -, held⟩
    · exact (List.getElem?_eq_some_iff.mp held).1
    · exact (List.getElem?_eq_some_iff.mp held).1
  have kept (same : store'.read object = store.read object) : realm'.get object = some news := by
    rw [tracks'.get_eq_read, same, before]
  cases a with
  | launch => exact absurd rfl running
  | initNewsModel values =>
    obtain rfl := Option.some.inj done
    exact iff_of_true (kept (EntryStore.read_create values held)) id
  | news index =>
    obtain ⟨e, -, done⟩ := Option.bind_eq_some_iff.mp done
    exact iff_of_true (kept (EntryStore.read_hold done held)) id
  | get ref =>
    obtain ⟨_, -, rfl⟩ := Option.map_eq_some_iff.mp done
    exact iff_of_true (kept rfl) id
  | saveObject ref => exact iff_of_true (kept (EntryStore.read_save done)) id
  | saveAll objects => exact iff_of_true (kept (read_saveAll done object)) id
  | makeItRead editNews newState =>
    exact iff_of_true (modified_get tracks tracks' readable done) id
  | makeItFavourite editNews newState =>
    exact iff_of_true (modified_get tracks tracks' readable done) id
  | deleteAll =>
    obtain rfl := Option.some.inj done
    rcases object_of_get tracks readable with ⟨there, own⟩ | ⟨row, id, there, entry⟩
    · refine iff_of_true (kept ?_) (by simp [Deletes, there])
      simp [EntryStore.read, EntryStore.clear, own]
    · refine iff_of_false ?_ (by simp [Deletes, there])
      simp [tracks'.get_eq_read, EntryStore.read, EntryStore.clear, EntryStore.value, entry]
  | deleteObject other => exact deleted_get tracks tracks' readable done

private theorem not_deletes_of_throws {order : List (Nat × NewsModel)} {a : RealmAction}
    (tracks : Tracks rows realm store) (running : a ≠ .launch)
    (failed : specCall store order a = none) : ¬ Deletes object (.running realm) a := by
  intro deletes
  cases a with
  | launch => exact running rfl
  | deleteAll => cases failed
  | deleteObject other =>
    obtain ⟨_, row, this_realm, -, there⟩ := deletes
    obtain rfl := Device.running.inj this_realm
    obtain ⟨handle, held, matched⟩ := tracks.handle_of_object there
    obtain ⟨e, -, rfl, -⟩ := tracks.row_of_attached matched
    rw [specCall, EntryStore.delete_of_held held] at failed
    cases failed
  | _ => exact deletes

end Step

/-- While the process runs, the object shows its values with the marks set since. -/
def Shown (object : Ref) (news : NewsModel) (trace : Trace Device RealmAction) (d : Device) :
    Prop :=
  ∀ realm, d = .running realm → realm.get object = some (shown object news trace)

private theorem not_shown_launched {object : Ref} {news : NewsModel}
    {trace : Trace Device RealmAction} (file : List NewsModel) :
    ¬ Shown object news trace (.running (Realm.opened file)) := by
  intro still
  have none_left : (Realm.opened file).get object = none := rfl
  cases none_left.symm.trans (still _ rfl)

private theorem shown_step_iff {object : Ref} {news : NewsModel} {trace : Trace Device RealmAction}
    {d d' : Device} {spec : SpecDevice} {a : RealmAction} (related : Related d spec)
    (before : Shown object news trace d) (move : d.step a = .next d') :
    Shown object news (trace ++ [(d, a)]) d' ↔ ¬ Deletes object d a := by
  by_cases launching : a = .launch
  · subst launching
    obtain rfl := Outcome.next.inj move
    exact iff_of_false (not_shown_launched _) fun alive => alive trivial
  · cases d with
    | ended file => cases a <;> first | exact absurd rfl launching | cases move
    | running realm =>
      cases spec with
      | ended store => cases related
      | running store =>
        obtain ⟨spec', step, related'⟩ := step_related related move
        obtain ⟨-, -, rows, tracks⟩ := related
        have now : shown object news (trace ++ [(.running realm, a)]) =
            marked object (.running realm) a (shown object news trace) := by
          simp [shown]
        cases step with
        | launch => exact absurd rfl launching
        | returns order listed done =>
          cases d' with
          | ended file => cases related'
          | running realm' =>
            obtain ⟨-, -, rows', tracks'⟩ := related'
            have got := returned_get tracks tracks' (before realm rfl) launching done
            rw [← got, ← now]
            constructor
            · intro still
              exact still realm' rfl
            · rintro still _ ⟨⟩
              exact still
        | throws order listed failed =>
          cases d' with
          | running realm' => cases related'
          | ended file =>
            refine iff_of_true ?_ (not_deletes_of_throws tracks launching failed)
            rintro _ ⟨⟩

/-- In any process, whatever other rows are added, moved or deleted, an object shows
its values with the marks set on its entry, exactly until its entry is deleted. -/
theorem shown_throughout_iff {file : List NewsModel} {before trace : Trace Device RealmAction}
    {realm : Realm} {d : Device} {object : Ref} {news : NewsModel}
    (earlier : Run Device.step (.ended file) before (.running realm))
    (readable : realm.get object = some news) (run : Run Device.step (.running realm) trace d) :
    Throughout (Shown object news) trace d ↔
      EveryStep (fun _ d a => ¬ Deletes object d a) trace := by
  have start : Shown object news [] (.running realm) := by
    rintro _ ⟨⟩
    exact readable
  refine run.throughout_iff start fun h s a t prior before move => ?_
  obtain ⟨spec, -, related⟩ := run_related (earlier.trans prior)
  exact shown_step_iff related before move

private def twoRows : Realm :=
  { file := [firstNews, secondNews], table := [firstNews, secondNews]
    objects := [.attached 0, .attached 1, .attached 1] }

private def oneRow : Realm :=
  { file := [secondNews], table := [secondNews]
    objects := [.detached false, .attached 0, .attached 0] }

theorem shown_throughout_iff_moved :
    ∃ trace d, Run Device.step (.running twoRows) trace d ∧
      trace.map Prod.snd = [.deleteObject 0, .makeItRead 2 true] ∧
      Throughout (Shown 1 secondNews) trace d ∧
      shown 1 secondNews trace = { secondNews with isReading := true } := by
  have earlier : Run Device.step (.ended [firstNews, secondNews]) _ _ :=
    Run.replay [.launch, .news 0, .news 1, .news 1] rfl
  have deleted : (Device.running twoRows).step (.deleteObject 0) = .next (.running oneRow) := rfl
  have run := (Run.refl.tail deleted).tail
    (show (Device.running oneRow).step (.makeItRead 2 true) = .next _ from rfl)
  refine ⟨_, _, run, rfl, (shown_throughout_iff earlier rfl run).mpr ?_, rfl⟩
  rw [everyStep_tail, everyStep_tail]
  refine ⟨⟨everyStep_nil, ?_⟩, id⟩
  rintro ⟨_, row, this_realm, second, first⟩
  obtain rfl := Device.running.inj this_realm
  obtain rfl : 1 = row := by simpa [twoRows] using second
  simp [twoRows] at first

end TheNews.Persistence
