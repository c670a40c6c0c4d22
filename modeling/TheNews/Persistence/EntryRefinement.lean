/- TheNews/Persistence/EntryRefinement
   digest: The Realm with its moving rows refines a store of entries with lasting
   identities, over any sequence of calls, launches and exceptions. -/

import TheNews.Persistence.RealmManager
import TheNews.Storage.EntryStore
import TheNews.Transition.Simulation

set_option autoImplicit false
set_option relaxedAutoImplicit false

namespace TheNews.Persistence

open TheNews.Transition.Runs TheNews.Storage TheNews.Storage.SwapRemove
open TheNews.NewsFeed (NewsModel Ref)

/-- The device as a user of RealmManager may think of it. -/
inductive SpecDevice where
  | running (store : EntryStore NewsModel)
  | ended (store : EntryStore NewsModel)

def SpecDevice.store : SpecDevice → EntryStore NewsModel
  | .running store | .ended store => store

/-- A call on the entries, with the results listing them as in `order`; `none` is
an exception. -/
def specCall (store : EntryStore NewsModel) (order : List (Nat × NewsModel)) :
    RealmAction → Option (EntryStore NewsModel)
  | .launch => some store.restart
  | .initNewsModel values => some (store.create values)
  | .news index => order[index]?.bind fun e => store.hold e.1
  | .get object => (store.read object).map fun _ => store
  | .saveObject object => store.save object
  | .saveAll objects => objects.foldlM EntryStore.save store
  | .deleteObject object => store.delete object
  | .deleteAll => some store.clear
  | .makeItRead editNews newState =>
      store.modify editNews fun news => { news with isReading := newState }
  | .makeItFavourite editNews newState =>
      store.modify editNews fun news => { news with isFavourite := newState }

/-- The results list the entries in any order, which may be another one at every
call. -/
inductive SpecStep : SpecDevice → RealmAction → SpecDevice → Prop where
  | launch (spec : SpecDevice) : SpecStep spec .launch (.running spec.store.restart)
  | returns {store after : EntryStore NewsModel} {a : RealmAction}
      (order : List (Nat × NewsModel)) (listed : order.Perm store.entries)
      (done : specCall store order a = some after) : SpecStep (.running store) a (.running after)
  | throws {store : EntryStore NewsModel} {a : RealmAction}
      (order : List (Nat × NewsModel)) (listed : order.Perm store.entries)
      (failed : specCall store order a = none) : SpecStep (.running store) a (.ended store)

/-- An object of the Realm stands for an object of the store, when the rows hold
the entries `ids`. -/
def Matches (ids : List Nat) : RLMObjectBase → Handle NewsModel → Prop
  | .unmanaged news, .own value => news = value
  | .attached row, .entry id released => ids[row]? = some id ∧ released = false
  | .detached realm, .entry id released => id ∉ ids ∧ released = !realm
  | _, _ => False

/-- The rows hold the entries of the store in some order. -/
structure Tracks (rows : List (Nat × NewsModel)) (realm : Realm) (store : EntryStore NewsModel) :
    Prop where
  entries : rows.Perm store.entries
  table : realm.table = rows.map Prod.snd
  length : realm.objects.length = store.handles.length
  objects : ∀ (ref : Ref) object handle, realm.objects[ref]? = some object →
    store.handles[ref]? = some handle → Matches (rows.map Prod.fst) object handle

namespace Tracks
variable {rows : List (Nat × NewsModel)} {realm : Realm} {store : EntryStore NewsModel}

theorem nodup (tracks : Tracks rows realm store) : (rows.map Prod.fst).Nodup :=
  (tracks.entries.map Prod.fst).nodup_iff.mpr store.nodup

theorem handle_of_object (tracks : Tracks rows realm store) {ref : Ref} {object : RLMObjectBase}
    (there : realm.objects[ref]? = some object) :
    ∃ handle, store.handles[ref]? = some handle ∧ Matches (rows.map Prod.fst) object handle := by
  obtain ⟨bound, -⟩ := List.getElem?_eq_some_iff.mp there
  have inside : ref < store.handles.length := tracks.length ▸ bound
  have held : store.handles[ref]? = some store.handles[ref] := List.getElem?_eq_getElem inside
  exact ⟨_, held, tracks.objects ref object _ there held⟩

theorem no_handle (tracks : Tracks rows realm store) {ref : Ref}
    (missing : realm.objects[ref]? = none) : store.handles[ref]? = none := by
  rw [List.getElem?_eq_none_iff] at missing ⊢
  exact tracks.length ▸ missing

theorem row_of_attached (tracks : Tracks rows realm store) {row : Nat} {handle : Handle NewsModel}
    (matched : Matches (rows.map Prod.fst) (.attached row) handle) :
    ∃ e, rows[row]? = some e ∧ handle = .entry e.1 false ∧ e ∈ store.entries := by
  cases handle with
  | own value => cases matched
  | entry id released =>
    obtain ⟨at_row, rfl⟩ := matched
    rw [List.getElem?_map, Option.map_eq_some_iff] at at_row
    obtain ⟨e, there, rfl⟩ := at_row
    exact ⟨e, there, rfl, tracks.entries.mem_iff.mp (List.mem_of_getElem? there)⟩

theorem not_stored (tracks : Tracks rows realm store) {id : Nat}
    (absent : id ∉ rows.map Prod.fst) : store.stored id = false := by
  rw [← Bool.not_eq_true, EntryStore.stored_iff]
  exact fun stored => absent ((tracks.entries.map Prod.fst).mem_iff.mpr stored)

theorem get_eq_read (tracks : Tracks rows realm store) (ref : Ref) :
    realm.get ref = store.read ref := by
  cases there : realm.objects[ref]? with
  | none => simp [Realm.get, EntryStore.read, there, tracks.no_handle there]
  | some object =>
    obtain ⟨handle, held, matched⟩ := tracks.handle_of_object there
    cases object with
    | unmanaged news =>
      cases handle with
      | own value =>
        obtain rfl : news = value := matched
        simp [Realm.get, EntryStore.read, there, held]
      | entry id released => cases matched
    | attached row =>
      obtain ⟨e, at_row, rfl, member⟩ := tracks.row_of_attached matched
      have shown : store.value e.1 = some e.2 := EntryStore.value_eq_some_iff.mpr member
      simp [Realm.get, EntryStore.read, there, held, tracks.table, at_row, shown]
    | detached realm' =>
      cases handle with
      | own value => cases matched
      | entry id released =>
        have gone : store.value id = none := by
          rw [Option.eq_none_iff_forall_ne_some]
          intro value shown
          have member := EntryStore.value_eq_some_iff.mp shown
          exact matched.1 (List.mem_map_of_mem (tracks.entries.mem_iff.mpr member))
        simp [Realm.get, EntryStore.read, there, held, gone]

end Tracks

private theorem Matches.append {ids : List Nat} {object : RLMObjectBase}
    {handle : Handle NewsModel} {next : Nat} (matched : Matches ids object handle)
    (known : ∀ id released, handle = .entry id released → id < next) :
    Matches (ids ++ [next]) object handle := by
  cases object with
  | unmanaged news => cases handle <;> exact matched
  | attached row =>
    cases handle with
    | own value => exact matched
    | entry id released =>
      obtain ⟨bound, -⟩ := List.getElem?_eq_some_iff.mp matched.1
      exact ⟨by rw [List.getElem?_append_left bound]; exact matched.1, matched.2⟩
  | detached realm =>
    cases handle with
    | own value => exact matched
    | entry id released =>
      have old := known id released rfl
      refine ⟨?_, matched.2⟩
      rw [List.mem_append, List.mem_singleton, not_or]
      exact ⟨matched.1, by omega⟩

private theorem Matches.moveLastOver {ids : List Nat} {object : RLMObjectBase}
    {handle : Handle NewsModel} {row removed : Nat} (matched : Matches ids object handle)
    (nodup : ids.Nodup) (there : ids[row]? = some removed) :
    Matches (SwapRemove.moveLastOver ids row) (object.moveLastOver ids.length row) handle := by
  have left := cons_moveLastOver_perm there
  have unique := List.nodup_cons.mp (left.nodup_iff.mpr nodup)
  obtain ⟨inside, -⟩ := List.getElem?_eq_some_iff.mp there
  cases object with
  | unmanaged news => cases handle <;> exact matched
  | attached other =>
    cases handle with
    | own value => cases matched
    | entry id released =>
      obtain ⟨at_row, rfl⟩ := matched
      obtain ⟨below, -⟩ := List.getElem?_eq_some_iff.mp at_row
      cases moved : relocate ids.length row other with
      | none =>
        obtain rfl := relocate_eq_none.mp moved
        obtain rfl : removed = id := Option.some.inj (there.symm.trans at_row)
        simp only [RLMObjectBase.moveLastOver, moved]
        exact ⟨unique.1, rfl⟩
      | some place =>
        simp only [RLMObjectBase.moveLastOver, moved]
        exact ⟨(getElem?_relocate inside below moved).trans at_row, rfl⟩
  | detached realm =>
    cases handle with
    | own value => cases matched
    | entry id released =>
      exact ⟨fun member => matched.1 (left.mem_iff.mp (List.mem_cons_of_mem _ member)), matched.2⟩

private theorem Matches.clear {ids : List Nat} {object : RLMObjectBase}
    {handle : Handle NewsModel} (matched : Matches ids object handle) :
    Matches [] object.clear handle := by
  cases object with
  | unmanaged news => cases handle <;> exact matched
  | attached row =>
    cases handle with
    | own value => cases matched
    | entry id released => exact ⟨by simp, matched.2⟩
  | detached realm =>
    cases handle with
    | own value => cases matched
    | entry id released => exact ⟨by simp, matched.2⟩

/-- In a transaction the Realm and the store hold the same entries. -/
def Writing (realm : Realm) (store : EntryStore NewsModel) : Prop :=
  realm.inWriteTransaction = true ∧ ∃ rows, Tracks rows realm store

/-- Between the calls so does the file. -/
def Settled (realm : Realm) (store : EntryStore NewsModel) : Prop :=
  realm.inWriteTransaction = false ∧ realm.file = realm.table ∧ ∃ rows, Tracks rows realm store

section Calls
variable {rows : List (Nat × NewsModel)} {realm : Realm} {store : EntryStore NewsModel}

private theorem objects_set {objects : List RLMObjectBase} {handles : List (Handle NewsModel)}
    {ids : List Nat} {ref : Ref} {object : RLMObjectBase} {handle : Handle NewsModel}
    (others : ∀ (i : Ref) o h, objects[i]? = some o → handles[i]? = some h → Matches ids o h)
    (here : Matches ids object handle) (i : Ref) (o : RLMObjectBase) (h : Handle NewsModel)
    (there : (objects.set ref object)[i]? = some o)
    (held : (handles.set ref handle)[i]? = some h) : Matches ids o h := by
  rw [List.getElem?_set] at there held
  split at there
  · rename_i same
    rw [if_pos same] at held
    split at there
    · split at held
      · obtain rfl := Option.some.inj there
        obtain rfl := Option.some.inj held
        exact here
      · cases held
    · cases there
  · rename_i other
    rw [if_neg other] at held
    exact others i o h there held

private theorem add_answers (writing : Writing realm store) (ref : Ref) :
    Option.Rel Writing (realm.rlmAddObjectToRealm ref) (store.save ref) := by
  obtain ⟨inWrite, rows, tracks⟩ := writing
  cases there : realm.objects[ref]? with
  | none =>
    simp only [Realm.rlmAddObjectToRealm, Realm.rlmVerifyInWriteTransaction, inWrite, there,
      EntryStore.save, tracks.no_handle there]
    exact .none
  | some object =>
    obtain ⟨handle, held, matched⟩ := tracks.handle_of_object there
    cases object with
    | unmanaged news =>
      cases handle with
      | entry id released => cases matched
      | own value =>
        obtain rfl : news = value := matched
        simp only [Realm.rlmAddObjectToRealm, Realm.rlmVerifyInWriteTransaction, inWrite, there,
          EntryStore.save, held]
        refine .some ⟨rfl, rows ++ [(store.next, news)], ?_, ?_, ?_, ?_⟩
        · exact tracks.entries.append_right _
        · simp [tracks.table]
        · simpa [EntryStore.insert] using tracks.length
        · have size : realm.table.length = (rows.map Prod.fst).length := by simp [tracks.table]
          rw [List.map_append, List.map_singleton]
          refine objects_set ?_ ⟨by simp [size], rfl⟩
          intro i o h at_i held_i
          refine (tracks.objects i o h at_i held_i).append fun id released same => ?_
          exact store.known id released (same ▸ List.mem_of_getElem? held_i)
    | attached row =>
      obtain ⟨e, at_row, rfl, member⟩ := tracks.row_of_attached matched
      have stored : store.stored e.1 = true :=
        EntryStore.stored_iff.mpr (List.mem_map_of_mem member)
      simp only [Realm.rlmAddObjectToRealm, Realm.rlmVerifyInWriteTransaction, inWrite, there,
        EntryStore.save, held, stored]
      exact .some ⟨inWrite, rows, tracks⟩
    | detached realm' =>
      cases handle with
      | own value => cases matched
      | entry id released =>
        have gone := tracks.not_stored matched.1
        simp only [Realm.rlmAddObjectToRealm, Realm.rlmVerifyInWriteTransaction, inWrite, there,
          EntryStore.save, held, gone]
        exact .none

/-- The row of the entry goes, the last row takes its place. -/
private theorem Tracks.remove_row (tracks : Tracks rows realm store) {ref : Ref} {row : Nat}
    {e : Nat × NewsModel} (at_row : rows[row]? = some e)
    (held : store.handles[ref]? = some (.entry e.1 false)) :
    Tracks (SwapRemove.moveLastOver rows row)
      { realm with
        table := SwapRemove.moveLastOver realm.table row
        objects := (realm.objects.map (·.moveLastOver realm.table.length row)).set ref
          (.detached false) }
      (store.remove ref e.1 held) := by
  have at_id : (rows.map Prod.fst)[row]? = some e.1 := by simp [at_row]
  have size : realm.table.length = (rows.map Prod.fst).length := by simp [tracks.table]
  have left := cons_moveLastOver_perm at_row
  have unique := List.nodup_cons.mp ((left.map Prod.fst).nodup_iff.mpr tracks.nodup)
  have ids := map_moveLastOver Prod.fst rows row
  refine ⟨?_, ?_, ?_, ?_⟩
  · -- What is left are the entries with another identity.
    have kept : (SwapRemove.moveLastOver rows row).filter (fun other => other.1 != e.1) =
        SwapRemove.moveLastOver rows row := by
      refine List.filter_eq_self.mpr fun other there => bne_iff_ne.mpr ?_
      exact fun same => unique.1 (same ▸ List.mem_map_of_mem there)
    have filtered := (left.trans tracks.entries).filter fun other => other.1 != e.1
    rw [List.filter_cons_of_neg (by simp), kept] at filtered
    exact filtered
  · simp [tracks.table, map_moveLastOver]
  · simpa [EntryStore.remove] using tracks.length
  · rw [ids] at unique ⊢
    refine objects_set ?_ ⟨unique.1, rfl⟩
    intro i o h at_i held_i
    rw [List.getElem?_map, Option.map_eq_some_iff] at at_i
    obtain ⟨before, at_i, rfl⟩ := at_i
    rw [size]
    exact (tracks.objects i before h at_i held_i).moveLastOver tracks.nodup at_id

private theorem Tracks.release (tracks : Tracks rows realm store) {ref : Ref} {id : Nat}
    (absent : id ∉ rows.map Prod.fst) (held : store.handles[ref]? = some (.entry id false)) :
    Tracks rows { realm with objects := realm.objects.set ref (.detached false) }
      (store.remove ref id held) := by
  refine ⟨?_, tracks.table, ?_, ?_⟩
  · have kept : store.entries.filter (fun other => other.1 != id) = store.entries := by
      refine List.filter_eq_self.mpr fun other there => bne_iff_ne.mpr ?_
      intro same
      exact absent (same ▸ List.mem_map_of_mem (tracks.entries.mem_iff.mpr there))
    show rows.Perm (store.entries.filter fun other => other.1 != id)
    rw [kept]
    exact tracks.entries
  · simpa [EntryStore.remove] using tracks.length
  · exact objects_set tracks.objects ⟨absent, rfl⟩

private theorem delete_answers (writing : Writing realm store) (ref : Ref) :
    Option.Rel Writing (realm.rlmDeleteObjectFromRealm ref) (store.delete ref) := by
  obtain ⟨inWrite, rows, tracks⟩ := writing
  have verified : realm.rlmVerifyInWriteTransaction = some () := if_pos inWrite
  cases there : realm.objects[ref]? with
  | none =>
    simp only [Realm.rlmDeleteObjectFromRealm, there]
    rw [EntryStore.delete_of_not_held (by simp [tracks.no_handle there])]
    exact .none
  | some object =>
    obtain ⟨handle, held, matched⟩ := tracks.handle_of_object there
    cases object with
    | unmanaged news =>
      cases handle with
      | own value =>
        simp only [Realm.rlmDeleteObjectFromRealm, there]
        rw [EntryStore.delete_of_not_held (by simp [held])]
        exact .none
      | entry id released => cases matched
    | attached row =>
      obtain ⟨e, at_row, rfl, -⟩ := tracks.row_of_attached matched
      simp only [Realm.rlmDeleteObjectFromRealm, verified, there]
      rw [EntryStore.delete_of_held held]
      exact .some ⟨inWrite, _, tracks.remove_row at_row held⟩
    | detached realm' =>
      cases handle with
      | own value => cases matched
      | entry id released =>
        obtain ⟨absent, rfl⟩ := matched
        cases realm' with
        | false =>
          simp only [Realm.rlmDeleteObjectFromRealm, there]
          rw [EntryStore.delete_of_not_held (by simp [held])]
          exact .none
        | true =>
          simp only [Realm.rlmDeleteObjectFromRealm, verified, there]
          rw [EntryStore.delete_of_held held]
          exact .some ⟨inWrite, _, tracks.release absent held⟩

private theorem clear_answers (writing : Writing realm store) :
    Option.Rel Writing realm.rlmDeleteAllObjectsFromRealm (some store.clear) := by
  obtain ⟨inWrite, rows, tracks⟩ := writing
  simp only [Realm.rlmDeleteAllObjectsFromRealm, Realm.rlmVerifyInWriteTransaction, inWrite]
  refine .some ⟨rfl, [], .nil, rfl, ?_, ?_⟩
  · simpa [EntryStore.clear] using tracks.length
  · intro i o h at_i held
    rw [List.getElem?_map, Option.map_eq_some_iff] at at_i
    obtain ⟨before, at_i, rfl⟩ := at_i
    exact (tracks.objects i before h at_i held).clear

private theorem modify_row (tracks : Tracks rows realm store) {row : Nat} {e : Nat × NewsModel}
    (at_row : rows[row]? = some e) (property : NewsModel → NewsModel) :
    (rows.map fun other => if other.1 = e.1 then (other.1, property other.2) else other).map
      Prod.snd = realm.table.modify row property := by
  rw [tracks.table]
  refine List.ext_getElem? fun i => ?_
  rw [List.getElem?_map, List.getElem?_map, List.getElem?_modify, List.getElem?_map]
  by_cases here : row = i
  · subst i
    simp [at_row]
  · cases at_i : rows[i]? with
    | none => rfl
    | some other =>
      have distinct : other.1 ≠ e.1 := by
        intro same
        have id_i : (rows.map Prod.fst)[i]? = some e.1 := by simp [at_i, same]
        have id_row : (rows.map Prod.fst)[row]? = some e.1 := by simp [at_row]
        obtain ⟨bound, -⟩ := List.getElem?_eq_some_iff.mp id_row
        exact here ((List.getElem?_inj bound tracks.nodup).mp (id_row.trans id_i.symm))
      simp [here, distinct]

private theorem setValue_answers (writing : Writing realm store) (ref : Ref)
    (property : NewsModel → NewsModel) :
    Option.Rel Writing (realm.setValue ref property) (store.modify ref property) := by
  obtain ⟨inWrite, rows, tracks⟩ := writing
  cases there : realm.objects[ref]? with
  | none =>
    simp only [Realm.setValue, there, EntryStore.modify, tracks.no_handle there]
    exact .none
  | some object =>
    obtain ⟨handle, held, matched⟩ := tracks.handle_of_object there
    cases object with
    | unmanaged news =>
      cases handle with
      | entry id released => cases matched
      | own value =>
        obtain rfl : news = value := matched
        simp only [Realm.setValue, there, EntryStore.modify, held]
        refine .some ⟨inWrite, rows, tracks.entries, tracks.table, ?_, ?_⟩
        · simpa using tracks.length
        · exact objects_set tracks.objects rfl
    | attached row =>
      obtain ⟨e, at_row, rfl, member⟩ := tracks.row_of_attached matched
      have stored : store.stored e.1 = true :=
        EntryStore.stored_iff.mpr (List.mem_map_of_mem member)
      simp only [Realm.setValue, Realm.rlmVerifyInWriteTransaction, inWrite, there,
        EntryStore.modify, held, stored]
      refine .some ⟨rfl, _, tracks.entries.map _, (modify_row tracks at_row property).symm,
        tracks.length, ?_⟩
      rw [EntryStore.map_fst_update]
      exact tracks.objects
    | detached realm' =>
      cases handle with
      | own value => cases matched
      | entry id released =>
        have gone := tracks.not_stored matched.1
        simp only [Realm.setValue, there, EntryStore.modify, held, gone]
        exact .none

private theorem addAll_answers (objects : List Ref) (writing : Writing realm store) :
    Option.Rel Writing (objects.foldlM Realm.rlmAddObjectToRealm realm)
      (objects.foldlM EntryStore.save store) := by
  induction objects generalizing realm store with
  | nil => exact .some writing
  | cons ref rest ih =>
    rw [List.foldlM_cons, List.foldlM_cons]
    have first := add_answers writing ref
    cases added : realm.rlmAddObjectToRealm ref <;> cases saved : store.save ref <;>
      rw [added, saved] at first
    · exact .none
    · cases first
    · cases first
    · obtain ⟨next⟩ := first
      exact ih next

private theorem write_answers {block : Realm → Option Realm}
    {call : Option (EntryStore NewsModel)} (settled : Settled realm store)
    (answers : ∀ realm', Writing realm' store → Option.Rel Writing (block realm') call) :
    Option.Rel Settled (realm.write block) call := by
  obtain ⟨idle, committed, rows, tracks⟩ := settled
  have began : realm.beginWrite = some { realm with inWriteTransaction := true } := by
    simp [Realm.beginWrite, idle]
  have answer := answers { realm with inWriteTransaction := true }
    ⟨rfl, rows, tracks.entries, tracks.table, tracks.length, tracks.objects⟩
  simp only [Realm.write, began, Option.bind_eq_bind, Option.bind_some]
  cases done : block { realm with inWriteTransaction := true } <;> cases called : call <;>
    rw [done, called] at answer
  · exact .none
  · cases answer
  · cases answer
  · obtain ⟨inWrite, rows', tracks'⟩ := answer
    simp only [Option.bind_some, inWrite, if_true, Realm.commitWrite]
    exact .some ⟨rfl, rfl, rows', tracks'.entries, tracks'.table, tracks'.length, tracks'.objects⟩

private theorem opened_settled {file : List NewsModel} (entries : rows.Perm store.entries)
    (saved : file = rows.map Prod.snd) : Settled (Realm.opened file) store.restart :=
  ⟨rfl, rfl, rows, entries, saved, rfl, by simp [Realm.opened]⟩

private theorem objects_append {objects : List RLMObjectBase} {handles : List (Handle NewsModel)}
    {ids : List Nat} {object : RLMObjectBase} {handle : Handle NewsModel}
    (length : objects.length = handles.length)
    (others : ∀ (i : Nat) o h, objects[i]? = some o → handles[i]? = some h → Matches ids o h)
    (here : Matches ids object handle) (i : Nat) (o : RLMObjectBase) (h : Handle NewsModel)
    (there : (objects ++ [object])[i]? = some o) (held : (handles ++ [handle])[i]? = some h) :
    Matches ids o h := by
  rcases Nat.lt_or_ge i objects.length with before | past
  · rw [List.getElem?_append_left before] at there
    rw [List.getElem?_append_left (length ▸ before)] at held
    exact others i o h there held
  · obtain ⟨bound, -⟩ := List.getElem?_eq_some_iff.mp there
    have last : i = objects.length := by simp at bound; omega
    subst i
    rw [List.getElem?_concat_length] at there
    rw [length, List.getElem?_concat_length] at held
    obtain rfl := Option.some.inj there
    obtain rfl := Option.some.inj held
    exact here

theorem perform_answers (settled : Settled realm store) (a : RealmAction) :
    ∃ order : List (Nat × NewsModel), order.Perm store.entries ∧
      Option.Rel Settled (a.perform realm) (specCall store order a) := by
  obtain ⟨idle, committed, rows, tracks⟩ := settled
  have settled : Settled realm store := ⟨idle, committed, rows, tracks⟩
  refine ⟨rows, tracks.entries, ?_⟩
  cases a with
  | launch => exact .some (opened_settled tracks.entries (committed.trans tracks.table))
  | initNewsModel values =>
    refine .some ⟨idle, committed, rows, tracks.entries, tracks.table, ?_, ?_⟩
    · simp [Realm.initNewsModel, EntryStore.create, tracks.length]
    · exact objects_append tracks.length tracks.objects rfl
  | news index =>
    have size : realm.table.length = rows.length := by simp [tracks.table]
    simp only [RealmAction.perform, RealmManager.news, Realm.rlmCreateObjectAccessor, specCall]
    split
    · rename_i inside
      have at_row : rows[index]? = some rows[index] := List.getElem?_eq_getElem (size ▸ inside)
      have member := tracks.entries.mem_iff.mp (List.mem_of_getElem? at_row)
      have stored : store.stored rows[index].1 = true :=
        EntryStore.stored_iff.mpr (List.mem_map_of_mem member)
      rw [at_row, Option.bind_some, EntryStore.hold, dif_pos stored]
      refine .some ⟨idle, committed, rows, tracks.entries, tracks.table, ?_, ?_⟩
      · simp [tracks.length]
      · exact objects_append tracks.length tracks.objects ⟨by simp [at_row], rfl⟩
    · rename_i outside
      rw [List.getElem?_eq_none (by omega)]
      exact .none
  | get object =>
    simp only [RealmAction.perform, specCall, tracks.get_eq_read object]
    cases store.read object with
    | none => exact .none
    | some news => exact .some settled
  | saveObject object => exact write_answers settled fun _ writing => add_answers writing object
  | saveAll objects => exact write_answers settled fun _ writing => addAll_answers objects writing
  | deleteObject object =>
    exact write_answers settled fun _ writing => delete_answers writing object
  | deleteAll => exact write_answers settled fun _ writing => clear_answers writing
  | makeItRead editNews newState =>
    exact write_answers settled fun _ writing => setValue_answers writing editNews _
  | makeItFavourite editNews newState =>
    exact write_answers settled fun _ writing => setValue_answers writing editNews _

end Calls

/-- The file of an ended device holds the entries of the store. -/
def Related : Device → SpecDevice → Prop
  | .running realm, .running store => Settled realm store
  | .ended file, .ended store =>
      ∃ rows : List (Nat × NewsModel), rows.Perm store.entries ∧ file = rows.map Prod.snd
  | _, _ => False

theorem step_related {d d' : Device} {spec : SpecDevice} {a : RealmAction}
    (related : Related d spec) (move : d.step a = .next d') :
    ∃ spec', SpecStep spec a spec' ∧ Related d' spec' := by
  by_cases launching : a = .launch
  · subst launching
    obtain rfl := Outcome.next.inj move
    refine ⟨_, .launch spec, ?_⟩
    cases d <;> cases spec
    · obtain ⟨idle, committed, rows, tracks⟩ := related
      exact opened_settled tracks.entries (committed.trans tracks.table)
    · cases related
    · cases related
    · obtain ⟨rows, entries, saved⟩ := related
      exact opened_settled entries saved
  · cases d with
    | ended file => cases a <;> first | exact absurd rfl launching | cases move
    | running realm =>
      cases spec with
      | ended store => cases related
      | running store =>
        obtain ⟨idle, committed, rows, tracks⟩ := related
        obtain ⟨order, listed, answer⟩ := perform_answers ⟨idle, committed, rows, tracks⟩ a
        obtain ⟨-, answered⟩ := (Device.step_eq_next launching).mp move
        cases performed : a.perform realm <;> cases called : specCall store order a <;>
          rw [performed, called] at answer <;> rw [performed] at answered <;>
          obtain rfl := answered
        · exact ⟨_, .throws order listed called, rows, tracks.entries,
            committed.trans tracks.table⟩
        · cases answer
        · cases answer
        · obtain ⟨settled⟩ := answer
          exact ⟨_, .returns order listed called, settled⟩

/-- What a user of RealmManager sees of a device: the results list the entries, and
each object shows what it shows in the store. -/
def Shows : Device → SpecDevice → Prop
  | .running realm, .running store =>
      realm.table.Perm store.values ∧ realm.file = realm.table ∧
        realm.objects.length = store.handles.length ∧
        ∀ object, realm.get object = store.read object
  | .ended file, .ended store => file.Perm store.values
  | _, _ => False

theorem Related.shows {d : Device} {spec : SpecDevice} (related : Related d spec) :
    Shows d spec := by
  cases d <;> cases spec
  · obtain ⟨-, committed, rows, tracks⟩ := related
    refine ⟨?_, committed, tracks.length, tracks.get_eq_read⟩
    rw [tracks.table]
    exact tracks.entries.map Prod.snd
  · cases related
  · cases related
  · obtain ⟨rows, entries, rfl⟩ := related
    exact entries.map Prod.snd

theorem run_related {file : List NewsModel} {trace : Trace Device RealmAction} {d : Device}
    (run : Run Device.step (.ended file) trace d) :
    ∃ spec, Steps SpecStep (.ended (.ofValues file)) (trace.map Prod.snd) spec ∧
      Related d spec := by
  have filed : Related (.ended file) (.ended (.ofValues file)) :=
    ⟨_, .refl _, (EntryStore.values_ofValues file).symm⟩
  obtain ⟨spec, steps, related⟩ := run.simulated Related (fun _ a => [a]) filed
    fun _ _ _ _ _ _ related move =>
      have ⟨spec', step, related'⟩ := step_related related move
      ⟨spec', .single step, related'⟩
  rw [← List.map_eq_flatMap] at steps
  exact ⟨spec, steps, related⟩

/-- Every run over a file, with any exceptions and launches in it, is a run of the
store of entries: although rows move, an object never comes to show another entry,
and what has not been deleted stays in the results and in the file. -/
theorem run_shows {file : List NewsModel} {trace : Trace Device RealmAction} {d : Device}
    (run : Run Device.step (.ended file) trace d) :
    ∃ spec, Steps SpecStep (.ended (.ofValues file)) (trace.map Prod.snd) spec ∧
      Shows d spec := by
  obtain ⟨spec, steps, related⟩ := run_related run
  exact ⟨spec, steps, related.shows⟩

def firstNews : NewsModel := { title := "Вклады" }
def secondNews : NewsModel := { title := "Кредиты" }

theorem run_shows_moved :
    ∃ d spec, Steps SpecStep (.ended (.ofValues [firstNews, secondNews]))
        [.launch, .news 0, .news 1, .deleteObject 0, .makeItRead 1 true] spec ∧
      Shows d spec ∧ d.file = [{ secondNews with isReading := true }] := by
  have run : Run Device.step (.ended [firstNews, secondNews]) _ _ :=
    Run.replay [.launch, .news 0, .news 1, .deleteObject 0, .makeItRead 1 true] rfl
  obtain ⟨spec, steps, shows⟩ := run_shows run
  exact ⟨_, spec, steps, shows, rfl⟩

end TheNews.Persistence
