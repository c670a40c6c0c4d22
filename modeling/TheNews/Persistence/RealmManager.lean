/- TheNews/Persistence/RealmManager
   models: Realm/RealmManager.swift, Realm/NewsModel.swift, and what they use of
           RealmSwift/Realm.swift, Realm/RLMObjectStore.mm, Realm/RLMAccessor.mm
           and core/realm/table.hpp
   digest: The Realm of NewsModel: a table whose rows move when one is deleted, the
   objects that point into it, and the file that the commits write. -/

import TheNews.NewsFeed.NewsFeedViewController
import TheNews.Storage.SwapRemove

set_option autoImplicit false
set_option relaxedAutoImplicit false

namespace TheNews.Persistence

open TheNews.Transition.Runs TheNews.Storage.SwapRemove
open TheNews.NewsFeed (NewsModel Ref)

/-- A NewsModel object, by the state of its `_row` and its `_realm`. -/
inductive RLMObjectBase where
  /-- In no Realm: the properties are the object's own. -/
  | unmanaged (news : NewsModel)
  | attached (row : Nat)
  /-- Its row is gone; `realm` says whether `_realm` is still set. -/
  | detached (realm : Bool)
  deriving DecidableEq, Repr

/-- The Realm of the process with all the NewsModel objects of the process. -/
structure Realm where
  file : List NewsModel
  table : List NewsModel
  inWriteTransaction : Bool := false
  objects : List RLMObjectBase := []
  deriving DecidableEq, Repr

namespace RLMObjectBase

/-- A row accessor after row `i` of `n` rows has been moved over. -/
def moveLastOver (n i : Nat) : RLMObjectBase → RLMObjectBase
  | .attached row => match relocate n i row with
    | some moved => .attached moved
    | none => .detached true
  | object => object

/-- A row accessor after its table has been cleared. -/
def clear : RLMObjectBase → RLMObjectBase
  | .attached _ => .detached true
  | object => object

end RLMObjectBase

-- In all of these `none` is an exception, which nothing in the app catches.
namespace Realm

/-- `let realm = try! Realm()`, which Swift evaluates at its first use; nothing changes
the file before that. Opening the file and writing it are taken to succeed. -/
def opened (file : List NewsModel) : Realm := { file, table := file }

def rlmVerifyInWriteTransaction (realm : Realm) : Option Unit :=
  if realm.inWriteTransaction then some () else none

def beginWrite (realm : Realm) : Option Realm :=
  if realm.inWriteTransaction then none else some { realm with inWriteTransaction := true }

def commitWrite (realm : Realm) : Option Realm :=
  if realm.inWriteTransaction then
    some { realm with file := realm.table, inWriteTransaction := false }
  else none

def write (realm : Realm) (block : Realm → Option Realm) : Option Realm := do
  let realm ← realm.beginWrite
  let realm ← block realm
  if realm.inWriteTransaction then realm.commitWrite else return realm

def rlmAddObjectToRealm (realm : Realm) (object : Ref) : Option Realm := do
  realm.rlmVerifyInWriteTransaction
  match ← realm.objects[object]? with
  | .detached _ => none
  | .attached _ => return realm
  | .unmanaged news => return { realm with
      table := realm.table ++ [news]
      objects := realm.objects.set object (.attached realm.table.length) }

/-- An object with no `_realm` does not belong to this one. -/
def rlmDeleteObjectFromRealm (realm : Realm) (object : Ref) : Option Realm := do
  match ← realm.objects[object]? with
  | .unmanaged _ | .detached false => none
  | .detached true =>
      realm.rlmVerifyInWriteTransaction
      return { realm with objects := realm.objects.set object (.detached false) }
  | .attached row =>
      realm.rlmVerifyInWriteTransaction
      return { realm with
        table := moveLastOver realm.table row
        objects := (realm.objects.map (·.moveLastOver realm.table.length row)).set object
          (.detached false) }

def rlmDeleteAllObjectsFromRealm (realm : Realm) : Option Realm := do
  realm.rlmVerifyInWriteTransaction
  return { realm with table := [], objects := realm.objects.map RLMObjectBase.clear }

/-- The subscript of the results makes a new object for the row. -/
def rlmCreateObjectAccessor (realm : Realm) (index : Nat) : Option Realm :=
  if index < realm.table.length then
    some { realm with objects := realm.objects ++ [.attached index] }
  else none

/-- What the getters of the properties return. -/
def get (realm : Realm) (object : Ref) : Option NewsModel := do
  match ← realm.objects[object]? with
  | .unmanaged news => return news
  | .attached row => realm.table[row]?
  | .detached _ => none

/-- The setter of one property. -/
def setValue (realm : Realm) (object : Ref) (property : NewsModel → NewsModel) : Option Realm := do
  match ← realm.objects[object]? with
  | .unmanaged news =>
      return { realm with objects := realm.objects.set object (.unmanaged (property news)) }
  | .attached row =>
      realm.rlmVerifyInWriteTransaction
      return { realm with table := realm.table.modify row property }
  | .detached _ => none

/-- `NewsModel(title:date:desc:isReading:isFavourite:)`. -/
def initNewsModel (realm : Realm) (news : NewsModel) : Realm :=
  { realm with objects := realm.objects ++ [.unmanaged news] }

end Realm

namespace RealmManager

def news (realm : Realm) (index : Nat) : Option Realm := realm.rlmCreateObjectAccessor index

def saveObject (realm : Realm) (news : Ref) : Option Realm :=
  realm.write fun realm => realm.rlmAddObjectToRealm news

def saveAll (realm : Realm) (news : List Ref) : Option Realm :=
  realm.write fun realm => news.foldlM Realm.rlmAddObjectToRealm realm

def deleteObject (realm : Realm) (news : Ref) : Option Realm :=
  realm.write fun realm => realm.rlmDeleteObjectFromRealm news

def deleteAll (realm : Realm) : Option Realm :=
  realm.write fun realm => realm.rlmDeleteAllObjectsFromRealm

def makeItRead (realm : Realm) (editNews : Ref) (newState : Bool) : Option Realm :=
  realm.write fun realm => realm.setValue editNews fun news => { news with isReading := newState }

def makeItFavourite (realm : Realm) (editNews : Ref) (newState : Bool) : Option Realm :=
  realm.write fun realm => realm.setValue editNews fun news => { news with isFavourite := newState }

end RealmManager

/-- A launch ends the process that runs, if any, and opens the file. -/
inductive RealmAction where
  | launch
  | initNewsModel (news : NewsModel)
  | news (index : Nat)
  | get (object : Ref)
  | saveObject (news : Ref)
  | saveAll (news : List Ref)
  | deleteObject (news : Ref)
  | deleteAll
  | makeItRead (editNews : Ref) (newState : Bool)
  | makeItFavourite (editNews : Ref) (newState : Bool)
  deriving DecidableEq, Repr

/-- The objects a call is given. -/
def RealmAction.arguments : RealmAction → List Ref
  | .launch | .initNewsModel _ | .news _ | .deleteAll => []
  | .saveAll objects => objects
  | .get object | .saveObject object | .deleteObject object
  | .makeItRead object _ | .makeItFavourite object _ => [object]

def RealmAction.perform (realm : Realm) : RealmAction → Option Realm
  | .launch => some (Realm.opened realm.file)
  | .initNewsModel values => some (realm.initNewsModel values)
  | .news index => RealmManager.news realm index
  | .get object => (realm.get object).map fun _ => realm
  | .saveObject object => RealmManager.saveObject realm object
  | .saveAll objects => RealmManager.saveAll realm objects
  | .deleteObject object => RealmManager.deleteObject realm object
  | .deleteAll => RealmManager.deleteAll realm
  | .makeItRead editNews newState => RealmManager.makeItRead realm editNews newState
  | .makeItFavourite editNews newState => RealmManager.makeItFavourite realm editNews newState

/-- The device: the process runs, or it has ended and left its file. -/
inductive Device where
  | running (realm : Realm)
  | ended (file : List NewsModel)
  deriving DecidableEq, Repr

namespace Device

def file : Device → List NewsModel
  | .running realm => realm.file
  | .ended file => file

def step (d : Device) : RealmAction → Outcome Device
  | .launch => .next (.running (Realm.opened d.file))
  | a => match d with
    | .ended _ => .blocked
    | .running realm =>
        if ∀ object ∈ a.arguments, object < realm.objects.length then
          match a.perform realm with
          | some realm => .next (.running realm)
          -- The exception ends the process; what it had not committed is lost.
          | none => .next (.ended realm.file)
        else .blocked

theorem step_eq_next {realm : Realm} {a : RealmAction} {d' : Device} (process : a ≠ .launch) :
    (running realm).step a = .next d' ↔
      (∀ object ∈ a.arguments, object < realm.objects.length) ∧
        d' = (a.perform realm).elim (ended realm.file) running := by
  have outcome : (running realm).step a =
      if ∀ object ∈ a.arguments, object < realm.objects.length then
        .next ((a.perform realm).elim (ended realm.file) running)
      else .blocked := by
    cases performed : a.perform realm <;> cases a with
    | launch => exact absurd rfl process
    | _ => simp only [step, performed, Option.elim]
  rw [outcome]
  split
  · rename_i known
    rw [Outcome.next.injEq, eq_comm]
    exact (and_iff_right known).symm
  · rename_i unknown
    exact ⟨nofun, fun both => absurd both.1 unknown⟩

end Device

end TheNews.Persistence
