/- TheNews/Persistence/SavedObjects
   digest: Saving a list of objects is all or nothing, stores each object once in
   the order given, and changes nothing that any object shows. -/

import TheNews.Persistence.EntryRefinement

set_option autoImplicit false
set_option relaxedAutoImplicit false

namespace TheNews.Persistence

open TheNews.Transition.Runs TheNews.Storage
open TheNews.NewsFeed (NewsModel Ref)

/-- An object whose row is gone. -/
def Realm.gone (realm : Realm) (object : Ref) : Prop :=
  ∃ r, realm.objects[object]? = some (.detached r)

/-- The attached objects point into the table. -/
def Realm.InBounds (realm : Realm) : Prop :=
  ∀ (object : Nat) row, realm.objects[object]? = some (.attached row) → row < realm.table.length

/-- The Realm after an object that was not in it has been added. -/
def Realm.added (realm : Realm) (object : Ref) (news : NewsModel) : Realm :=
  { realm with
    table := realm.table ++ [news]
    objects := realm.objects.set object (.attached realm.table.length) }

section Added
variable {realm : Realm} {object : Ref} {news : NewsModel}

end Added

section AddAll
variable {realm saved : Realm} {object : Ref} {rest : List Ref}

end AddAll

end TheNews.Persistence
