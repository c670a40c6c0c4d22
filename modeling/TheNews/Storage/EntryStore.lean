/- TheNews/Storage/EntryStore
   digest: Values stored under identities that are never used twice, and objects
   that either hold a value of their own or refer to an entry. -/

import Mathlib.Data.List.Nodup

set_option autoImplicit false
set_option relaxedAutoImplicit false

namespace TheNews.Storage

universe u
variable {ρ : Type u}

/-- An object over a store: a value of its own, or the entry of an identity. Once
it has been used to delete its entry it is `released`. -/
inductive Handle (ρ : Type u) where
  | own (value : ρ)
  | entry (id : Nat) (released : Bool)
  deriving DecidableEq, Repr

structure EntryStore (ρ : Type u) where
  entries : List (Nat × ρ)
  /-- The identity of the next entry. -/
  next : Nat
  handles : List (Handle ρ)
  nodup : (entries.map Prod.fst).Nodup
  used : ∀ e ∈ entries, e.1 < next
  known : ∀ id released, .entry id released ∈ handles → id < next

namespace EntryStore

variable (s : EntryStore ρ)

def values : List ρ := s.entries.map Prod.snd

def stored (id : Nat) : Bool := s.entries.any fun e => e.1 == id

/-- The value of an entry. -/
def value (id : Nat) : Option ρ := (s.entries.find? fun e => e.1 == id).map Prod.snd

/-- What an object shows. -/
def read (h : Nat) : Option ρ :=
  match s.handles[h]? with
  | some (.own value) => some value
  | some (.entry id _) => s.value id
  | none => none

/-- A store with the given values and no objects. -/
def ofValues (values : List ρ) : EntryStore ρ where
  entries := values.mapIdx Prod.mk
  next := values.length
  handles := []
  nodup := by
    have ids : (values.mapIdx Prod.mk).map Prod.fst = List.range values.length := by
      refine List.ext_getElem (by simp) fun i _ _ => ?_
      simp
    rw [ids]
    exact List.nodup_range
  used := by
    intro e member
    obtain ⟨i, bound, rfl⟩ := List.mem_mapIdx.mp member
    exact bound
  known := by simp

@[simp] theorem values_ofValues (values : List ρ) : (ofValues values).values = values := by
  refine List.ext_getElem (by simp [EntryStore.values, ofValues]) fun i _ _ => ?_
  simp [EntryStore.values, ofValues]

/-- Forget the objects and keep the entries. -/
def restart : EntryStore ρ := { s with handles := [], known := by simp }

def create (value : ρ) : EntryStore ρ where
  entries := s.entries
  next := s.next
  handles := s.handles ++ [.own value]
  nodup := s.nodup
  used := s.used
  known := by
    intro id released member
    exact s.known id released (by simpa using member)

/-- A new object for an entry. -/
def hold (id : Nat) : Option (EntryStore ρ) :=
  if there : s.stored id = true then some {
    entries := s.entries
    next := s.next
    handles := s.handles ++ [.entry id false]
    nodup := s.nodup
    used := s.used
    known := by
      intro other released held
      rcases List.mem_append.mp held with earlier | last
      · exact s.known other released earlier
      · obtain ⟨rfl, -⟩ : other = id ∧ released = false := by simpa using last
        obtain ⟨e, member, same⟩ := List.any_eq_true.mp there
        exact (beq_iff_eq.mp same) ▸ s.used e member }
  else none

/-- Give an object a new entry with its value. -/
def insert (h : Nat) (value : ρ) : EntryStore ρ where
  entries := s.entries ++ [(s.next, value)]
  next := s.next + 1
  handles := s.handles.set h (.entry s.next false)
  nodup := by
    rw [List.map_append, List.map_singleton, ← List.concat_eq_append]
    refine s.nodup.concat ?_
    intro member
    obtain ⟨e, there, same⟩ := List.mem_map.mp member
    have below := s.used e there
    omega
  used := by
    intro e member
    rcases List.mem_append.mp member with earlier | last
    · exact Nat.lt_succ_of_lt (s.used e earlier)
    · obtain rfl := List.mem_singleton.mp last
      exact Nat.lt_succ_self s.next
  known := by
    intro id released member
    rcases List.mem_or_eq_of_mem_set member with earlier | new
    · exact Nat.lt_succ_of_lt (s.known id released earlier)
    · obtain ⟨rfl, -⟩ := Handle.entry.inj new
      exact Nat.lt_succ_self s.next

/-- Store the value of an object, unless it is stored; a deleted entry cannot be
stored again. -/
def save (h : Nat) : Option (EntryStore ρ) :=
  match s.handles[h]? with
  | some (.own value) => some (s.insert h value)
  | some (.entry id _) => if s.stored id then some s else none
  | none => none

/-- Remove an entry with the help of an object of it. -/
def remove (h id : Nat) (held : s.handles[h]? = some (.entry id false)) : EntryStore ρ where
  entries := s.entries.filter fun e => e.1 != id
  next := s.next
  handles := s.handles.set h (.entry id true)
  nodup := s.nodup.sublist (List.filter_sublist.map Prod.fst)
  used := fun e member => s.used e (List.mem_of_mem_filter member)
  known := by
    intro other released member
    rcases List.mem_or_eq_of_mem_set member with earlier | new
    · exact s.known other released earlier
    · obtain ⟨rfl, -⟩ := Handle.entry.inj new
      exact s.known other false (List.mem_of_getElem? held)

/-- Delete the entry of an object, which can be done once with each object. -/
def delete (h : Nat) : Option (EntryStore ρ) :=
  match held : s.handles[h]? with
  | some (.entry id false) => some (s.remove h id held)
  | _ => none

def clear : EntryStore ρ where
  entries := []
  next := s.next
  handles := s.handles
  nodup := List.nodup_nil
  used := by simp
  known := s.known

theorem map_fst_update (entries : List (Nat × ρ)) (id : Nat) (f : ρ → ρ) :
    (entries.map fun e => if e.1 = id then (e.1, f e.2) else e).map Prod.fst =
      entries.map Prod.fst := by
  rw [List.map_map]
  refine List.map_congr_left fun e _ => ?_
  show (if e.1 = id then (e.1, f e.2) else e).1 = e.1
  split <;> rfl

/-- Change the value an object shows. -/
def modify (h : Nat) (f : ρ → ρ) : Option (EntryStore ρ) :=
  match s.handles[h]? with
  | some (.own value) => some {
      entries := s.entries
      next := s.next
      handles := s.handles.set h (.own (f value))
      nodup := s.nodup
      used := s.used
      known := by
        intro id released member
        rcases List.mem_or_eq_of_mem_set member with earlier | new
        · exact s.known id released earlier
        · cases new }
  | some (.entry id _) =>
      if s.stored id then some {
        entries := s.entries.map fun e => if e.1 = id then (e.1, f e.2) else e
        next := s.next
        handles := s.handles
        nodup := by rw [map_fst_update]; exact s.nodup
        used := by
          intro e member
          obtain ⟨old, there, rfl⟩ := List.mem_map.mp member
          have below := s.used old there
          split <;> exact below
        known := s.known }
      else none
  | none => none

theorem delete_of_held {s : EntryStore ρ} {h id : Nat}
    (held : s.handles[h]? = some (.entry id false)) : s.delete h = some (s.remove h id held) := by
  unfold delete
  split
  · rename_i other same
    obtain ⟨rfl, -⟩ := Handle.entry.inj (Option.some.inj (held.symm.trans same))
    rfl
  · rename_i other
    exact absurd held (other id)

theorem delete_of_not_held {s : EntryStore ρ} {h : Nat}
    (released : ∀ id, s.handles[h]? ≠ some (.entry id false)) : s.delete h = none := by
  unfold delete
  split
  · rename_i id held
    exact absurd held (released id)
  · rfl

theorem stored_iff {s : EntryStore ρ} {id : Nat} :
    s.stored id = true ↔ id ∈ s.entries.map Prod.fst := by
  simp [stored]

private theorem find?_fst {entries : List (Nat × ρ)} (nodup : (entries.map Prod.fst).Nodup)
    (id : Nat) (value : ρ) :
    (entries.find? fun e => e.1 == id).map Prod.snd = some value ↔ (id, value) ∈ entries := by
  induction entries with
  | nil => simp
  | cons e rest ih =>
    rw [List.map_cons, List.nodup_cons] at nodup
    rw [List.mem_cons, List.find?_cons]
    by_cases here : e.1 = id
    · have elsewhere : (id, value) ∉ rest := fun member =>
        nodup.1 (here ▸ List.mem_map_of_mem member)
      simp [here, elsewhere, Prod.ext_iff, eq_comm]
    · have other : (id, value) ≠ e := fun same => here (congrArg Prod.fst same).symm
      rw [beq_eq_false_iff_ne.mpr here, or_iff_right other]
      exact ih nodup.2

theorem value_eq_some_iff {s : EntryStore ρ} {id : Nat} {value : ρ} :
    s.value id = some value ↔ (id, value) ∈ s.entries :=
  find?_fst s.nodup id value

/-- Two objects hold the same value, not merely equal ones. -/
def Alias (s : EntryStore ρ) (h h' : Nat) : Prop :=
  h = h' ∨ ∃ id r r', s.handles[h]? = some (.entry id r) ∧ s.handles[h']? = some (.entry id r')

section Reading
variable {s s' : EntryStore ρ} {h h' id : Nat} {f : ρ → ρ}

theorem read_create (value : ρ) (held : h < s.handles.length) :
    (s.create value).read h = s.read h := by
  simp [read, create, EntryStore.value, List.getElem?_append_left held]

theorem read_hold (done : s.hold id = some s') (held : h < s.handles.length) :
    s'.read h = s.read h := by
  unfold hold at done
  split at done
  · obtain rfl := Option.some.inj done
    simp [read, EntryStore.value, List.getElem?_append_left held]
  · cases done

private theorem value_insert (value : ρ) (old : id < s.next) :
    (s.insert h value).value id = s.value id := by
  have other : (s.next == id) = false := beq_eq_false_iff_ne.mpr (by omega)
  simp [EntryStore.value, insert, List.find?_append, other]

theorem read_save (done : s.save h' = some s') : s'.read h = s.read h := by
  unfold save at done
  split at done
  · rename_i value held
    obtain rfl := Option.some.inj done
    obtain ⟨bound, -⟩ := List.getElem?_eq_some_iff.mp held
    have handles : (s.insert h' value).handles[h]? =
        if h' = h then some (.entry s.next false) else s.handles[h]? := by
      simp [insert, List.getElem?_set, bound]
    unfold read
    rw [handles]
    by_cases here : h' = h
    · subst h
      have stored : (s.insert h' value).value s.next = some value :=
        value_eq_some_iff.mpr (by simp [insert])
      simp [held, stored]
    · rw [if_neg here]
      cases there : s.handles[h]? with
      | none => rfl
      | some handle =>
        cases handle with
        | own other => rfl
        | entry id r => exact value_insert value (s.known id r (List.mem_of_getElem? there))
  · split at done
    · obtain rfl := Option.some.inj done
      rfl
    · cases done
  · cases done

private theorem value_update (entries : List (Nat × ρ)) (id other : Nat) (f : ρ → ρ) :
    ((entries.map fun e => if e.1 = id then (e.1, f e.2) else e).find? fun e => e.1 == other).map
      Prod.snd = if other = id then ((entries.find? fun e => e.1 == other).map Prod.snd).map f
        else (entries.find? fun e => e.1 == other).map Prod.snd := by
  induction entries with
  | nil => simp
  | cons e rest ih =>
    have first : (if e.1 = id then (e.1, f e.2) else e).1 = e.1 := by split <;> rfl
    rw [List.map_cons, List.find?_cons, List.find?_cons, first]
    cases here : e.1 == other with
    | false => exact ih
    | true =>
      obtain rfl : e.1 = other := beq_iff_eq.mp here
      by_cases same : e.1 = id <;> simp [same]

theorem read_modify (done : s.modify h' f = some s') :
    (s.Alias h h' → s'.read h = (s.read h).map f) ∧ (¬ s.Alias h h' → s'.read h = s.read h) := by
  unfold modify at done
  split at done
  · rename_i value held
    obtain rfl := Option.some.inj done
    obtain ⟨bound, -⟩ := List.getElem?_eq_some_iff.mp held
    constructor
    · rintro (rfl | ⟨id, r, r', -, entry⟩)
      · have shown : s.read h = some value := by simp only [read, held]
        rw [shown]
        simp [read, bound]
      · rw [held] at entry
        cases entry
    · intro apart
      have other : h' ≠ h := fun same => apart (.inl same.symm)
      simp [read, EntryStore.value, other]
  · rename_i id released held
    split at done
    · obtain rfl := Option.some.inj done
      unfold read
      cases there : s.handles[h]? with
      | none => exact ⟨fun _ => rfl, fun _ => rfl⟩
      | some handle =>
        cases handle with
        | own value =>
          refine ⟨?_, fun _ => rfl⟩
          rintro (rfl | ⟨id, r, r', entry, -⟩)
          · rw [held] at there
            cases there
          · rw [there] at entry
            cases entry
        | entry other r =>
          have changed := value_update s.entries id other f
          constructor
          · rintro (rfl | ⟨id', r, r', entry, entry'⟩)
            · rw [held] at there
              obtain ⟨rfl, -⟩ := Handle.entry.inj (Option.some.inj there)
              exact changed.trans (if_pos rfl)
            · rw [there] at entry
              rw [held] at entry'
              obtain ⟨rfl, -⟩ := Handle.entry.inj (Option.some.inj entry)
              obtain ⟨rfl, -⟩ := Handle.entry.inj (Option.some.inj entry')
              exact changed.trans (if_pos rfl)
          · intro apart
            have distinct : other ≠ id := fun same =>
              apart (.inr ⟨id, r, released, same ▸ there, held⟩)
            exact changed.trans (if_neg distinct)
    · cases done
  · cases done

private theorem value_filter (entries : List (Nat × ρ)) (id other : Nat) :
    (entries.filter fun e => e.1 != id).find? (fun e => e.1 == other) =
      if other = id then none else entries.find? fun e => e.1 == other := by
  rw [List.find?_filter]
  by_cases same : other = id
  · subst other
    simp
  · rw [if_neg same]
    congr 1
    funext e
    by_cases here : e.1 = other
    · simp [here, same]
    · simp [here]

theorem read_remove (held : s.handles[h']? = some (.entry id false)) :
    ((∃ r, s.handles[h]? = some (.entry id r)) → (s.remove h' id held).read h = none) ∧
      ((¬ ∃ r, s.handles[h]? = some (.entry id r)) → (s.remove h' id held).read h = s.read h) := by
  obtain ⟨bound, -⟩ := List.getElem?_eq_some_iff.mp held
  have handles : (s.remove h' id held).handles[h]? =
      if h' = h then some (.entry id true) else s.handles[h]? := by
    simp [remove, List.getElem?_set, bound]
  have value (other : Nat) : (s.remove h' id held).value other =
      if other = id then none else s.value other := by
    have left := value_filter s.entries id other
    unfold EntryStore.value
    rw [show (s.remove h' id held).entries = s.entries.filter fun e => e.1 != id from rfl, left]
    split <;> rfl
  unfold read
  rw [handles]
  constructor
  · rintro ⟨r, there⟩
    have gone : (s.remove h' id held).value id = none := (value id).trans (if_pos rfl)
    by_cases here : h' = h
    · rw [if_pos here]
      exact gone
    · rw [if_neg here, there]
      exact gone
  · intro apart
    have other : h' ≠ h := by
      rintro rfl
      exact apart ⟨false, held⟩
    rw [if_neg other]
    cases there : s.handles[h]? with
    | none => rfl
    | some handle =>
      cases handle with
      | own v => rfl
      | entry id' r =>
        have distinct : id' ≠ id := by
          rintro rfl
          exact apart ⟨r, there⟩
        simp [value, distinct]

end Reading

end EntryStore

end TheNews.Storage
