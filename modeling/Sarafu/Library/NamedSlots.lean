import Mathlib
import Sarafu.Library.Runs

namespace Library
namespace NamedSlots

/-!
# Records in slots with an index of their names

Every record has a slot and a name.  A store writes the record into its slot and notes
the slot under the name; a removal empties a slot and forgets the name of the record in
it.  A lookup by name goes through the noted slot.  If a slot is written again with a
record of another name, the old name still leads to the slot, so the lookup answers with
a record of another name.  This is the only way to get such an answer.
-/

open Runs

universe u v w

variable {Slot : Type u} {Name : Type v} {Record : Type w}

structure Index (Slot : Type u) (Name : Type v) (Record : Type w) where
  records : Slot -> Option Record
  places : Name -> Option Slot

namespace Index

def empty : Index Slot Name Record := ⟨fun _ => none, fun _ => none⟩

def lookup (index : Index Slot Name Record) (name : Name) : Option Record :=
  (index.places name).bind index.records

variable (slot : Record -> Slot) (name : Record -> Name)

/-- A store or a removal; other steps leave the index alone. -/
inductive Change (Slot : Type u) (Record : Type w)
  | store (record : Record)
  | remove (place : Slot)
  | keep

/-- A lookup answers with a record of that name. -/
def Faithful (index : Index Slot Name Record) : Prop :=
  forall (called : Name) (record : Record), index.lookup called = some record -> name record = called

/-- A change does not put a record into a slot with a record of another name. -/
def KeepsName (index : Index Slot Name Record) : Change Slot Record -> Prop
  | .store record => forall old, index.records (slot record) = some old -> name old = name record
  | _ => True

/-- Every record is in its slot, comes from a fixed set, and is found under its name. -/
structure Indexed (known : Set Record) (index : Index Slot Name Record) : Prop where
  places : forall (place : Slot) (record : Record), index.records place = some record ->
    slot record = place ∧ index.places (name record) = some place
  known : forall (place : Slot) (record : Record), index.records place = some record -> record ∈ known

/-- Every name leads to a record of that name. -/
def NamesKept (index : Index Slot Name Record) : Prop :=
  forall (called : Name) (place : Slot), index.places called = some place ->
    ∃ record, index.records place = some record ∧ name record = called

/-- What a change stores is in the set. -/
def Change.Knows (known : Set Record) : Change Slot Record -> Prop
  | .store record => record ∈ known
  | _ => True

/-- Records of one name have one slot. -/
def NamesSlots (slot : Record -> Slot) (name : Record -> Name) (known : Set Record) : Prop :=
  forall first, first ∈ known -> forall second, second ∈ known -> name first = name second -> slot first = slot second

variable {slot name} {index : Index Slot Name Record} {known : Set Record} {record old : Record} {place other : Slot}
  {called : Name}

theorem indexed_empty : Indexed slot name known (empty : Index Slot Name Record) := ⟨nofun, nofun⟩

theorem namesKept_empty : NamesKept name (empty : Index Slot Name Record) := nofun

theorem Indexed.lookup (indexed : Indexed slot name known index) (stored : index.records place = some record) :
    index.lookup (name record) = some record := by
  unfold Index.lookup
  rw [(indexed.places place record stored).2, Option.bind_some, stored]

theorem NamesKept.faithful (kept : NamesKept name index) : Faithful name index := by
  intro called record found
  rcases Option.bind_eq_some_iff.mp found with ⟨place, noted, stored⟩
  rcases kept called place noted with ⟨other, there, named⟩
  rw [stored] at there
  rw [Option.some.inj there]
  exact named

section Changes

variable [DecidableEq Slot] [DecidableEq Name] (slot name)

def store (index : Index Slot Name Record) (record : Record) : Index Slot Name Record where
  records := Function.update index.records (slot record) (some record)
  places := Function.update index.places (name record) (some (slot record))

/-- Nothing happens if the slot is empty. -/
def remove (index : Index Slot Name Record) (place : Slot) : Index Slot Name Record :=
  match index.records place with
  | none => index
  | some record =>
      { records := Function.update index.records place none
        places := Function.update index.places (name record) none }

def change (index : Index Slot Name Record) : Change Slot Record -> Index Slot Name Record
  | .store record => index.store slot name record
  | .remove place => index.remove name place
  | .keep => index

variable {slot name}

theorem records_store : (index.store slot name record).records place =
    if place = slot record then some record else index.records place := Function.update_apply ..

theorem places_store : (index.store slot name record).places called =
    if called = name record then some (slot record) else index.places called := Function.update_apply ..

theorem remove_of_none (empty : index.records place = none) : index.remove name place = index := by
  unfold Index.remove
  rw [empty]

theorem records_remove (found : index.records place = some record) :
    (index.remove name place).records other = if other = place then none else index.records other := by
  unfold Index.remove
  rw [found]
  exact Function.update_apply ..

theorem places_remove (found : index.records place = some record) :
    (index.remove name place).places called = if called = name record then none else index.places called := by
  unfold Index.remove
  rw [found]
  exact Function.update_apply ..

theorem Indexed.store (indexed : Indexed slot name known index) (names : NamesSlots slot name known)
    (listed : record ∈ known) : Indexed slot name known (index.store slot name record) := by
  constructor
  case places =>
    intro place stored there
    rw [records_store] at there
    split at there
    · rename_i same
      rw [← Option.some.inj there, same, places_store, if_pos rfl]
      exact ⟨rfl, rfl⟩
    · rename_i elsewhere
      rcases indexed.places place stored there with ⟨own, noted⟩
      rw [places_store, if_neg]
      · exact ⟨own, noted⟩
      · intro same
        exact elsewhere (own.symm.trans (names stored (indexed.known place stored there) record listed same))
  case known =>
    intro place stored there
    rw [records_store] at there
    split at there
    · rw [← Option.some.inj there]
      exact listed
    · exact indexed.known place stored there

theorem Indexed.remove (indexed : Indexed slot name known index) (names : NamesSlots slot name known) (place : Slot) :
    Indexed slot name known (index.remove name place) := by
  cases found : index.records place with
  | none =>
      rw [remove_of_none found]
      exact indexed
  | some record =>
      constructor
      case places =>
        intro other stored there
        rw [records_remove found] at there
        split at there
        · cases there
        · rename_i elsewhere
          rcases indexed.places other stored there with ⟨own, noted⟩
          rw [places_remove found, if_neg]
          · exact ⟨own, noted⟩
          · intro same
            have slots := names stored (indexed.known other stored there) record (indexed.known place record found) same
            rw [own, (indexed.places place record found).1] at slots
            exact elsewhere slots
      case known =>
        intro other stored there
        rw [records_remove found] at there
        split at there
        · cases there
        · exact indexed.known other stored there

theorem NamesKept.store (kept : NamesKept name index)
    (keeps : forall old, index.records (slot record) = some old -> name old = name record) :
    NamesKept name (index.store slot name record) := by
  intro called place noted
  rw [places_store] at noted
  rw [records_store]
  split at noted
  · rename_i same
    rw [if_pos (Option.some.inj noted).symm]
    exact ⟨record, rfl, same.symm⟩
  · rename_i differs
    rcases kept called place noted with ⟨stored, there, named⟩
    split
    · rename_i same
      rw [same] at there
      exact absurd (named.symm.trans (keeps stored there)) differs
    · exact ⟨stored, there, named⟩

theorem NamesKept.remove (kept : NamesKept name index) (place : Slot) : NamesKept name (index.remove name place) := by
  cases found : index.records place with
  | none =>
      rw [remove_of_none found]
      exact kept
  | some record =>
      intro called other noted
      rw [places_remove found] at noted
      split at noted
      · cases noted
      · rename_i differs
        rcases kept called other noted with ⟨stored, there, named⟩
        refine ⟨stored, ?_, named⟩
        rw [records_remove found, if_neg]
        · exact there
        · intro same
          rw [same, found] at there
          rw [← Option.some.inj there] at named
          exact differs named.symm

/-- A slot that is written with another name makes the lookup of the old name wrong. -/
theorem Indexed.not_faithful (indexed : Indexed slot name known index) (there : index.records (slot record) = some old)
    (differs : name old ≠ name record) : ¬Faithful name (index.store slot name record) := by
  intro faithful
  refine differs (faithful (name old) record ?_).symm
  rw [Index.lookup, places_store, if_neg differs, (indexed.places (slot record) old there).2, Option.bind_some,
    records_store, if_pos rfl]

theorem Indexed.change (indexed : Indexed slot name known index) (names : NamesSlots slot name known)
    {made : Change Slot Record} (knows : made.Knows known) : Indexed slot name known (index.change slot name made) := by
  cases made with
  | store record => exact indexed.store names knows
  | remove place => exact indexed.remove names place
  | keep => exact indexed

theorem NamesKept.change (kept : NamesKept name index) {made : Change Slot Record}
    (keeps : index.KeepsName slot name made) : NamesKept name (index.change slot name made) := by
  cases made with
  | store record => exact kept.store keeps
  | remove place => exact kept.remove place
  | keep => exact kept

/-- Over a run every state is faithful if and only if no change puts a record over one of
another name. -/
theorem along_faithful_iff (names : NamesSlots slot name known) {changes : List (Change Slot Record)}
    (knows : forall made, made ∈ changes -> made.Knows known) (indexed : Indexed slot name known index)
    (kept : NamesKept name index) :
    Along (Index.change slot name) (fun index made => Faithful name (index.change slot name made)) index changes <->
      Along (Index.change slot name) (KeepsName slot name) index changes := by
  induction changes generalizing index with
  | nil => exact Iff.rfl
  | cons made rest inductionHypothesis =>
      rw [List.forall_mem_cons] at knows
      have after := indexed.change names knows.1
      have first : Faithful name (index.change slot name made) <-> index.KeepsName slot name made := by
        constructor
        · intro faithful
          cases made with
          | store record =>
              intro old there
              by_contra differs
              exact indexed.not_faithful there differs faithful
          | remove place => exact trivial
          | keep => exact trivial
        · exact fun keeps => (kept.change keeps).faithful
      constructor
      · rintro ⟨faithful, later⟩
        have keeps := first.mp faithful
        exact ⟨keeps, (inductionHypothesis knows.2 after (kept.change keeps)).mp later⟩
      · rintro ⟨keeps, later⟩
        exact ⟨first.mpr keeps, (inductionHypothesis knows.2 after (kept.change keeps)).mpr later⟩

end Changes

end Index
end NamedSlots
end Library
