import Sarafu.Crypto.Bytes
import Sarafu.Library.Decoding

namespace Sarafu
namespace Storage

open Crypto Library.Decoding

/-!
# The key-value store

A map of column families, each a map from byte strings to byte strings.  A `Result` of
the source is a value or an error text, so it is an outcome here.  Writes always succeed.
-/

inductive ColumnFamily
  | accounts
  | blocks
  | blockHashes
  | transactions
  | validators
  | validatorSets
  | governance
  | metadata
deriving DecidableEq, Repr

/-- The value of the enumerator, by which `std::map` orders the families. -/
def ColumnFamily.number : ColumnFamily -> Nat
  | .accounts => 0
  | .blocks => 1
  | .blockHashes => 2
  | .transactions => 3
  | .validators => 4
  | .validatorSets => 5
  | .governance => 6
  | .metadata => 7

instance : Ord ColumnFamily := ⟨fun left right => compare left.number right.number⟩

theorem ColumnFamily.compare_def (left right : ColumnFamily) :
    compare left right = compare left.number right.number := rfl

instance : Std.TransOrd ColumnFamily where
  eq_swap := by
    intro left right
    rw [ColumnFamily.compare_def, ColumnFamily.compare_def]
    exact Std.OrientedCmp.eq_swap
  isLE_trans := by
    intro first second third firstLe secondLe
    rw [ColumnFamily.compare_def] at *
    exact Std.TransCmp.isLE_trans firstLe secondLe

instance : Std.LawfulEqOrd ColumnFamily where
  compare_self := by
    intro family
    rw [ColumnFamily.compare_def]
    exact Std.ReflCmp.compare_self
  eq_of_compare := by
    intro left right same
    rw [ColumnFamily.compare_def] at same
    have numbers := Std.LawfulEqCmp.eq_of_compare same
    revert numbers
    cases left <;> cases right <;> decide

abbrev Result (Value : Type) : Type := Outcome String Value

/-- `Operation` of a `BatchWrite`. -/
inductive Operation
  | put (family : ColumnFamily) (key value : List UInt8)
  | delete (family : ColumnFamily) (key : List UInt8)

/-- The key that an operation writes and the value that it leaves there. -/
def Operation.target : Operation -> ColumnFamily × List UInt8
  | .put cf key _ => (cf, key)
  | .delete cf key => (cf, key)

def Operation.written : Operation -> Option (List UInt8)
  | .put _ _ value => some value
  | .delete _ _ => none

structure Database where
  data : OrderedMap ColumnFamily (OrderedMap (List UInt8) (List UInt8))

namespace Database

def empty : Database := ⟨∅⟩

/-- `data_[cf]`. -/
def family (db : Database) (cf : ColumnFamily) : OrderedMap (List UInt8) (List UInt8) := (db.data[cf]?).getD ∅

def put (db : Database) (cf : ColumnFamily) (key value : List UInt8) : Database :=
  ⟨db.data.insert cf ((db.family cf).insert key value)⟩

def get (db : Database) (cf : ColumnFamily) (key : List UInt8) : Result (List UInt8) :=
  match db.data[cf]? with
  | none => .throws "Key not found"
  | some entries =>
      match entries[key]? with
      | none => .throws "Key not found"
      | some value => .value value

def del (db : Database) (cf : ColumnFamily) (key : List UInt8) : Database :=
  match db.data[cf]? with
  | none => db
  | some entries => ⟨db.data.insert cf (entries.erase key)⟩

/-- One iteration of `write_batch`. -/
def execute (db : Database) : Operation -> Database
  | .put cf key value => ⟨db.data.insert cf ((db.family cf).insert key value)⟩
  | .delete cf key => ⟨db.data.insert cf ((db.family cf).erase key)⟩

def writeBatch (db : Database) (operations : List Operation) : Database := operations.foldl execute db

/-- `Database::exists`. -/
def keyExists (db : Database) (cf : ColumnFamily) (key : List UInt8) : Bool :=
  match db.data[cf]? with
  | none => false
  | some entries => (entries[key]?).isSome

/-! ## Lookups -/

/-- The value under a key of a family, if there is one. -/
def lookup (db : Database) (cf : ColumnFamily) (key : List UInt8) : Option (List UInt8) := (db.family cf)[key]?

theorem lookup_empty (cf : ColumnFamily) (key : List UInt8) : empty.lookup cf key = none := by
  have nothing : empty.data[cf]? = none := Std.ExtTreeMap.getElem?_empty
  unfold lookup family
  rw [nothing]
  exact Std.ExtTreeMap.getElem?_empty

theorem get_eq (db : Database) (cf : ColumnFamily) (key : List UInt8) :
    db.get cf key = (db.lookup cf key).elim (.throws "Key not found") .value := by
  unfold get lookup family
  cases db.data[cf]? with
  | none => rfl
  | some entries =>
      change _ = (entries[key]?).elim _ _
      cases found : entries[key]? with
      | none => simp only [found, Option.elim_none]
      | some value => simp only [found, Option.elim_some]

theorem keyExists_eq (db : Database) (cf : ColumnFamily) (key : List UInt8) :
    db.keyExists cf key = (db.lookup cf key).isSome := by
  unfold keyExists lookup family
  cases db.data[cf]? with
  | none => rfl
  | some entries => rfl

theorem family_insert (db : Database) (cf other : ColumnFamily) (entries : OrderedMap (List UInt8) (List UInt8)) :
    family ⟨db.data.insert cf entries⟩ other = if other = cf then entries else db.family other := by
  unfold family
  rw [OrderedMap.find_insert]
  split
  · rfl
  · rfl

/-- An operation writes one key of one family. -/
theorem lookup_execute (db : Database) (operation : Operation) (cf : ColumnFamily) (key : List UInt8) :
    (db.execute operation).lookup cf key =
      if (cf, key) = operation.target then operation.written else db.lookup cf key := by
  cases operation with
  | put family target value =>
      simp only [execute, lookup, family_insert, Operation.target, Operation.written, Prod.mk.injEq]
      by_cases same : cf = family
      · rw [if_pos same, OrderedMap.find_insert, same]
        simp only [true_and]
      · rw [if_neg same, if_neg fun both => same both.1]
  | delete family target =>
      simp only [execute, lookup, family_insert, Operation.target, Operation.written, Prod.mk.injEq]
      by_cases same : cf = family
      · rw [if_pos same, OrderedMap.find_erase, same]
        simp only [true_and]
      · rw [if_neg same, if_neg fun both => same both.1]

/-- A deletion from a family that is not there creates none, which no lookup sees. -/
theorem lookup_del (db : Database) (cf other : ColumnFamily) (key target : List UInt8) :
    (db.del cf target).lookup other key = (db.execute (.delete cf target)).lookup other key := by
  rw [lookup_execute]
  unfold del
  cases found : db.data[cf]? with
  | none =>
      change db.lookup other key = if (other, key) = (cf, target) then none else db.lookup other key
      split
      · rename_i same
        rw [(Prod.mk.inj same).1, lookup, family, found]
        exact Std.ExtTreeMap.getElem?_empty
      · rfl
  | some entries =>
      have erased := lookup_execute db (.delete cf target) other key
      rw [execute, family, found, Option.getD_some] at erased
      exact erased

end Database
end Storage
end Sarafu
