import Mathlib

namespace Library
namespace KeyedMaps

/-!
# Ordered maps: totals and stored records

The total of a map adds up a weight over its entries.  An assignment moves the
total by the difference of the new and the old entry, whatever the other entries
are, and no entry weighs more than the total.

Records with distinct keys can be stored one after another under their own keys.
Each of them is then found under its key, every other key is as before, and if the
records cover all keys of the map they are all that it holds.
-/

universe u v

variable {Key : Type u} {Value : Type v} {order : Key -> Key -> Ordering} [Std.TransCmp order] [Std.LawfulEqCmp order]

open Std

/-- The sum of the weights of all entries. -/
def total (weight : Value -> Nat) (map : ExtTreeMap Key Value order) : Nat :=
  (map.toList.map fun entry => weight entry.2).sum

/-- The weight stored under a key, or zero. -/
def weightAt (weight : Value -> Nat) (map : ExtTreeMap Key Value order) (key : Key) : Nat :=
  (map[key]?).elim 0 weight

variable {weight : Value -> Nat} {map : ExtTreeMap Key Value order} {key : Key} {value : Value}

theorem nodup_toList (map : ExtTreeMap Key Value order) : map.toList.Nodup := by
  refine map.distinct_keys_toList.imp ?_
  rintro left right distinct rfl
  exact distinct ReflCmp.compare_self

/-- The entries of a map are those under a key and those of the map without it. -/
theorem toList_perm_erase (found : map[key]? = some value) :
    map.toList.Perm ((key, value) :: (map.erase key).toList) := by
  have fresh : (key, value) ∉ (map.erase key).toList := by
    rw [ExtTreeMap.mem_toList_iff_getElem?_eq_some, ExtTreeMap.getElem?_erase_self]
    exact Option.some_ne_none value ∘ Eq.symm
  rw [List.perm_ext_iff_of_nodup (nodup_toList map) (List.nodup_cons.mpr ⟨fresh, nodup_toList _⟩)]
  rintro ⟨other, stored⟩
  rw [List.mem_cons, ExtTreeMap.mem_toList_iff_getElem?_eq_some, ExtTreeMap.mem_toList_iff_getElem?_eq_some,
    ExtTreeMap.getElem?_erase, Prod.mk.injEq]
  by_cases same : order key other = .eq
  · cases LawfulEqCmp.eq_of_compare same
    rw [if_pos same, found, Option.some.injEq]
    constructor
    · intro equal
      exact Or.inl ⟨rfl, equal.symm⟩
    · rintro (⟨_, equal⟩ | impossible)
      · exact equal.symm
      · cases impossible
  · rw [if_neg same]
    constructor
    · exact Or.inr
    · rintro (⟨equal, _⟩ | elsewhere)
      · exact absurd (equal ▸ ReflCmp.compare_self) same
      · exact elsewhere

theorem total_of_getElem (weight : Value -> Nat) (found : map[key]? = some value) :
    total weight map = weight value + total weight (map.erase key) := by
  unfold total
  rw [((toList_perm_erase found).map _).sum_eq]
  exact List.sum_cons

theorem total_erase (weight : Value -> Nat) (map : ExtTreeMap Key Value order) (key : Key) :
    total weight map = weightAt weight map key + total weight (map.erase key) := by
  unfold weightAt
  cases found : map[key]? with
  | some value => exact total_of_getElem weight found
  | none =>
      have absent : map.erase key = map := by
        apply ExtTreeMap.ext_getElem?
        intro other
        rw [ExtTreeMap.getElem?_erase]
        split
        · rename_i same
          rw [← LawfulEqCmp.eq_of_compare same, found]
        · rfl
      rw [absent]
      exact (Nat.zero_add _).symm

/-- An assignment replaces the weight under its key. -/
theorem total_insert (weight : Value -> Nat) (map : ExtTreeMap Key Value order) (key : Key) (value : Value) :
    total weight (map.insert key value) + weightAt weight map key = total weight map + weight value := by
  have others : (map.insert key value).erase key = map.erase key := by
    apply ExtTreeMap.ext_getElem?
    intro other
    rw [ExtTreeMap.getElem?_erase, ExtTreeMap.getElem?_erase, ExtTreeMap.getElem?_insert]
    split
    · rfl
    · rfl
  have stored : (map.insert key value)[key]? = some value := ExtTreeMap.getElem?_insert_self
  have after := total_of_getElem weight stored
  rw [others] at after
  rw [after, total_erase weight map key]
  omega

theorem weightAt_le_total (weight : Value -> Nat) (map : ExtTreeMap Key Value order) (key : Key) :
    weightAt weight map key ≤ total weight map := by
  rw [total_erase weight map key]
  exact Nat.le_add_right _ _

theorem weightAt_erase_of_ne (weight : Value -> Nat) (map : ExtTreeMap Key Value order) {other : Key}
    (distinct : other ≠ key) : weightAt weight (map.erase key) other = weightAt weight map other := by
  unfold weightAt
  rw [ExtTreeMap.getElem?_erase, if_neg fun same => distinct (LawfulEqCmp.eq_of_compare same).symm]

/-- The weights under distinct keys are part of the total. -/
theorem sum_weightAt_le_total (weight : Value -> Nat) (map : ExtTreeMap Key Value order) {keys : List Key}
    (distinct : keys.Nodup) : (keys.map (weightAt weight map)).sum ≤ total weight map := by
  induction keys generalizing map with
  | nil => exact Nat.zero_le _
  | cons key rest inductionHypothesis =>
      rw [List.nodup_cons] at distinct
      have later := inductionHypothesis (map.erase key) distinct.2
      have same : rest.map (weightAt weight (map.erase key)) = rest.map (weightAt weight map) := by
        apply List.map_congr_left
        intro other member
        exact weightAt_erase_of_ne weight map fun equal => distinct.1 (equal ▸ member)
      rw [List.map_cons, List.sum_cons, total_erase weight map key, ← same]
      exact Nat.add_le_add_left later _

omit [LawfulEqCmp order] in
/-- The total after a change of every entry, and what the change has taken. -/
theorem total_map (weight taken : Value -> Nat) (change : Value -> Value) (map : ExtTreeMap Key Value order)
    (lowers : forall value, weight (change value) + taken value = weight value) :
    total weight (map.map fun _ value => change value) + total taken map = total weight map := by
  unfold total
  rw [ExtTreeMap.toList_map]
  induction map.toList with
  | nil => rfl
  | cons entry rest inductionHypothesis =>
      simp only [List.map_cons, List.sum_cons]
      have here := lowers entry.2
      omega

/-! ## Storing records under their own keys -/

/-- Assign every record to its key, in order. -/
def storeAll (keyOf : Value -> Key) (records : List Value) (map : ExtTreeMap Key Value order) :
    ExtTreeMap Key Value order :=
  records.foldl (fun stored record => stored.insert (keyOf record) record) map

variable {keyOf : Value -> Key} {records : List Value}

theorem getElem?_storeAll_of_not_mem (map : ExtTreeMap Key Value order) (absent : key ∉ records.map keyOf) :
    (storeAll keyOf records map)[key]? = map[key]? := by
  induction records generalizing map with
  | nil => rfl
  | cons record rest inductionHypothesis =>
      rw [List.map_cons, List.mem_cons, not_or] at absent
      have later := inductionHypothesis (map.insert (keyOf record) record) absent.2
      rw [ExtTreeMap.getElem?_insert, if_neg fun same => absent.1 (LawfulEqCmp.eq_of_compare same).symm] at later
      exact later

theorem getElem?_storeAll_of_mem (map : ExtTreeMap Key Value order) (distinct : (records.map keyOf).Nodup)
    (member : value ∈ records) : (storeAll keyOf records map)[keyOf value]? = some value := by
  induction records generalizing map with
  | nil => cases member
  | cons record rest inductionHypothesis =>
      rw [List.map_cons, List.nodup_cons] at distinct
      rcases List.mem_cons.mp member with here | later
      · have kept := getElem?_storeAll_of_not_mem (map.insert (keyOf record) record) distinct.1
        rw [ExtTreeMap.getElem?_insert_self] at kept
        rw [here]
        exact kept
      · exact inductionHypothesis (map.insert (keyOf record) record) distinct.2 later

/-- Records that cover all keys are the values of the map. -/
theorem getElem?_storeAll_iff (map : ExtTreeMap Key Value order) (distinct : (records.map keyOf).Nodup)
    (covers : forall other stored, map[other]? = some stored -> other ∈ records.map keyOf) :
    (storeAll keyOf records map)[key]? = some value <-> value ∈ records ∧ keyOf value = key := by
  constructor
  · intro found
    by_cases covered : key ∈ records.map keyOf
    · rcases List.mem_map.mp covered with ⟨record, member, own⟩
      rw [← own, getElem?_storeAll_of_mem map distinct member] at found
      rw [← Option.some.inj found]
      exact ⟨member, own⟩
    · rw [getElem?_storeAll_of_not_mem map covered] at found
      exact absurd (covers key value found) covered
  · rintro ⟨member, rfl⟩
    exact getElem?_storeAll_of_mem map distinct member

/-- Whatever is stored was there before or is one of the records. -/
theorem mem_of_getElem?_storeAll (map : ExtTreeMap Key Value order)
    (found : (storeAll keyOf records map)[key]? = some value) :
    map[key]? = some value ∨ (value ∈ records ∧ keyOf value = key) := by
  induction records generalizing map with
  | nil => exact Or.inl found
  | cons record rest inductionHypothesis =>
      rcases inductionHypothesis (map.insert (keyOf record) record) found with earlier | ⟨member, own⟩
      · rw [ExtTreeMap.getElem?_insert] at earlier
        split at earlier
        · rename_i same
          cases Option.some.inj earlier
          exact Or.inr ⟨List.mem_cons_self, LawfulEqCmp.eq_of_compare same⟩
        · exact Or.inl earlier
      · exact Or.inr ⟨List.mem_cons_of_mem record member, own⟩

/-- Every record leaves a record under its key, its own or that of a later one. -/
theorem exists_getElem?_storeAll (keyOf : Value -> Key) (map : ExtTreeMap Key Value order) (member : value ∈ records) :
    ∃ stored, (storeAll keyOf records map)[keyOf value]? = some stored := by
  induction records generalizing map value with
  | nil => cases member
  | cons record rest inductionHypothesis =>
      rcases List.mem_cons.mp member with here | later
      · by_cases again : keyOf value ∈ rest.map keyOf
        · rcases List.mem_map.mp again with ⟨other, listed, same⟩
          rw [← same]
          exact inductionHypothesis (map.insert (keyOf record) record) listed
        · refine ⟨value, ?_⟩
          rw [here] at again ⊢
          have kept := getElem?_storeAll_of_not_mem (map.insert (keyOf record) record) again
          rw [ExtTreeMap.getElem?_insert_self] at kept
          exact kept
      · exact inductionHypothesis (map.insert (keyOf record) record) later

theorem values_storeAll_perm (map : ExtTreeMap Key Value order) (distinct : (records.map keyOf).Nodup)
    (covers : forall other stored, map[other]? = some stored -> other ∈ records.map keyOf) :
    ((storeAll keyOf records map).toList.map Prod.snd).Perm records := by
  have entries : (storeAll keyOf records map).toList.Perm (records.map fun record => (keyOf record, record)) := by
    rw [List.perm_ext_iff_of_nodup (nodup_toList _)
      ((distinct.of_map keyOf).map fun _ _ same => congrArg Prod.snd same)]
    rintro ⟨other, stored⟩
    rw [ExtTreeMap.mem_toList_iff_getElem?_eq_some, getElem?_storeAll_iff map distinct covers, List.mem_map]
    constructor
    · rintro ⟨member, own⟩
      exact ⟨stored, member, by rw [own]⟩
    · rintro ⟨record, member, same⟩
      rw [Prod.mk.injEq] at same
      exact ⟨same.2 ▸ member, same.2 ▸ same.1⟩
  have values := entries.map Prod.snd
  rw [List.map_map] at values
  exact values.trans (List.Perm.of_eq (List.map_id records))

theorem total_storeAll (weight : Value -> Nat) (map : ExtTreeMap Key Value order) (distinct : (records.map keyOf).Nodup)
    (covers : forall other stored, map[other]? = some stored -> other ∈ records.map keyOf) :
    total weight (storeAll keyOf records map) = (records.map weight).sum := by
  have values := ((values_storeAll_perm map distinct covers).map weight).sum_eq
  rw [List.map_map] at values
  exact values

end KeyedMaps
end Library
