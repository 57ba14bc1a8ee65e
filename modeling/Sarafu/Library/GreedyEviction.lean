import Mathlib

namespace Library
namespace GreedyEviction

/-!
# Evicting the lowest entries of a map

A search goes over the entries once.  It starts with a bound and keeps the key of the last
entry that was below the bound and below all the entries before it.  If some entry is below
the first bound, a lowest entry is found.

When lowest entries are evicted one after the other, no entry that is evicted ranks above
one that remains.
-/

universe u v w

open Std

section Search

variable {Key : Type u} {Value : Type v}

/-- One pass with a strict comparison, over the entries that are eligible. -/
def search (eligible : Value -> Bool) (score : Value -> Nat) (bound : Nat) (unset : Key)
    (entries : List (Key × Value)) : Nat × Key :=
  entries.foldl (fun best entry =>
    if eligible entry.2 && decide (score entry.2 < best.1) then (score entry.2, entry.1) else best) (bound, unset)

/-- Either no eligible entry is below the bound, or a lowest one is found. -/
theorem search_cases (eligible : Value -> Bool) (score : Value -> Nat) (bound : Nat) (unset : Key)
    (entries : List (Key × Value)) :
    (search eligible score bound unset entries = (bound, unset) ∧
      forall entry, entry ∈ entries -> eligible entry.2 = true -> bound ≤ score entry.2) ∨
    ∃ entry, entry ∈ entries ∧ search eligible score bound unset entries = (score entry.2, entry.1) ∧
      eligible entry.2 = true ∧ score entry.2 < bound ∧
        forall other, other ∈ entries -> eligible other.2 = true -> score entry.2 ≤ score other.2 := by
  induction entries using List.reverseRecOn with
  | nil => exact Or.inl ⟨rfl, nofun⟩
  | append_singleton entries last inductionHypothesis =>
      have turn : search eligible score bound unset (entries ++ [last]) =
          if eligible last.2 && decide (score last.2 < (search eligible score bound unset entries).1)
            then (score last.2, last.1) else search eligible score bound unset entries := by
        unfold search
        rw [List.foldl_append]
        rfl
      have lastListed : last ∈ entries ++ [last] := List.mem_append_right _ (List.mem_singleton_self last)
      by_cases below : eligible last.2 = true ∧ score last.2 < (search eligible score bound unset entries).1
      · rw [below.1, decide_eq_true below.2, Bool.and_self, if_pos rfl] at turn
        right
        -- the last entry is below what was kept, so below everything before it
        rcases inductionHypothesis with ⟨kept, none⟩ | ⟨entry, member, kept, fits, under, lowest⟩
        · rw [kept] at below
          refine ⟨last, lastListed, turn, below.1, below.2, List.forall_mem_append.mpr ⟨?_, ?_⟩⟩
          · exact fun other old wanted => Nat.le_trans (Nat.le_of_lt below.2) (none other old wanted)
          · exact List.forall_mem_singleton.mpr fun _ => Nat.le_refl _
        · rw [kept] at below
          refine ⟨last, lastListed, turn, below.1, Nat.lt_trans below.2 under, List.forall_mem_append.mpr ⟨?_, ?_⟩⟩
          · exact fun other old wanted => Nat.le_trans (Nat.le_of_lt below.2) (lowest other old wanted)
          · exact List.forall_mem_singleton.mpr fun _ => Nat.le_refl _
      · have stays :
            (eligible last.2 && decide (score last.2 < (search eligible score bound unset entries).1)) = false := by
          rw [Bool.and_eq_false_iff, decide_eq_false_iff_not, Bool.eq_false_iff]
          exact not_and_or.mp below
        rw [stays, if_neg Bool.false_ne_true] at turn
        have above : eligible last.2 = true -> (search eligible score bound unset entries).1 ≤ score last.2 :=
          fun wanted => Nat.not_lt.mp fun less => below ⟨wanted, less⟩
        rw [turn]
        rcases inductionHypothesis with ⟨kept, none⟩ | ⟨entry, member, kept, fits, under, lowest⟩
        · rw [kept] at above
          exact Or.inl ⟨kept, List.forall_mem_append.mpr ⟨none, List.forall_mem_singleton.mpr above⟩⟩
        · rw [kept] at above
          exact Or.inr ⟨entry, List.mem_append_left _ member, kept, fits, under,
            List.forall_mem_append.mpr ⟨lowest, List.forall_mem_singleton.mpr above⟩⟩

end Search

variable {Key : Type u} {Value : Type v} {Rank : Type w} {order : Key -> Key -> Ordering} [TransCmp order]
  [Preorder Rank] {rank : Value -> Rank} {before after : ExtTreeMap Key Value order} {key : Key}

/-- No entry of the map ranks below the one under the key. -/
def Lowest (rank : Value -> Rank) (map : ExtTreeMap Key Value order) (key : Key) : Prop :=
  ∃ value, map[key]? = some value ∧
    forall (other : Key) (stored : Value), map[other]? = some stored -> rank value ≤ rank stored

/-- What remains is as it was, and nothing evicted ranks above it. -/
structure Keeps (rank : Value -> Rank) (before after : ExtTreeMap Key Value order) : Prop where
  unchanged : forall (key : Key) (value : Value), after[key]? = some value -> before[key]? = some value
  lowest : forall (key : Key) (value : Value), before[key]? = some value -> after[key]? = none ->
    forall (other : Key) (stored : Value), after[other]? = some stored -> rank value ≤ rank stored

theorem Keeps.refl (map : ExtTreeMap Key Value order) : Keeps rank map map := by
  constructor
  · exact fun _ _ found => found
  · intro key value found gone
    rw [found] at gone
    cases gone

variable [LawfulEqCmp order]

/-- The first entry to be evicted is a lowest one. -/
theorem Keeps.of_erase (first : Lowest rank before key) (keeps : Keeps rank (before.erase key) after) :
    Keeps rank before after := by
  have within : forall (other : Key) (value : Value), after[other]? = some value -> before[other]? = some value := by
    intro other value found
    have rest := keeps.unchanged other value found
    rw [ExtTreeMap.getElem?_erase] at rest
    split at rest
    · cases rest
    · exact rest
  refine ⟨within, ?_⟩
  intro evicted value found gone other stored remains
  by_cases same : order key evicted = .eq
  · rcases first with ⟨least, held, lowest⟩
    rw [LawfulEqCmp.eq_of_compare same, found] at held
    rw [Option.some.inj held]
    exact lowest other stored (within other stored remains)
  · refine keeps.lowest evicted value ?_ gone other stored remains
    rw [ExtTreeMap.getElem?_erase, if_neg same]
    exact found

end GreedyEviction
end Library
