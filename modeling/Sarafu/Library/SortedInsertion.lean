import Mathlib

namespace Library
namespace SortedInsertion

/-!
# Insertion into a sorted list

An item is placed behind the longest prefix whose items all pass a test.  If the list is
ordered, the items that pass belong before the new one and those that fail behind it, so
the result is ordered.  Whether equals stand before or behind the new item is a matter
of the test alone.
-/

universe u

variable {Item : Type u}

/-- `items` with `item` behind the longest prefix on which `before` holds. -/
def place (before : Item -> Bool) (item : Item) (items : List Item) : List Item :=
  items.takeWhile before ++ item :: items.dropWhile before

theorem place_perm (before : Item -> Bool) (item : Item) (items : List Item) :
    (place before item items).Perm (item :: items) := by
  have front : (place before item items).Perm (item :: (items.takeWhile before ++ items.dropWhile before)) :=
    List.perm_middle
  rw [List.takeWhile_append_dropWhile] at front
  exact front

theorem mem_place {before : Item -> Bool} {item other : Item} {items : List Item} :
    other ∈ place before item items <-> other = item ∨ other ∈ items :=
  (place_perm before item items).mem_iff.trans List.mem_cons

theorem length_place (before : Item -> Bool) (item : Item) (items : List Item) :
    (place before item items).length = items.length + 1 :=
  (place_perm before item items).length_eq

/-- Every item behind the prefix is ordered after the new item if the first one is. -/
theorem rel_of_mem_dropWhile {R : Item -> Item -> Prop} {before : Item -> Bool} {item : Item} {items : List Item}
    (transitive : forall first second third, R first second -> R second third -> R first third)
    (behind : forall other, before other = false -> R item other) (ordered : items.Pairwise R) :
    forall other, other ∈ items.dropWhile before -> R item other := by
  induction items with
  | nil => exact nofun
  | cons head rest inductionHypothesis =>
      rw [List.pairwise_cons] at ordered
      rw [List.dropWhile_cons]
      split
      · exact inductionHypothesis ordered.2
      · rename_i fails
        have after : R item head := behind head (Bool.not_eq_true _ ▸ fails)
        intro other member
        rcases List.mem_cons.mp member with same | later
        · rw [same]
          exact after
        · exact transitive item head other after (ordered.1 other later)

/-- Placing keeps a list ordered. -/
theorem pairwise_place {R : Item -> Item -> Prop} {before : Item -> Bool} {item : Item} {items : List Item}
    (transitive : forall first second third, R first second -> R second third -> R first third)
    (ahead : forall other, before other = true -> R other item)
    (behind : forall other, before other = false -> R item other) (ordered : items.Pairwise R) :
    (place before item items).Pairwise R := by
  have split := List.takeWhile_append_dropWhile (p := before) (l := items)
  have halves := ordered
  rw [← split, List.pairwise_append] at halves
  have after := rel_of_mem_dropWhile transitive behind ordered
  unfold place
  rw [List.pairwise_append, List.pairwise_cons]
  refine ⟨halves.1, ⟨after, halves.2.1⟩, ?_⟩
  intro left passes right member
  rcases List.mem_cons.mp member with same | later
  · rw [same]
    exact ahead left (List.mem_takeWhile_imp passes)
  · exact halves.2.2 left passes right later

end SortedInsertion
end Library
