import Mathlib

namespace Library
namespace RankedPlaces

/-!
# Places given by rank

A limited number of places is given out along a ranking: an item takes a place if its
rank is within the limit and it passes a test.  An item that fails keeps the place of its
rank empty.  All places that can be filled are filled exactly if no item within the limit
fails, or no item beyond it passes.
-/

universe u v

variable {Item : Type u} {Result : Type v}

/-- The places are counted by the items within the limit that pass. -/
theorem length_filter_mapIdx (test : Result -> Bool) (fits : Item -> Bool) (items : List Item) (limit : Nat)
    (select : Nat -> Item -> Result)
    (spec : forall index item, test (select index item) = (decide (index < limit) && fits item)) :
    ((items.mapIdx select).filter test).length = ((items.take limit).filter fits).length := by
  induction items generalizing limit select with
  | nil =>
      rw [List.take_nil]
      rfl
  | cons item rest inductionHypothesis =>
      have here := spec 0 item
      rw [List.mapIdx_cons, List.filter_cons, here]
      cases limit with
      | zero =>
          have later := inductionHypothesis 0 (fun index => select (index + 1)) fun index next => by
            rw [spec (index + 1) next]
            rfl
          rw [List.take_zero] at later ⊢
          exact later
      | succ smaller =>
          have later := inductionHypothesis smaller (fun index => select (index + 1)) fun index next => by
            rw [spec (index + 1) next]
            simp only [Nat.add_lt_add_iff_right]
          rw [List.take_succ_cons, List.filter_cons]
          simp only [Nat.zero_lt_succ, decide_true, Bool.true_and]
          split
          · rw [List.length_cons, List.length_cons, later]
          · exact later

/-- A list in which some item fails has fewer items that pass. -/
theorem length_filter_lt {test : Item -> Bool} {items : List Item} {item : Item} (member : item ∈ items)
    (fails : test item = false) : (items.filter test).length < items.length := by
  apply List.length_filter_lt_length_iff_exists.mpr
  exact ⟨item, member, Bool.eq_false_iff.mp fails⟩

/-- The places within the limit hold as many items as there are places and passing
items exactly if nobody who fails stands before somebody who passes and has no place. -/
theorem length_filter_take_eq_min_iff (test : Item -> Bool) (items : List Item) (limit : Nat) :
    ((items.take limit).filter test).length = min limit (items.filter test).length <->
      (forall item, item ∈ items.take limit -> test item = true) ∨
        forall item, item ∈ items.drop limit -> test item = false := by
  have split : (items.filter test).length =
      ((items.take limit).filter test).length + ((items.drop limit).filter test).length := by
    rw [← List.length_append, ← List.filter_append, List.take_append_drop]
  have within : ((items.take limit).filter test).length ≤ (items.take limit).length := List.length_filter_le _ _
  have most : (items.take limit).length ≤ limit := List.length_take_le _ _
  constructor
  · intro equal
    by_contra both
    push Not at both
    rcases both with ⟨⟨first, firstMember, fails⟩, second, secondMember, passes⟩
    have fewer := length_filter_lt firstMember (Bool.eq_false_iff.mpr fails)
    have beyond : 0 < ((items.drop limit).filter test).length :=
      List.length_pos_of_mem (List.mem_filter.mpr ⟨secondMember, Bool.eq_true_of_not_eq_false passes⟩)
    omega
  · rintro (all | none)
    · have full : (items.take limit).filter test = items.take limit := List.filter_eq_self.mpr all
      rw [full] at split ⊢
      rw [List.length_take] at split ⊢
      have rest : ((items.drop limit).filter test).length ≤ items.length - limit := by
        rw [← List.length_drop]
        exact List.length_filter_le _ _
      omega
    · have empty : (items.drop limit).filter test = [] := by
        apply List.filter_eq_nil_iff.mpr
        intro item member
        exact Bool.eq_false_iff.mp (none item member)
      rw [empty, List.length_nil] at split
      omega

end RankedPlaces
end Library
