import Mathlib

namespace Library
namespace PairTree

/-!
# Trees built by pairing neighbours

A level is a list of nodes.  Its neighbours are paired from the left, and the last
node of an odd level is paired with itself.  Combining the pairs gives the next
level.  On levels without repetitions the pairs determine the level, so a
combination that is injective on the pairs it meets can be undone level by level,
whatever the lengths of the two levels are.
-/

universe u v

variable {Node : Type u}

/-- The pairs of a level. -/
def pairs : List Node -> List (Node × Node)
  | [] => []
  | [last] => [(last, last)]
  | left :: right :: rest => (left, right) :: pairs rest

/-- The next level. -/
def rise (combine : Node × Node -> Node) (level : List Node) : List Node := (pairs level).map combine

/-- The pairs that are combined in the first levels above a level. -/
def usedPairs (combine : Node × Node -> Node) : Nat -> List Node -> List (Node × Node)
  | 0, _ => []
  | height + 1, level => pairs level ++ usedPairs combine height (rise combine level)

theorem mem_of_mem_pairs {level : List Node} {pair : Node × Node} (member : pair ∈ pairs level) :
    pair.1 ∈ level ∧ pair.2 ∈ level := by
  induction level using pairs.induct with
  | case1 => cases member
  | case2 last =>
      rw [pairs, List.mem_singleton] at member
      rw [member]
      exact ⟨List.mem_singleton_self last, List.mem_singleton_self last⟩
  | case3 left right rest inductionHypothesis =>
      rw [pairs, List.mem_cons] at member
      rcases member with rfl | later
      · exact ⟨List.mem_cons_self, List.mem_cons_of_mem left List.mem_cons_self⟩
      · rcases inductionHypothesis later with ⟨first, second⟩
        exact ⟨List.mem_cons_of_mem left (List.mem_cons_of_mem right first),
          List.mem_cons_of_mem left (List.mem_cons_of_mem right second)⟩

theorem nodup_pairs {level : List Node} (distinct : level.Nodup) : (pairs level).Nodup := by
  induction level using pairs.induct with
  | case1 => exact List.nodup_nil
  | case2 last => exact List.nodup_singleton _
  | case3 left right rest inductionHypothesis =>
      rw [List.nodup_cons, List.nodup_cons] at distinct
      rw [pairs, List.nodup_cons]
      refine ⟨?_, inductionHypothesis distinct.2.2⟩
      intro repeated
      exact distinct.1 (List.mem_cons_of_mem right (mem_of_mem_pairs repeated).1)

/-- A node paired with itself only ends a level, so the pairs can be read back. -/
theorem pairs_inj {left right : List Node} (leftDistinct : left.Nodup) (rightDistinct : right.Nodup)
    (same : pairs left = pairs right) : left = right := by
  induction left using pairs.induct generalizing right with
  | case1 =>
      cases right using pairs.fun_cases with
      | case1 => rfl
      | case2 last => cases same
      | case3 first second rest => cases same
  | case2 last =>
      cases right using pairs.fun_cases with
      | case1 => cases same
      | case2 other =>
          cases same
          rfl
      | case3 first second rest =>
          rw [pairs, pairs, List.cons.injEq, Prod.mk.injEq] at same
          rcases same with ⟨⟨rfl, rfl⟩, _⟩
          exact absurd List.mem_cons_self (List.nodup_cons.mp rightDistinct).1
  | case3 first second rest inductionHypothesis =>
      cases right using pairs.fun_cases with
      | case1 => cases same
      | case2 last =>
          rw [pairs, pairs, List.cons.injEq, Prod.mk.injEq] at same
          rcases same with ⟨⟨rfl, rfl⟩, _⟩
          exact absurd List.mem_cons_self (List.nodup_cons.mp leftDistinct).1
      | case3 otherFirst otherSecond otherRest =>
          rw [pairs, pairs, List.cons.injEq, Prod.mk.injEq] at same
          rcases same with ⟨⟨rfl, rfl⟩, later⟩
          rw [inductionHypothesis leftDistinct.of_cons.of_cons rightDistinct.of_cons.of_cons later]

variable {combine : Node × Node -> Node}

/-- No two different pairs of a list are combined to the same node. -/
def InjectiveOn (combine : Node × Node -> Node) (used : List (Node × Node)) : Prop :=
  forall first, first ∈ used -> forall second, second ∈ used -> combine first = combine second -> first = second

theorem InjectiveOn.mono {used fewer : List (Node × Node)} (injective : InjectiveOn combine used)
    (subset : fewer ⊆ used) : InjectiveOn combine fewer := by
  intro first firstUsed second secondUsed same
  exact injective first (subset firstUsed) second (subset secondUsed) same

theorem nodup_rise {level : List Node} (distinct : level.Nodup) (injective : InjectiveOn combine (pairs level)) :
    (rise combine level).Nodup := by
  apply List.Nodup.map_on
  · intro first firstUsed second secondUsed same
    exact injective first firstUsed second secondUsed same
  · exact nodup_pairs distinct

/-- A function that tells the items of two lists apart tells the lists apart. -/
theorem map_inj_on {Source : Type u} {Target : Type v} {image : Source -> Target} {first second : List Source}
    (injective : forall item, item ∈ first -> forall other, other ∈ second -> image item = image other -> item = other)
    (same : first.map image = second.map image) : first = second := by
  induction first generalizing second with
  | nil => exact (List.map_eq_nil_iff.mp same.symm).symm
  | cons head tail inductionHypothesis =>
      cases second with
      | nil => cases same
      | cons other rest =>
          rw [List.map_cons, List.map_cons, List.cons.injEq] at same
          have heads := injective head List.mem_cons_self other List.mem_cons_self same.1
          have tails := inductionHypothesis (fun item member another listed =>
            injective item (List.mem_cons_of_mem head member) another (List.mem_cons_of_mem other listed)) same.2
          rw [heads, tails]

theorem InjectiveOn.map_inj {first second : List (Node × Node)} (injective : InjectiveOn combine (first ++ second))
    (same : first.map combine = second.map combine) : first = second :=
  map_inj_on (fun item member other listed =>
    injective item (List.mem_append_left _ member) other (List.mem_append_right _ listed)) same

theorem usedPairs_add (combine : Node × Node -> Node) (lower upper : Nat) (level : List Node) :
    usedPairs combine (lower + upper) level =
      usedPairs combine lower level ++ usedPairs combine upper ((rise combine)^[lower] level) := by
  induction lower generalizing level with
  | zero => rw [Nat.zero_add, usedPairs, List.nil_append, Function.iterate_zero_apply]
  | succ lower inductionHypothesis =>
      rw [Nat.succ_add, usedPairs, inductionHypothesis, usedPairs, List.append_assoc, Function.iterate_succ_apply]

/-- Levels of the same height below a common level are equal. -/
theorem rise_iterate_inj {left right : List Node} (height : Nat) (leftDistinct : left.Nodup)
    (rightDistinct : right.Nodup)
    (injective : InjectiveOn combine (usedPairs combine height left ++ usedPairs combine height right))
    (same : (rise combine)^[height] left = (rise combine)^[height] right) : left = right := by
  induction height generalizing left right with
  | zero => exact same
  | succ height inductionHypothesis =>
      rw [Function.iterate_succ_apply, Function.iterate_succ_apply] at same
      have pairsUsed : InjectiveOn combine (pairs left ++ pairs right) :=
        injective.mono ((List.sublist_append_left _ _).append (List.sublist_append_left _ _)).subset
      have raised : rise combine left = rise combine right := by
        refine inductionHypothesis (nodup_rise leftDistinct (pairsUsed.mono (List.subset_append_left _ _)))
          (nodup_rise rightDistinct (pairsUsed.mono (List.subset_append_right _ _))) (injective.mono ?_) same
        exact ((List.sublist_append_right _ _).append (List.sublist_append_right _ _)).subset
      exact pairs_inj leftDistinct rightDistinct (pairsUsed.map_inj raised)

/-! ## Levels with repetitions

Levels of equal length can be told apart whether or not nodes repeat.  A level whose
length is a power of two and that has no repetitions can be told from any other.  On the
other hand, the end of a level can be repeated without a change above it.
-/

theorem length_pairs (level : List Node) : (pairs level).length = (level.length + 1) / 2 := by
  induction level using pairs.induct with
  | case1 => simp only [pairs, List.length_nil]
  | case2 last => simp only [pairs, List.length_singleton]
  | case3 left right rest inductionHypothesis =>
      rw [pairs, List.length_cons, List.length_cons, List.length_cons, inductionHypothesis]
      omega

theorem length_rise (combine : Node × Node -> Node) (level : List Node) :
    (rise combine level).length = (level.length + 1) / 2 :=
  (List.length_map combine).trans (length_pairs level)

theorem pairs_inj_of_length {left right : List Node} (sameLength : left.length = right.length)
    (same : pairs left = pairs right) : left = right := by
  induction left using pairs.induct generalizing right with
  | case1 => exact (List.length_eq_zero_iff.mp sameLength.symm).symm
  | case2 last =>
      rcases List.length_eq_one_iff.mp sameLength.symm with ⟨other, rfl⟩
      cases same
      rfl
  | case3 first second rest inductionHypothesis =>
      cases right using pairs.fun_cases with
      | case1 => cases sameLength
      | case2 last => cases sameLength
      | case3 otherFirst otherSecond otherRest =>
          rw [pairs, pairs, List.cons.injEq, Prod.mk.injEq] at same
          rcases same with ⟨⟨rfl, rfl⟩, later⟩
          rw [inductionHypothesis (Nat.add_right_cancel (Nat.add_right_cancel sameLength)) later]

theorem InjectiveOn.pairs {height : Nat} {left right : List Node}
    (injective : InjectiveOn combine (usedPairs combine (height + 1) left ++ usedPairs combine (height + 1) right)) :
    InjectiveOn combine (PairTree.pairs left ++ PairTree.pairs right) :=
  injective.mono ((List.sublist_append_left _ _).append (List.sublist_append_left _ _)).subset

theorem InjectiveOn.above {height : Nat} {left right : List Node}
    (injective : InjectiveOn combine (usedPairs combine (height + 1) left ++ usedPairs combine (height + 1) right)) :
    InjectiveOn combine
      (usedPairs combine height (rise combine left) ++ usedPairs combine height (rise combine right)) :=
  injective.mono ((List.sublist_append_right _ _).append (List.sublist_append_right _ _)).subset

/-- Levels of equal length below a common level are equal. -/
theorem rise_iterate_inj_of_length {left right : List Node} (height : Nat) (sameLength : left.length = right.length)
    (injective : InjectiveOn combine (usedPairs combine height left ++ usedPairs combine height right))
    (same : (rise combine)^[height] left = (rise combine)^[height] right) : left = right := by
  induction height generalizing left right with
  | zero => exact same
  | succ height inductionHypothesis =>
      rw [Function.iterate_succ_apply, Function.iterate_succ_apply] at same
      have lengths : (rise combine left).length = (rise combine right).length := by
        rw [length_rise, length_rise, sameLength]
      have raised := inductionHypothesis lengths injective.above same
      exact pairs_inj_of_length sameLength (injective.pairs.map_inj raised)

theorem pairs_inj_of_even {left right : List Node} (even : 2 ∣ left.length) (distinct : left.Nodup)
    (same : pairs left = pairs right) : left = right := by
  induction left using pairs.induct generalizing right with
  | case1 =>
      cases right using pairs.fun_cases with
      | case1 => rfl
      | case2 last => cases same
      | case3 first second rest => cases same
  | case2 last => exact absurd even (Nat.two_dvd_ne_zero.mpr rfl)
  | case3 first second rest inductionHypothesis =>
      cases right using pairs.fun_cases with
      | case1 => cases same
      | case2 last =>
          rw [pairs, pairs, List.cons.injEq, Prod.mk.injEq] at same
          rcases same with ⟨⟨rfl, rfl⟩, _⟩
          exact absurd List.mem_cons_self (List.nodup_cons.mp distinct).1
      | case3 otherFirst otherSecond otherRest =>
          rw [pairs, pairs, List.cons.injEq, Prod.mk.injEq] at same
          rcases same with ⟨⟨rfl, rfl⟩, later⟩
          rw [inductionHypothesis ((Nat.dvd_add_left (Nat.dvd_refl 2)).mp even) distinct.of_cons.of_cons later]

/-- A level that fills the tree below a common level, without repetitions, is the only one. -/
theorem rise_iterate_inj_of_full {left right : List Node} (height : Nat) (full : 2 ^ height ∣ left.length)
    (distinct : left.Nodup)
    (injective : InjectiveOn combine (usedPairs combine height left ++ usedPairs combine height right))
    (same : (rise combine)^[height] left = (rise combine)^[height] right) : left = right := by
  induction height generalizing left right with
  | zero => exact same
  | succ height inductionHypothesis =>
      rw [Function.iterate_succ_apply, Function.iterate_succ_apply] at same
      rcases full with ⟨count, full⟩
      have half : 2 ^ height ∣ (rise combine left).length := by
        refine ⟨count, ?_⟩
        rw [length_rise, full, Nat.pow_succ, Nat.mul_right_comm]
        omega
      have raised := inductionHypothesis half
        (nodup_rise distinct (injective.pairs.mono (List.subset_append_left _ _))) injective.above same
      refine pairs_inj_of_even ?_ distinct (injective.pairs.map_inj raised)
      rw [full, Nat.pow_succ, Nat.mul_right_comm]
      exact Nat.dvd_mul_left 2 _

theorem head_pairs (level : List Node) : (pairs level).head?.map Prod.fst = level.head? := by
  cases level using pairs.fun_cases with
  | case1 => rfl
  | case2 last => rfl
  | case3 left right rest => rfl

/-- The first node of a level can always be read back. -/
theorem head_eq_of_rise_iterate {left right : List Node} (height : Nat)
    (injective : InjectiveOn combine (usedPairs combine height left ++ usedPairs combine height right))
    (same : (rise combine)^[height] left = (rise combine)^[height] right) : left.head? = right.head? := by
  induction height generalizing left right with
  | zero => exact congrArg List.head? same
  | succ height inductionHypothesis =>
      rw [Function.iterate_succ_apply, Function.iterate_succ_apply] at same
      have heads := inductionHypothesis injective.above same
      rw [rise, rise, List.head?_map, List.head?_map] at heads
      rw [← head_pairs left, ← head_pairs right]
      cases leftPair : (pairs left).head? with
      | none =>
          rw [leftPair] at heads
          rw [Option.map_eq_none_iff.mp heads.symm]
      | some first =>
          rw [leftPair] at heads
          rcases Option.map_eq_some_iff.mp heads.symm with ⟨second, rightPair, equal⟩
          rw [rightPair, injective.pairs first (List.mem_append_left _ (List.mem_of_mem_head? leftPair)) second
            (List.mem_append_right _ (List.mem_of_mem_head? rightPair)) equal.symm]

/-! ## Repeating the end of a level -/

/-- A level followed by its last nodes once more. -/
def repeatEnd (count : Nat) (level : List Node) : List Node := level ++ level.drop (level.length - count)

theorem map_repeatEnd {Image : Type v} (image : Node -> Image) (count : Nat) (level : List Node) :
    (repeatEnd count level).map image = repeatEnd count (level.map image) := by
  rw [repeatEnd, repeatEnd, List.map_append, List.map_drop, List.length_map]

theorem repeatEnd_subset (count : Nat) (level : List Node) : repeatEnd count level ⊆ level :=
  List.append_subset.mpr ⟨List.Subset.refl _, List.drop_subset _ _⟩

theorem length_repeatEnd {count : Nat} {level : List Node} (enough : count ≤ level.length) :
    (repeatEnd count level).length = level.length + count := by
  rw [repeatEnd, List.length_append, List.length_drop, Nat.sub_sub_self enough]

theorem pairs_append {level : List Node} (even : 2 ∣ level.length) (more : List Node) :
    pairs (level ++ more) = pairs level ++ pairs more := by
  induction level using pairs.induct with
  | case1 => rfl
  | case2 last => exact absurd even (Nat.two_dvd_ne_zero.mpr rfl)
  | case3 left right rest inductionHypothesis =>
      rw [List.cons_append, List.cons_append, pairs, pairs, List.cons_append,
        inductionHypothesis ((Nat.dvd_add_left (Nat.dvd_refl 2)).mp even)]

theorem pairs_drop (count : Nat) (level : List Node) : pairs (level.drop (2 * count)) = (pairs level).drop count := by
  induction count generalizing level with
  | zero => rfl
  | succ count inductionHypothesis =>
      cases level using pairs.fun_cases with
      | case1 => rfl
      | case2 last =>
          rw [Nat.mul_succ, pairs, List.drop_succ_cons, List.drop_succ_cons, List.drop_nil, List.drop_nil]
          rfl
      | case3 left right rest =>
          rw [Nat.mul_succ, pairs, List.drop_succ_cons, List.drop_succ_cons, List.drop_succ_cons, inductionHypothesis]

/-- The last node of an odd level is paired with itself anyway. -/
theorem pairs_repeatEnd_one {level : List Node} (odd : ¬2 ∣ level.length) :
    pairs (repeatEnd 1 level) = pairs level := by
  induction level using pairs.induct with
  | case1 => exact absurd (Nat.dvd_zero 2) odd
  | case2 last => rfl
  | case3 left right rest inductionHypothesis =>
      have fewer : ¬2 ∣ rest.length := odd ∘ (Nat.dvd_add_left (Nat.dvd_refl 2)).mpr
      have some : 1 ≤ rest.length := Nat.one_le_iff_ne_zero.mpr fun zero => fewer (zero ▸ Nat.dvd_zero 2)
      have length : (left :: right :: rest).length - 1 = rest.length - 1 + 1 + 1 := by
        rw [List.length_cons, List.length_cons]
        omega
      rw [repeatEnd, length, List.drop_succ_cons, List.drop_succ_cons, List.cons_append, List.cons_append, pairs, pairs]
      exact congrArg _ (inductionHypothesis fewer)

theorem pairs_repeatEnd_even {level : List Node} {count : Nat} (even : 2 ∣ level.length) :
    pairs (repeatEnd (2 * count) level) = repeatEnd count (pairs level) := by
  rcases even with ⟨half, length⟩
  rw [repeatEnd, pairs_append ⟨half, length⟩, length, ← Nat.mul_sub, pairs_drop, repeatEnd, length_pairs, length]
  congr 3
  omega

/-- The last `2 ^ height` nodes can be repeated, if all but the last block of that size
come in pairs: the levels above stay the same, and no further pair is combined. -/
theorem rise_iterate_repeatEnd (combine : Node × Node -> Node) (height : Nat) {level : List Node} {blocks : Nat}
    (odd : ¬2 ∣ blocks) (length : level.length = 2 ^ height * blocks) :
    (rise combine)^[height + 1] (repeatEnd (2 ^ height) level) = (rise combine)^[height + 1] level ∧
      usedPairs combine (height + 1) (repeatEnd (2 ^ height) level) ⊆ usedPairs combine (height + 1) level := by
  induction height generalizing level with
  | zero =>
      rw [Nat.pow_zero, Nat.one_mul] at length
      have same := pairs_repeatEnd_one (length ▸ odd)
      rw [Function.iterate_succ_apply, Function.iterate_succ_apply, usedPairs, usedPairs, rise, rise,
        Nat.pow_zero, same]
      exact ⟨rfl, List.Subset.refl _⟩
  | succ height inductionHypothesis =>
      rw [Nat.pow_succ'] at length ⊢
      have even : 2 ∣ level.length := ⟨2 ^ height * blocks, by rw [length, Nat.mul_assoc]⟩
      have repeated : pairs (repeatEnd (2 * 2 ^ height) level) = repeatEnd (2 ^ height) (pairs level) :=
        pairs_repeatEnd_even even
      have raised : rise combine (repeatEnd (2 * 2 ^ height) level) = repeatEnd (2 ^ height) (rise combine level) := by
        rw [rise, repeated, map_repeatEnd, rise]
      have half : (rise combine level).length = 2 ^ height * blocks := by
        rw [length_rise, length, Nat.mul_assoc]
        omega
      rcases inductionHypothesis half with ⟨same, fewer⟩
      refine ⟨?_, ?_⟩
      · rw [Function.iterate_succ_apply, raised, same, ← Function.iterate_succ_apply]
      · rw [usedPairs, usedPairs, repeated, raised]
        refine List.append_subset.mpr ⟨?_, List.Subset.trans fewer (List.subset_append_right _ _)⟩
        exact List.Subset.trans (repeatEnd_subset _ _) (List.subset_append_left _ _)

end PairTree
end Library
