import Sarafu.Library.PairTree

namespace Library
namespace PairTree

/-!
# Levels with the same tree as a level without repetitions

A level is grouped if equal nodes stand next to each other, as they do after sorting.
The only grouped levels below the levels above a repetition-free level are those that
repeat its last node, and not arbitrarily often: fewer times than a power of two that
divides the number of the places before it.
-/

universe u

variable {Node : Type u}

/-- Equal nodes stand next to each other. -/
def Grouped (level : List Node) : Prop :=
  forall outer inner, [outer, inner, outer].Sublist level -> inner = outer

theorem Grouped.of_pairwise {below : Node -> Node -> Prop} {level : List Node} (ordered : level.Pairwise below)
    (antisymmetric : forall left right, below left right -> below right left -> left = right) : Grouped level := by
  intro outer inner listed
  have kept := ordered.sublist listed
  rw [List.pairwise_cons, List.pairwise_cons] at kept
  exact antisymmetric inner outer (kept.2.1 outer List.mem_cons_self) (kept.1 inner List.mem_cons_self)

/-- The last item of a subsequence is the last item of the list, or stands before it. -/
theorem concat_sublist_concat (before : List Node) {level : List Node} {node last : Node}
    (listed : (before ++ [node]).Sublist (level ++ [last])) :
    (before ++ [node]).Sublist level ∨ (node = last ∧ before.Sublist level) := by
  rw [← List.reverse_sublist, List.reverse_concat, List.reverse_concat, List.cons_sublist_cons'] at listed
  rcases listed with earlier | ⟨same, rest⟩
  · left
    rw [← List.reverse_sublist, List.reverse_concat]
    exact earlier
  · exact Or.inr ⟨same, List.reverse_sublist.mp rest⟩

/-- The last node of a grouped level may be written once more. -/
theorem Grouped.concat {before : List Node} {last : Node} (grouped : Grouped (before ++ [last])) :
    Grouped (before ++ [last] ++ [last]) := by
  intro outer inner listed
  rcases concat_sublist_concat [outer, inner] listed with inside | ⟨ends, inside⟩
  · exact grouped outer inner inside
  · rcases concat_sublist_concat [outer] inside with within | ⟨same, _⟩
    · apply grouped
      rw [ends] at within ⊢
      exact within.append (List.Sublist.refl [last])
    · exact same.trans ends.symm

/-! ## Pairs of a grouped level -/

/-- The nodes of a list of pairs, in order. -/
def nodesOf (paired : List (Node × Node)) : List Node := paired.flatMap fun pair => [pair.1, pair.2]

theorem nodesOf_replicate (count : Nat) (node : Node) :
    nodesOf (List.replicate count (node, node)) = List.replicate (2 * count) node := by
  induction count with
  | zero => rfl
  | succ count inductionHypothesis =>
      rw [List.replicate_succ, Nat.mul_succ, List.replicate_succ, List.replicate_succ, ← inductionHypothesis]
      rfl

theorem nodesOf_append (first second : List (Node × Node)) :
    nodesOf (first ++ second) = nodesOf first ++ nodesOf second := List.flatMap_append

/-- Reading the pairs back gives the level, its last node doubled if it was paired with itself. -/
theorem nodesOf_pairs (level : List Node) :
    nodesOf (pairs level) = level ∨
      ∃ before last, level = before ++ [last] ∧ nodesOf (pairs level) = level ++ [last] := by
  induction level using pairs.induct with
  | case1 => exact Or.inl rfl
  | case2 last => exact Or.inr ⟨[], last, rfl, rfl⟩
  | case3 left right rest inductionHypothesis =>
      rcases inductionHypothesis with same | ⟨before, last, split, doubled⟩
      · exact Or.inl (congrArg (fun nodes => left :: right :: nodes) same)
      · refine Or.inr ⟨left :: right :: before, last, ?_, ?_⟩
        · rw [split]
          rfl
        · exact congrArg (fun nodes => left :: right :: nodes) doubled

theorem Grouped.nodesOf_pairs {level : List Node} (grouped : Grouped level) : Grouped (nodesOf (pairs level)) := by
  rcases PairTree.nodesOf_pairs level with same | ⟨before, last, rfl, doubled⟩
  · rw [same]
    exact grouped
  · rw [doubled]
    exact grouped.concat

/-- The next level is grouped as well. -/
theorem Grouped.rise {combine : Node × Node -> Node} {level : List Node} (grouped : Grouped level)
    (injective : InjectiveOn combine (pairs level)) : Grouped (rise combine level) := by
  intro outer inner listed
  rcases List.sublist_map_iff.mp listed with ⟨chosen, inPairs, images⟩
  rcases List.map_eq_cons_iff.mp images.symm with ⟨first, rest, rfl, firstImage, restImages⟩
  rcases List.map_eq_cons_iff.mp restImages with ⟨second, others, rfl, secondImage, otherImages⟩
  rcases List.map_eq_singleton_iff.mp otherImages with ⟨third, rfl, thirdImage⟩
  have members := inPairs.subset
  have ends : first = third := injective first (members List.mem_cons_self) third
    (members (List.mem_cons_of_mem _ (List.mem_cons_of_mem _ List.mem_cons_self))) (firstImage.trans thirdImage.symm)
  have nodes := inPairs.flatMap fun pair : Node × Node => [pair.1, pair.2]
  rw [← ends] at nodes
  have flat : forall outerNode innerNode, [outerNode, innerNode, outerNode].Sublist
      [first.1, first.2, second.1, second.2, first.1, first.2] -> innerNode = outerNode := fun _ _ inside =>
    grouped.nodesOf_pairs _ _ (inside.trans nodes)
  have left : first.2 = first.1 := flat first.1 first.2 (by simp)
  have firstOfSecond : second.1 = first.1 := flat first.1 second.1 (by simp)
  have secondOfSecond : second.2 = first.1 := flat first.1 second.2 (by simp)
  rw [← secondImage, ← firstImage]
  exact congrArg combine (Prod.ext firstOfSecond (secondOfSecond.trans left.symm))

/-! ## Levels with one tree -/

variable {combine : Node × Node -> Node}

/-- Copies of the last node behind some places that no level above shows. -/
def Hidden (places copies : Nat) : Prop := ∃ exponent, copies < 2 ^ exponent ∧ 2 ^ exponent ∣ places

theorem hidden_zero (places : Nat) : Hidden places 0 := ⟨0, Nat.one_pos, Nat.one_dvd places⟩

theorem pairs_concat_of_even {front : List Node} (even : 2 ∣ front.length) (last : Node) :
    pairs (front ++ [last]) = pairs front ++ [(last, last)] := pairs_append even [last]

theorem copies_subset {Item : Type u} (front : List Item) (last : Item) (count : Nat) :
    front ++ List.replicate count last ⊆ front ++ [last] := by
  refine List.append_subset.mpr ⟨List.subset_append_left _ _, ?_⟩
  intro item member
  rw [List.eq_of_mem_replicate member]
  exact List.mem_append_right _ (List.mem_singleton_self _)

/-- One more pair than copies of it, read back as nodes. -/
theorem exists_copies_of_pairs {front longer : List Node} {last : Node} {copies : Nat} (even : 2 ∣ front.length)
    (same : pairs longer = pairs front ++ List.replicate (copies + 1) (last, last)) :
    longer = front ++ List.replicate (2 * copies + 1 + 1) last ∨
      longer = front ++ List.replicate (2 * copies + 1) last := by
  have flat := congrArg nodesOf same
  have frontNodes : nodesOf (pairs front) = front := by
    rcases nodesOf_pairs front with read | ⟨before, node, _, doubled⟩
    · exact read
    · have lengths : (nodesOf (pairs front)).length = 2 * (pairs front).length := by
        unfold nodesOf
        rw [List.length_flatMap]
        simp only [List.length_cons, List.length_nil, List.map_const', List.sum_replicate_nat]
        exact Nat.mul_comm _ _
      rw [doubled, length_pairs, List.length_append, List.length_singleton] at lengths
      omega
  rw [nodesOf_append, frontNodes, nodesOf_replicate] at flat
  rcases nodesOf_pairs longer with read | ⟨before, node, split, doubled⟩
  · exact Or.inl (read.symm.trans flat)
  · right
    rw [doubled, Nat.mul_succ, List.replicate_succ', ← List.append_assoc] at flat
    exact List.append_inj_left' flat rfl

/-- A grouped level has a pair of two different nodes once. -/
theorem eq_of_pairs_of_odd {before longer : List Node} {previous last : Node} {copies : Nat}
    (even : 2 ∣ before.length) (distinct : (before ++ [previous] ++ [last]).Nodup) (grouped : Grouped longer)
    (same : pairs longer = pairs before ++ List.replicate (copies + 1) (previous, last)) :
    longer = before ++ [previous] ++ [last] := by
  cases copies with
  | zero =>
      have full : pairs (before ++ [previous] ++ [last]) = pairs before ++ [(previous, last)] := by
        rw [List.append_assoc]
        exact pairs_append even _
      refine (pairs_inj_of_even ?_ distinct (full.trans same.symm)).symm
      rw [List.length_append, List.length_append, List.length_singleton, List.length_singleton]
      omega
  | succ copies =>
      have nodes := grouped.nodesOf_pairs
      rw [same, nodesOf_append] at nodes
      have between : last = previous := by
        apply nodes previous last
        refine List.Sublist.trans ?_ (List.sublist_append_right _ _)
        rw [List.replicate_succ, List.replicate_succ]
        exact List.sublist_append_left [previous, last, previous] _
      rw [between, List.append_assoc] at distinct
      exact absurd List.mem_cons_self (List.nodup_cons.mp (List.nodup_append.mp distinct).2.1).1

/-- A grouped level with the same levels above as a level without repetitions repeats the
last node of that level, with copies that stay hidden. -/
theorem exists_copies_of_rise_iterate_eq {front longer : List Node} {last : Node} (height : Nat)
    (distinct : (front ++ [last]).Nodup) (grouped : Grouped longer)
    (injective : InjectiveOn combine (usedPairs combine height longer ++ usedPairs combine height (front ++ [last])))
    (same : (rise combine)^[height] longer = (rise combine)^[height] (front ++ [last])) :
    ∃ copies, longer = front ++ List.replicate (copies + 1) last ∧ Hidden front.length copies := by
  induction height generalizing front longer last with
  | zero => exact ⟨0, same, hidden_zero front.length⟩
  | succ height inductionHypothesis =>
      rw [Function.iterate_succ_apply, Function.iterate_succ_apply] at same
      have injectivePairs := injective.pairs
      have groupedAbove := grouped.rise (injectivePairs.mono (List.subset_append_left _ _))
      have distinctAbove := nodup_rise distinct (injectivePairs.mono (List.subset_append_right _ _))
      have readBack : forall paired, paired ⊆ pairs (front ++ [last]) ->
          rise combine longer = paired.map combine -> pairs longer = paired := by
        intro paired used equal
        apply map_inj_on _ equal
        intro item member other listed
        exact injectivePairs item (List.mem_append_left _ member) other (List.mem_append_right _ (used listed))
      by_cases even : 2 ∣ front.length
      · -- the last node is paired with itself, so copies of its pair are copies of it
        have above : rise combine (front ++ [last]) = (pairs front).map combine ++ [combine (last, last)] := by
          rw [rise, pairs_concat_of_even even, List.map_append, List.map_singleton]
        rw [above] at distinctAbove same
        have injectiveAbove := injective.above
        rw [above] at injectiveAbove
        rcases inductionHypothesis distinctAbove groupedAbove injectiveAbove same with
          ⟨copies, repeated, exponent, few, divides⟩
        rw [← List.map_replicate, ← List.map_append] at repeated
        have used := copies_subset (pairs front) (last, last) (copies + 1)
        rw [← pairs_concat_of_even even] at used
        have places : 2 ^ (exponent + 1) ∣ front.length := by
          rcases even with ⟨half, length⟩
          rw [List.length_map, length_pairs, length] at divides
          have halved : (2 * half + 1) / 2 = half := by omega
          rw [halved] at divides
          rw [length, Nat.pow_succ']
          exact Nat.mul_dvd_mul_left 2 divides
        rw [Nat.pow_succ'] at places
        rcases exists_copies_of_pairs even (readBack _ used repeated) with copied | copied
        · exact ⟨2 * copies + 1, copied, exponent + 1, by rw [Nat.pow_succ']; omega,
            by rw [Nat.pow_succ']; exact places⟩
        · exact ⟨2 * copies, copied, exponent + 1, by rw [Nat.pow_succ']; omega, by rw [Nat.pow_succ']; exact places⟩
      · -- the last pair has two different nodes, so a grouped level has it once
        rcases List.eq_nil_or_concat front with empty | ⟨before, previous, split⟩
        · rw [empty] at even
          exact absurd (Nat.dvd_zero 2) even
        · rw [List.concat_eq_append] at split
          subst split
          rw [List.length_append, List.length_singleton] at even
          have evenBefore : 2 ∣ before.length := by omega
          have full : pairs (before ++ [previous] ++ [last]) = pairs before ++ [(previous, last)] := by
            rw [List.append_assoc]
            exact pairs_append evenBefore _
          have above : rise combine (before ++ [previous] ++ [last]) =
              (pairs before).map combine ++ [combine (previous, last)] := by
            rw [rise, full, List.map_append, List.map_singleton]
          rw [above] at distinctAbove same
          have injectiveAbove := injective.above
          rw [above] at injectiveAbove
          rcases inductionHypothesis distinctAbove groupedAbove injectiveAbove same with ⟨copies, repeated, _⟩
          rw [← List.map_replicate, ← List.map_append] at repeated
          have used := copies_subset (pairs before) (previous, last) (copies + 1)
          rw [← full] at used
          have level := eq_of_pairs_of_odd evenBefore distinct grouped (readBack _ used repeated)
          exact ⟨0, level, hidden_zero _⟩

/-- Hidden copies change no level above the one where they vanish. -/
theorem rise_iterate_copies (combine : Node × Node -> Node) (exponent : Nat) {front : List Node} {copies : Nat}
    (few : copies < 2 ^ exponent) (places : 2 ^ exponent ∣ front.length) (last : Node) :
    (rise combine)^[exponent] (front ++ List.replicate (copies + 1) last) =
      (rise combine)^[exponent] (front ++ [last]) := by
  induction exponent generalizing front copies last with
  | zero =>
      rw [Nat.pow_zero, Nat.lt_one_iff] at few
      rw [few]
      rfl
  | succ exponent inductionHypothesis =>
      rw [Nat.pow_succ'] at few places
      have even : 2 ∣ front.length := Nat.dvd_trans (Nat.dvd_mul_right 2 _) places
      have pairedCopies : forall count, pairs (List.replicate (count + 1) last) =
          List.replicate (count / 2 + 1) (last, last) := by
        intro count
        induction count using Nat.strong_induction_on with
        | _ count fewer =>
            match count with
            | 0 => rfl
            | 1 => rfl
            | count + 2 =>
                rw [List.replicate_succ, List.replicate_succ, pairs, fewer count (by omega), ← List.replicate_succ]
                congr 1
                omega
      rw [Function.iterate_succ_apply, Function.iterate_succ_apply, rise, rise, pairs_append even,
        pairs_concat_of_even even, pairedCopies, List.map_append, List.map_append, List.map_replicate,
        List.map_singleton]
      refine inductionHypothesis (by omega) ?_ _
      rcases even with ⟨half, length⟩
      rw [List.length_map, length_pairs]
      rw [length] at places ⊢
      have halved : (2 * half + 1) / 2 = half := by omega
      rw [halved]
      exact Nat.dvd_of_mul_dvd_mul_left Nat.two_pos places

end PairTree
end Library
