import Sarafu.Library.PairTree

namespace Library
namespace PairTree

/-!
# Walks up a tree of pairs

A walk starts at a node, and each step combines the node that it has reached with another
node on one of its sides.  From a node of a tree the right steps lead to the root.  On the
other hand, if the combinations that are met do not collide and can be told from leaves, a
walk from a leaf that ends in the tree has started in the tree, at the lowest level.
-/

universe u

variable {Node : Type u} {combine : Node × Node -> Node}

/-- The pair of a node and the one beside it.  The flag says that the node stands on the
left. -/
def beside (node : Node) (step : Bool × Node) : Node × Node := if step.1 then (node, step.2) else (step.2, node)

/-- The node that a walk reaches. -/
def follow (combine : Node × Node -> Node) (node : Node) (steps : List (Bool × Node)) : Node :=
  steps.foldl (fun current step => combine (beside current step)) node

/-- The pairs that a walk combines. -/
def walked (combine : Node × Node -> Node) : Node -> List (Bool × Node) -> List (Node × Node)
  | _, [] => []
  | node, step :: rest => beside node step :: walked combine (combine (beside node step)) rest

theorem follow_concat (node : Node) (steps : List (Bool × Node)) (step : Bool × Node) :
    follow combine node (steps ++ [step]) = combine (beside (follow combine node steps) step) := by
  unfold follow
  rw [List.foldl_append]
  rfl

theorem walked_concat (node : Node) (steps : List (Bool × Node)) (step : Bool × Node) :
    walked combine node (steps ++ [step]) = walked combine node steps ++ [beside (follow combine node steps) step] := by
  induction steps generalizing node with
  | nil => rfl
  | cons first rest inductionHypothesis =>
      rw [List.cons_append, walked, inductionHypothesis]
      rfl

/-! ## From a leaf to the root -/

/-- The pair at a place consists of the nodes at twice the place and behind it, as far as
there is one. -/
theorem getElem?_pairs (level : List Node) (place : Nat) :
    (pairs level)[place]? = (level[2 * place]?).map fun first => (first, (level[2 * place + 1]?).getD first) := by
  induction level using pairs.induct generalizing place with
  | case1 => rfl
  | case2 last =>
      cases place with
      | zero => rfl
      | succ place => rfl
  | case3 left right rest inductionHypothesis =>
      cases place with
      | zero => rfl
      | succ place =>
          rw [pairs, List.getElem?_cons_succ, inductionHypothesis, Nat.mul_succ]
          rfl

/-- The node beside a node: its neighbour, or itself at the end of an odd level. -/
def neighbour (level : List Node) (index : Nat) : Option Node :=
  if index % 2 = 0 then (level[index + 1]?).or level[index]? else level[index - 1]?

/-- The step from a node of a level leads to the node above it. -/
theorem getElem?_rise {level : List Node} {index : Nat} {node other : Node} (found : level[index]? = some node)
    (next : neighbour level index = some other) :
    (rise combine level)[index / 2]? = some (combine (beside node (index % 2 == 0, other))) := by
  rw [rise, List.getElem?_map, getElem?_pairs]
  unfold neighbour at next
  rcases Nat.mod_two_eq_zero_or_one index with even | odd
  · have place : 2 * (index / 2) = index := by omega
    rw [if_pos even, found] at next
    rw [place, found, even]
    cases second : level[index + 1]? with
    | none =>
        rw [second, Option.none_or, Option.some.injEq] at next
        rw [← next]
        rfl
    | some right =>
        rw [second, Option.some_or, Option.some.injEq] at next
        rw [← next]
        rfl
  · have place : 2 * (index / 2) = index - 1 := by omega
    have behind : index - 1 + 1 = index := by omega
    rw [if_neg (by omega)] at next
    rw [place, behind, next, found, odd]
    rfl

/-! ## From the tree back to its leaves -/

variable {level : List Node} {node : Node} {steps : List (Bool × Node)} {height : Nat}

/-- A walk that ends in a level of a tree has started in the lowest one, and it has as many
steps as there are levels between. -/
theorem mem_of_follow (injective : InjectiveOn combine (walked combine node steps ++ usedPairs combine height level))
    (start : forall pair, pair ∈ usedPairs combine height level -> combine pair ≠ node)
    (leaves : forall pair, pair ∈ walked combine node steps -> combine pair ∉ level)
    (reached : follow combine node steps ∈ (rise combine)^[height] level) : node ∈ level ∧ steps.length = height := by
  induction steps using List.reverseRecOn generalizing height with
  | nil =>
      cases height with
      | zero => exact ⟨reached, rfl⟩
      | succ height =>
          rw [Function.iterate_succ_apply'] at reached
          rcases List.mem_map.mp reached with ⟨pair, paired, combined⟩
          have used : pair ∈ usedPairs combine (height + 1) level := by
            rw [usedPairs_add]
            exact List.mem_append_right _ (List.mem_append_left _ paired)
          exact absurd combined (start pair used)
  | append_singleton steps step inductionHypothesis =>
      rw [walked_concat] at injective leaves
      rw [follow_concat] at reached
      have last : beside (follow combine node steps) step ∈
          walked combine node steps ++ [beside (follow combine node steps) step] :=
        List.mem_append_right _ (List.mem_singleton_self _)
      cases height with
      | zero => exact absurd reached (leaves _ last)
      | succ height =>
          rw [Function.iterate_succ_apply'] at reached
          rcases List.mem_map.mp reached with ⟨pair, paired, combined⟩
          rw [usedPairs_add] at injective start
          have used : pair ∈ usedPairs combine 1 ((rise combine)^[height] level) := List.mem_append_left _ paired
          have same := injective pair (List.mem_append_right _ (List.mem_append_right _ used)) _
            (List.mem_append_left _ last) combined
          have below : follow combine node steps ∈ (rise combine)^[height] level := by
            have inside := mem_of_mem_pairs paired
            rw [same] at inside
            unfold beside at inside
            split at inside
            · exact inside.1
            · exact inside.2
          have fewer : walked combine node steps ++ usedPairs combine height level ⊆
              walked combine node steps ++ [beside (follow combine node steps) step] ++
                (usedPairs combine height level ++ usedPairs combine 1 ((rise combine)^[height] level)) :=
            ((List.sublist_append_left _ _).append (List.sublist_append_left _ _)).subset
          rcases inductionHypothesis (injective.mono fewer)
            (fun other member => start other (List.mem_append_left _ member))
            (fun other member => leaves other (List.mem_append_left _ member)) below with ⟨member, length⟩
          refine ⟨member, ?_⟩
          rw [List.length_append, length]
          rfl

end PairTree
end Library
