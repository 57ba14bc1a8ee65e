import Mathlib

namespace Library
namespace WeightedQuorum

/-!
# Quorums by weight

Members of an arbitrary type carry natural-number weights.  A quorum is a set
of members of the electorate that holds at least two thirds of the weight of
the whole electorate.  If the faithful members hold more than two thirds, then
one quorum contains a faithful member, and two quorums contain a common one.
No division is used: every comparison is cross-multiplied.
-/

universe u

variable {Member : Type u}

/-- The weight of a set of members. -/
def weightOf (weight : Member -> Nat) (members : Finset Member) : Nat :=
  ∑ member ∈ members, weight member

theorem weightOf_mono {weight : Member -> Nat} {smaller larger : Finset Member} (subset : smaller ⊆ larger) :
    weightOf weight smaller ≤ weightOf weight larger :=
  Finset.sum_le_sum_of_subset subset

theorem nonempty_of_weightOf_pos {weight : Member -> Nat} {members : Finset Member}
    (positive : 0 < weightOf weight members) :
    members.Nonempty := by
  apply Finset.nonempty_iff_ne_empty.mpr
  intro empty
  subst empty
  exact absurd positive (Nat.lt_irrefl 0)

variable [DecidableEq Member]

/-- At least two thirds of the electorate's weight, held inside the electorate. -/
structure Quorum (weight : Member -> Nat) (electorate members : Finset Member) : Prop where
  subset : members ⊆ electorate
  twoThirds : 2 * weightOf weight electorate ≤ 3 * weightOf weight members

/-- The faithful members of the electorate hold more than two thirds of it. -/
def Faithful (weight : Member -> Nat) (electorate faithful : Finset Member) : Prop :=
  2 * weightOf weight electorate < 3 * weightOf weight (electorate ∩ faithful)

variable {weight : Member -> Nat} {electorate faithful first second : Finset Member}

/-- Inclusion and exclusion for two subsets of the electorate. -/
theorem weightOf_add_le (weight : Member -> Nat) (firstSubset : first ⊆ electorate)
    (secondSubset : second ⊆ electorate) :
    weightOf weight first + weightOf weight second ≤
      weightOf weight electorate + weightOf weight (first ∩ second) := by
  have inclusion : weightOf weight (first ∪ second) + weightOf weight (first ∩ second) =
      weightOf weight first + weightOf weight second := Finset.sum_union_inter
  have bounded : weightOf weight (first ∪ second) ≤ weightOf weight electorate :=
    weightOf_mono (Finset.union_subset firstSubset secondSubset)
  omega

/-- Two quorums share a faithful member. -/
theorem Quorum.common_faithful (left : Quorum weight electorate first)
    (right : Quorum weight electorate second) (trusted : Faithful weight electorate faithful) :
    ∃ member, member ∈ first ∧ member ∈ second ∧ member ∈ faithful := by
  have overlap := weightOf_add_le weight left.subset right.subset
  have common : first ∩ second ⊆ electorate := fun member inside =>
    left.subset (Finset.mem_inter.mp inside).1
  have honest : electorate ∩ faithful ⊆ electorate := Finset.inter_subset_left
  have sharedHonest := weightOf_add_le weight common honest
  have leftThirds := left.twoThirds
  have rightThirds := right.twoThirds
  unfold Faithful at trusted
  have positive : 0 < weightOf weight ((first ∩ second) ∩ (electorate ∩ faithful)) := by omega
  rcases nonempty_of_weightOf_pos positive with ⟨member, inside⟩
  simp only [Finset.mem_inter] at inside
  exact ⟨member, inside.1.1, inside.1.2, inside.2.2⟩

/-- A single quorum already contains a faithful member. -/
theorem Quorum.exists_faithful (left : Quorum weight electorate first)
    (trusted : Faithful weight electorate faithful) :
    ∃ member, member ∈ first ∧ member ∈ faithful := by
  rcases left.common_faithful left trusted with ⟨member, inFirst, _, honest⟩
  exact ⟨member, inFirst, honest⟩

/-! ## Lists that mention a member more than once -/

/-- The weight that a list counts beyond the first mention of each member. -/
def repeatedWeight (weight : Member -> Nat) (mentions : List Member) : Nat :=
  ∑ member ∈ mentions.toFinset, (mentions.count member - 1) * weight member

theorem sum_map_eq_weightOf_add (weight : Member -> Nat) (mentions : List Member) :
    (mentions.map weight).sum = weightOf weight mentions.toFinset + repeatedWeight weight mentions := by
  rw [Finset.sum_list_map_count, weightOf, repeatedWeight, ← Finset.sum_add_distrib]
  apply Finset.sum_congr rfl
  intro member inside
  have mentioned := List.count_pos_iff.mpr (List.mem_toFinset.mp inside)
  rw [smul_eq_mul, Nat.sub_one_mul, Nat.add_sub_cancel' (Nat.le_mul_of_pos_left _ mentioned)]

/-- What is counted beyond the first mentions comes from a member with some weight. -/
theorem exists_repeated {mentions : List Member} (counted : 0 < repeatedWeight weight mentions) :
    ∃ member, 1 < mentions.count member ∧ 0 < weight member := by
  have positive : repeatedWeight weight mentions ≠ 0 := Nat.pos_iff_ne_zero.mp counted
  unfold repeatedWeight at positive
  rcases Finset.exists_ne_zero_of_sum_ne_zero positive with ⟨member, _, nonzero⟩
  rcases Nat.mul_ne_zero_iff.mp nonzero with ⟨again, heavy⟩
  exact ⟨member, by omega, Nat.pos_of_ne_zero heavy⟩

/-! ## Ballots -/

universe v w

variable {Slot : Type v} {Value : Type w}

/-- A value is decided for a slot if some quorum's faithful members all cast it. -/
def Decided (weight : Member -> Nat) (electorate faithful : Finset Member) (cast : Member -> Slot -> Value -> Prop)
    (slot : Slot) (value : Value) : Prop :=
  ∃ members, Quorum weight electorate members ∧
    forall member, member ∈ members -> member ∈ faithful -> cast member slot value

/-- If faithful members cast at most one value for a slot, then at most one
value is decided for it. -/
theorem Decided.unique {cast : Member -> Slot -> Value -> Prop} (trusted : Faithful weight electorate faithful)
    (once : forall member, member ∈ faithful -> forall slot left right,
      cast member slot left -> cast member slot right -> left = right)
    {slot : Slot} {left right : Value} (leftDecided : Decided weight electorate faithful cast slot left)
    (rightDecided : Decided weight electorate faithful cast slot right) : left = right := by
  rcases leftDecided with ⟨leftMembers, leftQuorum, leftCast⟩
  rcases rightDecided with ⟨rightMembers, rightQuorum, rightCast⟩
  rcases leftQuorum.common_faithful rightQuorum trusted with ⟨member, inLeft, inRight, honest⟩
  exact once member honest slot left right (leftCast member inLeft honest) (rightCast member inRight honest)

omit [DecidableEq Member] in
/-- A value cast by every faithful member is decided. -/
theorem decided_of_unanimous {cast : Member -> Slot -> Value -> Prop} {slot : Slot} {value : Value}
    (unanimous : forall member, member ∈ faithful -> cast member slot value) :
    Decided weight electorate faithful cast slot value := by
  refine ⟨electorate, ⟨Finset.Subset.refl electorate, ?_⟩, fun member _ honest => unanimous member honest⟩
  omega

end WeightedQuorum
end Library
