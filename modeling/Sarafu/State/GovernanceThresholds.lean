import Sarafu.Consensus.Doubles
import Sarafu.Library.WeightedQuorum
import Sarafu.Library.WordSums
import Sarafu.State.GovernanceHistory

namespace Sarafu
namespace State
namespace GovernanceModule

open Crypto Library.WeightedQuorum Library.WordSums

/-!
# The thresholds of governance

A proposal needs one thousandth of the stake behind it, and then one tenth of the stake as
votes and two thirds of the votes.  The constant for two thirds is a little larger than the
fraction, so a thin band of tallies is rejected that the rule approves.  The sums of the
stakes and the factor one thousand are taken modulo `2^64`, and a backer that is listed
twice counts twice.
-/

/-! ## The approval of a proposal -/

/-- All votes that were cast, as a natural number. -/
def castVotes (proposal : Proposal) : Nat := proposal.votesFor.toNat + proposal.votesAgainst.toNat

/-- One tenth of the stake has voted, and two thirds of the votes are in favor. -/
def ApprovedByRule (proposal : Proposal) (totalStake : UInt64) : Prop :=
  totalStake.toNat ≤ castVotes proposal * 10 ∧ 2 * castVotes proposal ≤ 3 * proposal.votesFor.toNat

/-- The share of the votes in favor lies between two thirds and the constant `0.667`. -/
def InBand (proposal : Proposal) (totalStake : UInt64) : Prop :=
  castVotes proposal < 2 ^ 64 ∧ totalStake.toNat ≤ castVotes proposal * 10 ∧
    2 * castVotes proposal ≤ 3 * proposal.votesFor.toNat ∧
    1000 * proposal.votesFor.toNat < 667 * castVotes proposal

/-- The sum of the tallies wraps around, and what is left is no quorum, although two thirds are
in favor. -/
def LosesQuorum (proposal : Proposal) (totalStake : UInt64) : Prop :=
  2 ^ 64 ≤ castVotes proposal ∧ (castVotes proposal - 2 ^ 64) * 10 < totalStake.toNat ∧
    2 * castVotes proposal ≤ 3 * proposal.votesFor.toNat

/-- The sum of the tallies wraps around, and what is left is a quorum, although less than two
thirds are in favor. -/
def GainsApproval (proposal : Proposal) (totalStake : UInt64) : Prop :=
  2 ^ 64 ≤ castVotes proposal ∧ totalStake.toNat ≤ (castVotes proposal - 2 ^ 64) * 10 ∧
    3 * proposal.votesFor.toNat < 2 * castVotes proposal

/-- The proposal is approved if the rule approves it, and rejected otherwise. -/
def DecidedByRule (round : Rat -> Rat) (governance : GovernanceModule) (proposalId totalStake currentHeight : UInt64)
    (proposal : Proposal) : Prop :=
  ∃ decided,
    (governance.finalizeVoting round proposalId totalStake currentHeight).2.getProposal proposalId = some decided ∧
    (ApprovedByRule proposal totalStake -> decided.status = .approved) ∧
    (¬ApprovedByRule proposal totalStake -> decided.status = .rejected)

variable {round : Rat -> Rat} {governance : GovernanceModule} {proposal : Proposal} {proposalId totalStake : UInt64}

/-- An exact quotient below a fraction. -/
theorem quotientBelow_exact (numerator : UInt64) {denominator : UInt64} (positive : 0 < denominator.toNat)
    (above below : Nat) (fraction : 0 < below) :
    quotientBelow id numerator denominator (above / below) = true <->
      numerator.toNat * below < above * denominator.toNat := by
  have nonzero := UInt64.pos_iff_ne_zero.mp (UInt64.lt_iff_toNat_lt.mpr positive)
  have denominatorPos : (0 : Rat) < denominator.toNat := by exact_mod_cast positive
  have belowPos : (0 : Rat) < below := by exact_mod_cast fraction
  rw [quotientBelow, decide_eq_true_eq, and_iff_right nonzero]
  simp only [id]
  rw [div_lt_div_iff₀ denominatorPos belowPos]
  norm_cast

/-- An exact quotient at or above a fraction; one with denominator zero is above. -/
theorem quotientAtLeast_exact (numerator : UInt64) {denominator : UInt64} (positive : 0 < denominator.toNat)
    (above below : Nat) (fraction : 0 < below) :
    quotientAtLeast id numerator denominator (above / below) = true <->
      above * denominator.toNat ≤ numerator.toNat * below := by
  have nonzero := UInt64.pos_iff_ne_zero.mp (UInt64.lt_iff_toNat_lt.mpr positive)
  have denominatorPos : (0 : Rat) < denominator.toNat := by exact_mod_cast positive
  have belowPos : (0 : Rat) < below := by exact_mod_cast fraction
  rw [quotientAtLeast, if_neg nonzero, decide_eq_true_eq]
  simp only [id]
  rw [div_le_div_iff₀ belowPos denominatorPos]
  norm_cast

/-- What exact quotients of the wrapped sum decide. -/
theorem outcome_exact (proposal : Proposal) (positive : 0 < totalStake.toNat) :
    outcome id proposal totalStake =
      if totalStake.toNat ≤ castVotes proposal % 2 ^ 64 * 10 ∧
        667 * (castVotes proposal % 2 ^ 64) ≤ proposal.votesFor.toNat * 1000 then .approved else .rejected := by
  have wrapped : (proposal.votesFor + proposal.votesAgainst).toNat = castVotes proposal % 2 ^ 64 := UInt64.toNat_add _ _
  have quorum := quotientBelow_exact (proposal.votesFor + proposal.votesAgainst) positive 1 10 (by decide)
  have tenth : (10 : Rat) / 100 = (1 : Nat) / (10 : Nat) := by norm_num
  have constant : (667 : Rat) / 1000 = (667 : Nat) / (1000 : Nat) := by norm_num
  rw [wrapped] at quorum
  unfold outcome
  simp only [tenth, constant]
  by_cases few : castVotes proposal % 2 ^ 64 * 10 < 1 * totalStake.toNat
  · rw [if_pos (quorum.mpr few), if_neg (by omega)]
  · have voted : 0 < (proposal.votesFor + proposal.votesAgainst).toNat := by omega
    have approval := quotientAtLeast_exact proposal.votesFor voted 667 1000 (by decide)
    rw [wrapped] at approval
    rw [if_neg fun below => few (quorum.mp below)]
    apply if_congr _ rfl rfl
    rw [approval]
    omega

/-- Where the tallies differ from the rule. -/
theorem approved_iff_rule (proposal : Proposal) (positive : 0 < totalStake.toNat) :
    (outcome id proposal totalStake = .approved <-> ApprovedByRule proposal totalStake) <->
      ¬InBand proposal totalStake ∧ ¬LosesQuorum proposal totalStake ∧ ¬GainsApproval proposal totalStake := by
  have approved : outcome id proposal totalStake = .approved <->
      totalStake.toNat ≤ castVotes proposal % 2 ^ 64 * 10 ∧
        667 * (castVotes proposal % 2 ^ 64) ≤ proposal.votesFor.toNat * 1000 := by
    rw [outcome_exact proposal positive]
    split
    · rename_i passes
      exact iff_of_true rfl passes
    · rename_i fails
      exact iff_of_false (by simp) fails
  have inFavor := proposal.votesFor.toNat_lt
  have against := proposal.votesAgainst.toNat_lt
  have total := totalStake.toNat_lt
  rw [approved, ApprovedByRule, InBand, LosesQuorum, GainsApproval]
  have sum : castVotes proposal = proposal.votesFor.toNat + proposal.votesAgainst.toNat := rfl
  by_cases fits : castVotes proposal < 2 ^ 64
  · rw [Nat.mod_eq_of_lt fits]
    omega
  · -- after the overflow fewer votes are left than were cast in favor
    have wrapped : castVotes proposal % 2 ^ 64 = castVotes proposal - 2 ^ 64 := by omega
    rw [wrapped]
    omega

theorem outcome_cases (round : Rat -> Rat) (proposal : Proposal) (totalStake : UInt64) :
    outcome round proposal totalStake = .approved ∨ outcome round proposal totalStake = .rejected := by
  unfold outcome
  simp only []
  split
  · exact Or.inr rfl
  · split
    · exact Or.inl rfl
    · exact Or.inr rfl

theorem finalized_status (round : Rat -> Rat) (governance : GovernanceModule) (proposal : Proposal)
    (totalStake currentHeight : UInt64) :
    (governance.finalized round proposal totalStake currentHeight).status = outcome round proposal totalStake := by
  unfold finalized
  rcases outcome_cases round proposal totalStake with approved | rejected
  · rw [if_pos approved, approved]
  · rw [if_neg (by rw [rejected]; decide), rejected]

/-- The votes are counted by the rule if and only if the share in favor is outside the band and
the sum of the tallies does not change the result by an overflow. -/
theorem finalizeVoting_decidedByRule_iff (round : Rat -> Rat) (governance : GovernanceModule)
    (proposalId totalStake currentHeight : UInt64) (proposal : Proposal)
    (found : governance.getProposal proposalId = some proposal) (active : proposal.status = .active)
    (ended : proposal.votingEndsAtHeight ≤ currentHeight) (positive : 0 < totalStake)
    (exactly : outcome round proposal totalStake = outcome id proposal totalStake) :
    (governance.finalizeVoting round proposalId totalStake currentHeight).1 = true ∧
      (DecidedByRule round governance proposalId totalStake currentHeight proposal <->
        ¬InBand proposal totalStake ∧ ¬LosesQuorum proposal totalStake ∧ ¬GainsApproval proposal totalStake) := by
  have stored : governance.proposals[proposalId]? = some proposal := found
  have result : governance.finalizeVoting round proposalId totalStake currentHeight =
      (true, governance.store proposalId (governance.finalized round proposal totalStake currentHeight)) := by
    simp [finalizeVoting, stored, active, UInt64.not_lt.mpr ended]
  refine ⟨by rw [result], ?_⟩
  rw [← approved_iff_rule proposal (UInt64.lt_iff_toNat_lt.mp positive), ← exactly, DecidedByRule, result]
  simp only [getProposal_store, Option.some.injEq, exists_eq_left', finalized_status]
  rcases outcome_cases round proposal totalStake with approved | rejected
  · simp [approved]
  · simp [rejected]

/-! ## Rounded quotients -/

theorem quotientBelow_toDouble {numerator denominator : UInt64} (positive : 0 < denominator.toNat) {above below : Nat}
    (nonzero : 0 < above) (fraction : 0 < below)
    (small : numerator.toNat * below + above * denominator.toNat < 2 ^ 53) :
    quotientBelow Consensus.toDouble numerator denominator (above / below) =
      quotientBelow id numerator denominator (above / below) := by
  rw [Bool.eq_iff_iff, quotientBelow_exact numerator positive above below fraction,
    ← Consensus.toDouble_div_lt_iff positive nonzero fraction small, quotientBelow, decide_eq_true_eq]
  apply and_iff_right
  rintro rfl
  exact absurd positive (by simp)

theorem quotientAtLeast_toDouble {numerator denominator : UInt64} (positive : 0 < denominator.toNat) {above below : Nat}
    (nonzero : 0 < above) (fraction : 0 < below)
    (small : numerator.toNat * below + above * denominator.toNat < 2 ^ 53) :
    quotientAtLeast Consensus.toDouble numerator denominator (above / below) =
      quotientAtLeast id numerator denominator (above / below) := by
  have defined : denominator ≠ 0 := by
    rintro rfl
    exact absurd positive (by simp)
  rw [Bool.eq_iff_iff, quotientAtLeast_exact numerator positive above below fraction, ← Nat.not_lt,
    ← Consensus.toDouble_div_lt_iff positive nonzero fraction small, quotientAtLeast, if_neg defined, decide_eq_true_eq,
    not_lt]

/-- Stakes and tallies of a realistic size are decided as by exact quotients. -/
theorem outcome_toDouble (proposal : Proposal) (positive : 0 < totalStake.toNat)
    (participation : castVotes proposal * 10 + totalStake.toNat < 2 ^ 53)
    (tallies : proposal.votesFor.toNat * 1000 + 667 * castVotes proposal < 2 ^ 53) :
    outcome Consensus.toDouble proposal totalStake = outcome id proposal totalStake := by
  have fits : castVotes proposal < 2 ^ 64 := by omega
  have sum : (proposal.votesFor + proposal.votesAgainst).toNat = castVotes proposal := by
    rw [UInt64.toNat_add]
    exact Nat.mod_eq_of_lt fits
  have tenth : (10 : Rat) / 100 = (1 : Nat) / (10 : Nat) := by norm_num
  have constant : (667 : Rat) / 1000 = (667 : Nat) / (1000 : Nat) := by norm_num
  unfold outcome
  simp only [tenth, constant]
  rw [quotientBelow_toDouble positive (by decide) (by decide) (by rw [sum]; omega)]
  by_cases voted : 0 < castVotes proposal
  · rw [quotientAtLeast_toDouble (by rw [sum]; exact voted) (by decide) (by decide) (by rw [sum]; omega)]
  · have few := quotientBelow_exact (proposal.votesFor + proposal.votesAgainst) positive 1 10 (by decide)
    rw [if_pos (few.mpr (by rw [sum]; omega)), if_pos (few.mpr (by rw [sum]; omega))]

/-- The calls that bring in two votes for and one against, of a stake of three. -/
def twoToOneCalls : List GovernanceCall :=
  [.submitProposal ⟨.blockSize, [1, 0, 0, 0, 0, 0, 0, 0], [], [], [1],
      (∅ : OrderedMap UInt64 UInt64).insert 1 2, 3, 10⟩,
    .vote 1 1 true 2 12, .vote 1 2 false 1 13]

def twoToOne : GovernanceModule := twoToOneCalls.foldl (call Consensus.toDouble) (create 1)

theorem twoToOne_approvedByRule (inFavor : proposal.votesFor = 2) (against : proposal.votesAgainst = 1) :
    ApprovedByRule proposal 3 := by
  rw [ApprovedByRule, castVotes, inFavor, against]
  decide

theorem twoToOne_exactly (inFavor : proposal.votesFor = 2) (against : proposal.votesAgainst = 1) :
    outcome Consensus.toDouble proposal 3 = outcome id proposal 3 := by
  apply outcome_toDouble
  · decide
  · rw [castVotes, inFavor, against]
    decide
  · rw [castVotes, inFavor, against]
    decide

theorem twoToOne_tallies : ∃ tied, twoToOne.getProposal 1 = some tied ∧ tied.status = .active ∧
    tied.votingEndsAtHeight = 17 ∧ tied.votesFor = 2 ∧ tied.votesAgainst = 1 := by
  have fields : (twoToOne.getProposal 1).map (fun proposal =>
      (proposal.status, proposal.votingEndsAtHeight, proposal.votesFor, proposal.votesAgainst)) =
        some (.active, 17, 2, 1) := by decide +kernel
  rcases found : twoToOne.getProposal 1 with _ | tied
  · rw [found] at fields
    exact absurd fields (by simp)
  · rw [found] at fields
    simp only [Option.map_some, Option.some.injEq, Prod.mk.injEq] at fields
    exact ⟨tied, rfl, fields⟩

theorem finalizeVoting_decidedByRule_twoToOne :
    ∃ tied, twoToOne.getProposal 1 = some tied ∧ (twoToOne.finalizeVoting Consensus.toDouble 1 3 17).1 = true ∧
      (DecidedByRule Consensus.toDouble twoToOne 1 3 17 tied <->
        ¬InBand tied 3 ∧ ¬LosesQuorum tied 3 ∧ ¬GainsApproval tied 3) := by
  rcases twoToOne_tallies with ⟨tied, found, active, ends, inFavor, against⟩
  exact ⟨tied, found, finalizeVoting_decidedByRule_iff Consensus.toDouble twoToOne 1 3 17 tied found active
    (UInt64.le_of_eq ends) (by decide) (twoToOne_exactly inFavor against)⟩

/-- Two thirds of the votes are in favor and all have voted, but the proposal is rejected. -/
theorem twoToOne_rejected :
    ∃ tied, twoToOne.getProposal 1 = some tied ∧ tied.status = .active ∧ tied.votingEndsAtHeight ≤ 17 ∧
      outcome Consensus.toDouble tied 3 = outcome id tied 3 ∧ ApprovedByRule tied 3 ∧
      ¬DecidedByRule Consensus.toDouble twoToOne 1 3 17 tied := by
  rcases twoToOne_tallies with ⟨tied, found, active, ends, inFavor, against⟩
  have approved := twoToOne_approvedByRule inFavor against
  refine ⟨tied, found, active, UInt64.le_of_eq ends, twoToOne_exactly inFavor against, approved, ?_⟩
  rintro ⟨rejected, stored, approves, -⟩
  have decided : ((twoToOne.finalizeVoting Consensus.toDouble 1 3 17).2.getProposal 1).map Proposal.status =
      some .rejected := by decide +kernel
  rw [stored, Option.map_some, approves approved] at decided
  exact absurd decided (by decide)

/-! ## The backing of a proposal -/

/-- The stake of a backer, zero if it is not found. -/
def stakeOfBacker (submission : Submission) (backer : UInt64) : Nat :=
  ((submission.validatorStakes[backer]?).map UInt64.toNat).getD 0

/-- The stakes of all listed backers, with repetitions. -/
def listedBacking (submission : Submission) : Nat := (submission.backers.map (stakeOfBacker submission)).sum

/-- The stakes of the distinct backers. -/
def distinctBacking (submission : Submission) : Nat := (submission.backers.dedup.map (stakeOfBacker submission)).sum

/-- A proposal is accepted exactly if its distinct backers hold one thousandth of the stake. -/
def AcceptedByThreshold (round : Rat -> Rat) (governance : GovernanceModule) (submission : Submission) : Prop :=
  (governance.submitProposal round submission).1.isSome = true <->
    submission.totalStake.toNat ≤ 1000 * distinctBacking submission

/-- Repeated backers lift the product up to the total. -/
def LiftedByRepetition (submission : Submission) : Prop :=
  1000 * distinctBacking submission < submission.totalStake.toNat ∧
    submission.totalStake.toNat ≤ 1000 * listedBacking submission % 2 ^ 64

/-- The product overflows, and what is left is below the total. -/
def LostByOverflow (submission : Submission) : Prop :=
  submission.totalStake.toNat ≤ 1000 * distinctBacking submission ∧
    1000 * listedBacking submission % 2 ^ 64 < submission.totalStake.toNat

variable {submission : Submission}

theorem toNat_backing (submission : Submission) : submission.backing.toNat = listedBacking submission % 2 ^ 64 := by
  have stakes : (fun backer => ((submission.validatorStakes[backer]?).getD 0).toNat) = stakeOfBacker submission := by
    funext backer
    unfold stakeOfBacker
    cases submission.validatorStakes[backer]? with
    | none => rfl
    | some stake => rfl
  rw [Submission.backing, backingStake, toNat_sum, stakes, listedBacking]

theorem submitProposal_isSome_iff (governance : GovernanceModule)
    (admissible : validateParameterValue round submission.parameter submission.newValue = true) :
    (governance.submitProposal round submission).1.isSome = true <->
      submission.totalStake.toNat ≤ 1000 * listedBacking submission % 2 ^ 64 := by
  have product : (submission.backing * 1000).toNat = 1000 * listedBacking submission % 2 ^ 64 := by
    have thousand : (1000 : UInt64).toNat = 1000 := rfl
    rw [UInt64.toNat_mul, toNat_backing, thousand, Nat.mod_mul_mod, Nat.mul_comm]
  rw [submitProposal, if_neg (by simp [admissible])]
  split
  · rename_i less
    rw [UInt64.lt_iff_toNat_lt, product] at less
    exact iff_of_false (by simp) (Nat.not_le.mpr less)
  · rename_i enough
    rw [UInt64.lt_iff_toNat_lt, product] at enough
    exact iff_of_true rfl (Nat.not_lt.mp enough)

/-- No backer that is found is listed twice. -/
def ListedOnce (submission : Submission) : Prop :=
  forall backer, (submission.validatorStakes[backer]?).isSome = true -> submission.backers.count backer ≤ 1

/-- Without repetitions the loop adds the stakes of the distinct backers. -/
theorem listedBacking_of_listedOnce (once : ListedOnce submission) :
    listedBacking submission = distinctBacking submission := by
  have distinct : distinctBacking submission = weightOf (stakeOfBacker submission) submission.backers.toFinset := by
    have same : submission.backers.dedup.toFinset = submission.backers.toFinset := by
      ext backer
      rw [List.mem_toFinset, List.mem_toFinset, List.mem_dedup]
    rw [distinctBacking, weightOf, ← same, List.sum_toFinset _ (List.nodup_dedup _)]
  have nothing : repeatedWeight (stakeOfBacker submission) submission.backers = 0 := by
    by_contra counted
    rcases exists_repeated (Nat.pos_of_ne_zero counted) with ⟨backer, again, heavy⟩
    have known : (submission.validatorStakes[backer]?).isSome = true := by
      rw [Option.isSome_iff_ne_none]
      intro missing
      rw [stakeOfBacker, missing] at heavy
      exact Nat.lt_irrefl 0 heavy
    exact Nat.not_lt.mpr (once backer known) again
  rw [listedBacking, sum_map_eq_weightOf_add, nothing, distinct, Nat.add_zero]

/-- The threshold is exact if and only if neither a repetition nor an overflow decides.  So it
is where no backer that is found is listed twice and the product of the sum fits. -/
theorem submitProposal_acceptedByThreshold_iff (round : Rat -> Rat) (governance : GovernanceModule)
    (submission : Submission)
    (admissible : validateParameterValue round submission.parameter submission.newValue = true) :
    (AcceptedByThreshold round governance submission <->
      ¬LiftedByRepetition submission ∧ ¬LostByOverflow submission) ∧
    (ListedOnce submission -> 1000 * listedBacking submission < 2 ^ 64 ->
      AcceptedByThreshold round governance submission) := by
  have exact_iff : AcceptedByThreshold round governance submission <->
      ¬LiftedByRepetition submission ∧ ¬LostByOverflow submission := by
    rw [AcceptedByThreshold, submitProposal_isSome_iff governance admissible, LiftedByRepetition, LostByOverflow]
    omega
  refine ⟨exact_iff, fun once fits => exact_iff.mpr ?_⟩
  rw [LiftedByRepetition, LostByOverflow, Nat.mod_eq_of_lt fits, listedBacking_of_listedOnce once]
  omega

/-- A backer with one coin, and a threshold of two. -/
def backedTwice : Submission :=
  ⟨.blockSize, [1, 0, 0, 0, 0, 0, 0, 0], [], [], [1, 1], (∅ : OrderedMap UInt64 UInt64).insert 1 1, 2000, 10⟩

theorem submitProposal_acceptedByThreshold_backedTwice :
    AcceptedByThreshold Consensus.toDouble (create 1) backedTwice <->
      ¬LiftedByRepetition backedTwice ∧ ¬LostByOverflow backedTwice :=
  (submitProposal_acceptedByThreshold_iff Consensus.toDouble (create 1) backedTwice (by decide +kernel)).1

/-- The only backer has all the stake, and a thousand times the stake is zero modulo `2^64`. -/
def backedByAll : Submission :=
  ⟨.blockSize, [1, 0, 0, 0, 0, 0, 0, 0], [], [], [1], (∅ : OrderedMap UInt64 UInt64).insert 1 (2 ^ 62), 2 ^ 62, 10⟩

/-- A backer that is listed twice is enough, and a backer with all the stake is not. -/
theorem submitProposal_threshold_inexact :
    validateParameterValue Consensus.toDouble backedTwice.parameter backedTwice.newValue = true ∧
      ¬AcceptedByThreshold Consensus.toDouble (create 1) backedTwice ∧
      validateParameterValue Consensus.toDouble backedByAll.parameter backedByAll.newValue = true ∧
      ¬AcceptedByThreshold Consensus.toDouble (create 1) backedByAll := by
  unfold AcceptedByThreshold
  decide +kernel

end GovernanceModule
end State
end Sarafu
