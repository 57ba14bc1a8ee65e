import Mathlib

namespace Library
namespace ProportionalShares

/-!
# Proportional shares, with the rest for the last one

A loop pays an amount of 64 bits to a list of stakes.  Every stake but the last one gets its
share of the amount: a product of 128 bits, divided by the total and truncated to a word.
The last one gets the amount less what has been distributed.

If the stakes add up to the total, what has been distributed always leaves room for the
shares of the rest.  So nothing is truncated, the difference does not wrap around, and the
last one gets at least its own share.
-/

/-- A share rounded down, and what it leaves for the rest. -/
theorem share_fits {stake rest distributed amount total : Nat} (positive : 0 < total)
    (room : distributed * total + (stake + rest) * amount ≤ total * amount) :
    distributed + stake * amount / total ≤ amount ∧
      (distributed + stake * amount / total) * total + rest * amount ≤ total * amount := by
  have rounded := Nat.div_mul_le_self (stake * amount) total
  have left : (distributed + stake * amount / total) * total + rest * amount ≤ total * amount := by
    rw [Nat.add_mul] at room ⊢
    omega
  refine ⟨?_, left⟩
  apply Nat.le_of_mul_le_mul_right _ positive
  rw [Nat.mul_comm amount]
  exact Nat.le_trans (Nat.le_add_right _ _) left

/-- The reward of the stake that is next. -/
def reward (amount total : UInt64) (totalCount : Nat) (distributed : UInt64) (count : Nat) (stake : UInt64) : UInt64 :=
  if count + 1 = totalCount then amount - distributed else UInt64.ofNat (stake.toNat * amount.toNat / total.toNat)

/-- The rewards of a list of stakes, after some others. -/
def rewards (amount total : UInt64) (totalCount : Nat) : UInt64 -> Nat -> List UInt64 -> List UInt64
  | _, _, [] => []
  | distributed, count, stake :: rest =>
      reward amount total totalCount distributed count stake ::
        rewards amount total totalCount (distributed + reward amount total totalCount distributed count stake)
          (count + 1) rest

/-- What has been distributed after a list of stakes. -/
def distributedAfter (amount total : UInt64) (totalCount : Nat) : UInt64 -> Nat -> List UInt64 -> UInt64
  | distributed, _, [] => distributed
  | distributed, count, stake :: rest =>
      distributedAfter amount total totalCount (distributed + reward amount total totalCount distributed count stake)
        (count + 1) rest

/-- The payouts for some stakes: the shares rounded down, and for the last one at least its
share, with the given sum. -/
structure Pays (amount total sum : Nat) (stakes payouts : List Nat) : Prop where
  sum : payouts.sum = sum
  floors : payouts.dropLast = stakes.dropLast.map fun stake => stake * amount / total
  last : forall stake, stakes.getLast? = some stake ->
    ∃ payout, payouts.getLast? = some payout ∧ stake * amount / total ≤ payout

/-- What has been distributed leaves room for the shares of the rest. -/
structure LeavesRoom (amount total : UInt64) (totalCount : Nat) (distributed : UInt64) (count : Nat)
    (rest : List UInt64) : Prop where
  counted : count + rest.length = totalCount
  room : distributed.toNat * total.toNat + (rest.map UInt64.toNat).sum * amount.toNat ≤ total.toNat * amount.toNat

variable {amount total distributed stake : UInt64} {totalCount count : Nat} {rest : List UInt64}

@[simp] theorem length_rewards (amount total : UInt64) (totalCount : Nat) (distributed : UInt64) (count : Nat)
    (stakes : List UInt64) : (rewards amount total totalCount distributed count stakes).length = stakes.length := by
  induction stakes generalizing distributed count with
  | nil => rfl
  | cons stake rest inductionHypothesis => rw [rewards, List.length_cons, List.length_cons, inductionHypothesis]

theorem leavesRoom_start (amount : UInt64) (stakes : List UInt64)
    (sum : total.toNat = (stakes.map UInt64.toNat).sum) : LeavesRoom amount total stakes.length 0 0 stakes where
  counted := Nat.zero_add _
  room := by rw [← sum, UInt64.toNat_zero, Nat.zero_mul, Nat.zero_add]

theorem LeavesRoom.distributed_le (leaves : LeavesRoom amount total totalCount distributed count rest)
    (positive : 0 < total.toNat) : distributed.toNat ≤ amount.toNat := by
  apply Nat.le_of_mul_le_mul_right _ positive
  rw [Nat.mul_comm amount.toNat]
  exact Nat.le_trans (Nat.le_add_right _ _) leaves.room

theorem LeavesRoom.share (leaves : LeavesRoom amount total totalCount distributed count (stake :: rest))
    (positive : 0 < total.toNat) :
    distributed.toNat + stake.toNat * amount.toNat / total.toNat ≤ amount.toNat ∧
      (distributed.toNat + stake.toNat * amount.toNat / total.toNat) * total.toNat +
        (rest.map UInt64.toNat).sum * amount.toNat ≤ total.toNat * amount.toNat := by
  have room := leaves.room
  rw [List.map_cons, List.sum_cons] at room
  exact share_fits positive room

/-- Before the last stake, the reward is the share, which fits into a word. -/
theorem LeavesRoom.reward_of_rest (leaves : LeavesRoom amount total totalCount distributed count (stake :: rest))
    (positive : 0 < total.toNat) (more : rest ≠ []) :
    (reward amount total totalCount distributed count stake).toNat = stake.toNat * amount.toNat / total.toNat := by
  have counted := leaves.counted
  have length := List.length_pos_of_ne_nil more
  rw [List.length_cons] at counted
  rw [reward, if_neg (by omega)]
  apply UInt64.toNat_ofNat_of_lt'
  exact Nat.lt_of_le_of_lt (Nat.le_trans (Nat.le_add_left _ _) (leaves.share positive).1) amount.toNat_lt

/-- The last reward is what is left, and no less than the share. -/
theorem LeavesRoom.reward_last (leaves : LeavesRoom amount total totalCount distributed count [stake])
    (positive : 0 < total.toNat) :
    distributed.toNat + (reward amount total totalCount distributed count stake).toNat = amount.toNat ∧
      stake.toNat * amount.toNat / total.toNat ≤ (reward amount total totalCount distributed count stake).toNat := by
  have within := leaves.distributed_le positive
  have share := (leaves.share positive).1
  have left := UInt64.toNat_sub_of_le _ _ (UInt64.le_iff_toNat_le.mpr within)
  have isLast : reward amount total totalCount distributed count stake = amount - distributed := if_pos leaves.counted
  rw [isLast]
  omega

/-- A reward before the last one leaves room for the rest. -/
theorem LeavesRoom.next (leaves : LeavesRoom amount total totalCount distributed count (stake :: rest))
    (positive : 0 < total.toNat) (more : rest ≠ []) :
    LeavesRoom amount total totalCount (distributed + reward amount total totalCount distributed count stake)
      (count + 1) rest := by
  have share := leaves.share positive
  have size := amount.toNat_lt
  have sum : (distributed + reward amount total totalCount distributed count stake).toNat =
      distributed.toNat + stake.toNat * amount.toNat / total.toNat := by
    rw [UInt64.toNat_add, leaves.reward_of_rest positive more]
    exact Nat.mod_eq_of_lt (by omega)
  refine ⟨?_, ?_⟩
  · rw [← leaves.counted, List.length_cons]
    omega
  · rw [sum]
    exact share.2

/-- There is room for the rest after every beginning. -/
theorem LeavesRoom.after {earlier : List UInt64}
    (leaves : LeavesRoom amount total totalCount distributed count (earlier ++ rest)) (positive : 0 < total.toNat)
    (more : rest ≠ []) :
    LeavesRoom amount total totalCount (distributedAfter amount total totalCount distributed count earlier)
      (count + earlier.length) rest := by
  induction earlier generalizing distributed count with
  | nil => exact leaves
  | cons stake earlier inductionHypothesis =>
      have later := inductionHypothesis (leaves.next positive (List.append_ne_nil_of_right_ne_nil earlier more))
      rw [Nat.add_assoc, Nat.add_comm 1] at later
      exact later

/-- The rewards pay what is left of the amount. -/
theorem LeavesRoom.pays (leaves : LeavesRoom amount total totalCount distributed count rest)
    (positive : 0 < total.toNat) (nonempty : rest ≠ []) :
    Pays amount.toNat total.toNat (amount.toNat - distributed.toNat) (rest.map UInt64.toNat)
      ((rewards amount total totalCount distributed count rest).map UInt64.toNat) := by
  induction rest generalizing distributed count with
  | nil => exact absurd rfl nonempty
  | cons stake rest inductionHypothesis =>
      rw [rewards]
      cases rest with
      | nil =>
          have last := leaves.reward_last positive
          refine ⟨?_, rfl, ?_⟩
          · simp only [rewards, List.map_cons, List.map_nil, List.sum_cons, List.sum_nil]
            omega
          · rintro _ ⟨⟩
            exact ⟨_, rfl, last.2⟩
      | cons next later =>
          have more : next :: later ≠ [] := List.cons_ne_nil next later
          have inner := leaves.reward_of_rest positive more
          have share := (leaves.share positive).1
          have size := amount.toNat_lt
          have sum : (distributed + reward amount total totalCount distributed count stake).toNat =
              distributed.toNat + stake.toNat * amount.toNat / total.toNat := by
            rw [UInt64.toNat_add, inner]
            exact Nat.mod_eq_of_lt (by omega)
          have others := inductionHypothesis (leaves.next positive more) more
          rw [sum] at others
          refine ⟨?_, ?_, ?_⟩
          · rw [List.map_cons, List.sum_cons, others.sum, inner]
            omega
          · simpa [rewards, inner] using others.floors
          · simpa [rewards] using others.last

/-! ## Who is paid -/

section Receivers

variable {Id : Type*} [DecidableEq Id]

/-- What an id is paid by a list of payments. -/
def paidTo : List (Id × UInt64) -> Id -> UInt64
  | [], _ => 0
  | payment :: rest, id => (if payment.1 = id then payment.2 else 0) + paidTo rest id

theorem paidTo_of_not_mem {payments : List (Id × UInt64)} {id : Id} (absent : id ∉ payments.map Prod.fst) :
    paidTo payments id = 0 := by
  induction payments with
  | nil => rfl
  | cons payment rest inductionHypothesis =>
      rw [List.map_cons, List.mem_cons, not_or] at absent
      rw [paidTo, if_neg (Ne.symm absent.1), inductionHypothesis absent.2, UInt64.zero_add]

/-- Distinct receivers are paid one payment each. -/
theorem map_paidTo_zip {ids : List Id} (distinct : ids.Nodup) {payouts : List UInt64}
    (length : payouts.length = ids.length) : ids.map (paidTo (ids.zip payouts)) = payouts := by
  induction ids generalizing payouts with
  | nil => exact (List.eq_nil_of_length_eq_zero length).symm
  | cons id rest inductionHypothesis =>
      cases payouts with
      | nil => cases length
      | cons payout later =>
          rw [List.nodup_cons] at distinct
          have same : later.length = rest.length := Nat.succ.inj length
          have others : rest.map (paidTo ((id :: rest).zip (payout :: later))) =
              rest.map (paidTo (rest.zip later)) := by
            apply List.map_congr_left
            intro other member
            have differs : id ≠ other := fun equal => distinct.1 (equal ▸ member)
            rw [List.zip_cons_cons, paidTo, if_neg differs, UInt64.zero_add]
          have own : paidTo (rest.zip later) id = 0 := by
            apply paidTo_of_not_mem
            rw [List.map_fst_zip same.ge]
            exact distinct.1
          rw [List.map_cons, others, inductionHypothesis distinct.2 same, List.zip_cons_cons, paidTo, if_pos rfl, own,
            UInt64.add_zero]

end Receivers

end ProportionalShares
end Library
