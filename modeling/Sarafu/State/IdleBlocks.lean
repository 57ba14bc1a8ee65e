import Sarafu.State.Nonces
import Sarafu.State.Replay
import Sarafu.State.StateBinding

namespace Sarafu
namespace State
namespace StateMachine

open Crypto Crypto.MerkleTree

/-!
# Blocks that change no account

A transaction that passes validation advances the nonce of its sender, and fewer than
`2^64` advances cannot bring a nonce back.  A block therefore leaves the accounts as
they were exactly if none of its transactions is valid in the state before the block,
and as far as the hash binds, the state root tells the two cases apart.
-/

variable (prim : Primitives)

/-- No transaction passes the validation of `execute_block` in the given state. -/
def NoneValid (machine : StateMachine) (transactions : List Transaction) : Prop :=
  forall tx, tx ∈ transactions ->
    TransactionValidator.validateTransaction prim machine.chainId tx defaultPublicKey machine.accountManager ≠ none

variable {prim} {machine first second : StateMachine} (height baseFee : UInt64) (proposer : Address)

theorem SameLedger.noneValid_iff (same : SameLedger first second) (transactions : List Transaction) :
    NoneValid prim first transactions <-> NoneValid prim second transactions := by
  unfold NoneValid
  rw [same.chainId, same.accounts]

/-- A transaction that is not valid leaves the ledger as it was. -/
theorem executeAndStore_invalid {tx : Transaction}
    (invalid : TransactionValidator.validateTransaction prim machine.chainId tx defaultPublicKey
      machine.accountManager ≠ none) :
    SameLedger machine (machine.executeAndStore prim height baseFee proposer tx) := by
  rcases executeAndStore_ledger prim machine height baseFee proposer tx with ⟨chainId, accounts⟩
  rcases Option.ne_none_iff_exists'.mp invalid with ⟨text, rejected⟩
  refine ⟨chainId.symm, ?_⟩
  rw [accounts, rejected]

/-- A valid one advances the nonce of its sender. -/
theorem executeAndStore_valid {tx : Transaction}
    (valid : TransactionValidator.validateTransaction prim machine.chainId tx defaultPublicKey
      machine.accountManager = none) :
    (machine.executeAndStore prim height baseFee proposer tx).accountManager.getNonce tx.fromAddr =
      machine.accountManager.getNonce tx.fromAddr + 1 := by
  have checked := validateTransaction_eq_none_iff.mp valid
  rw [(executeAndStore_ledger prim machine height baseFee proposer tx).2, valid]
  unfold applyTransaction
  have settles := @TransactionExecutor.executeTransaction_eq_settled prim ⟨machine.accountManager, 0, 0⟩
    ⟨tx, defaultPublicKey, height, baseFee, proposer⟩ checked.covered
  simp only at settles
  rw [settles]
  simp only [TransactionExecutor.getNonce_settled, if_true]

/-- A nonce advances by at most one with every transaction. -/
theorem exists_advance (machine : StateMachine) (transactions : List Transaction) (address : Address) :
    ∃ count, count ≤ transactions.length ∧
      ((transactions.foldl (executeAndStore prim height baseFee proposer) machine).accountManager.getNonce address) =
        machine.accountManager.getNonce address + UInt64.ofNat count := by
  induction transactions generalizing machine with
  | nil => exact ⟨0, Nat.le_refl 0, (UInt64.add_zero _).symm⟩
  | cons tx rest inductionHypothesis =>
      rcases inductionHypothesis (machine.executeAndStore prim height baseFee proposer tx) with
        ⟨count, small, later⟩
      rcases machine.success_cases prim (.executeAndStore height baseFee proposer tx) with
        ⟨_, kept⟩ | ⟨succeeded, _, _, _, advanced⟩
      · refine ⟨count, Nat.le_succ_of_le small, later.trans ?_⟩
        exact congrArg (· + UInt64.ofNat count) (kept address)
      · have here := advanced address
        split at here
        · refine ⟨count + 1, Nat.succ_le_succ small, later.trans ?_⟩
          rw [UInt64.ofNat_add, UInt64.add_comm (UInt64.ofNat count), ← UInt64.add_assoc]
          exact congrArg (· + UInt64.ofNat count) here
        · refine ⟨count, Nat.le_succ_of_le small, later.trans ?_⟩
          rw [UInt64.add_zero] at here
          exact congrArg (· + UInt64.ofNat count) here

/-- A list with a valid transaction moves some nonce. -/
theorem exists_nonce_ne {transactions : List Transaction} (short : transactions.length < 2 ^ 64)
    (valid : ¬ NoneValid prim machine transactions) :
    ∃ address, (transactions.foldl (executeAndStore prim height baseFee proposer) machine).accountManager.getNonce
      address ≠ machine.accountManager.getNonce address := by
  induction transactions generalizing machine with
  | nil => exact absurd (fun _ member => absurd member List.not_mem_nil) valid
  | cons tx rest inductionHypothesis =>
      rw [List.length_cons] at short
      by_cases here : TransactionValidator.validateTransaction prim machine.chainId tx defaultPublicKey
          machine.accountManager = none
      · rcases exists_advance height baseFee proposer (machine.executeAndStore prim height baseFee proposer tx) rest
          tx.fromAddr with ⟨count, small, later⟩
        refine ⟨tx.fromAddr, fun same => ?_⟩
        rw [List.foldl_cons, later, executeAndStore_valid height baseFee proposer here] at same
        have nonces := congrArg UInt64.toNat same
        rw [UInt64.toNat_add, UInt64.toNat_add, UInt64.toNat_ofNat', UInt64.toNat_one] at nonces
        have bounded := (machine.accountManager.getNonce tx.fromAddr).toNat_lt
        omega
      · have ledger := executeAndStore_invalid height baseFee proposer here
        have still : ¬ NoneValid prim (machine.executeAndStore prim height baseFee proposer tx) rest := by
          rw [← ledger.noneValid_iff]
          exact fun none => valid (List.forall_mem_cons.mpr ⟨here, none⟩)
        rcases inductionHypothesis (Nat.lt_of_succ_lt short) still with ⟨address, moved⟩
        refine ⟨address, fun same => moved ?_⟩
        rw [← ledger.accounts]
        exact same

/-- A list without one leaves the ledger as it was. -/
theorem foldl_noneValid {transactions : List Transaction} (none : NoneValid prim machine transactions) :
    SameLedger machine (transactions.foldl (executeAndStore prim height baseFee proposer) machine) := by
  induction transactions generalizing machine with
  | nil => exact SameLedger.refl machine
  | cons tx rest inductionHypothesis =>
      rcases List.forall_mem_cons.mp none with ⟨here, others⟩
      have ledger := executeAndStore_invalid height baseFee proposer here
      exact ledger.trans (inductionHypothesis ((ledger.noneValid_iff rest).mp others))

variable (prim) (machine)

/-- The strings hashed for the root before and for the root after a block. -/
def hashedAround (height : UInt64) (transactions : List Transaction) (baseFee : UInt64) (proposer : Address) :
    List (List UInt8) :=
  machine.hashedStrings prim ++
    (machine.executeBlock prim height transactions baseFee proposer).2.hashedStrings prim

variable {prim} {machine}

/-- The root after a block is the root before it exactly if no transaction of the block
is valid, unless two of the hashed strings collide or one of them hashes to zero. -/
theorem executeBlock_root_eq_iff {transactions : List Transaction} (short : transactions.length < 2 ^ 64)
    (free : CollisionFree prim (machine.hashedAround prim height transactions baseFee proposer))
    (nonzero : forall string, string ∈ machine.hashedAround prim height transactions baseFee proposer ->
      prim.blake3 string ≠ Blake3Hash.zero) :
    (machine.executeBlock prim height transactions baseFee proposer).1 = machine.computeStateRoot prim <->
      NoneValid prim machine transactions := by
  have start : SameLedger machine (machine.saveStateSnapshot prim machine.currentHeight) := ⟨rfl, rfl⟩
  constructor
  · intro same
    by_contra valid
    rw [start.noneValid_iff] at valid
    rcases exists_nonce_ne height baseFee proposer short valid with
      ⟨address, moved⟩
    have accounts := computeStateRoot_binds prim machine
      (machine.executeBlock prim height transactions baseFee proposer).2 free nonzero same.symm
    apply moved
    change
      ((((machine.executeBlock prim height transactions baseFee proposer).2.accountManager.accounts)[address]?).getD
        (Account.make address 0 0)).nonce = _
    rw [← accounts]
    rfl
  · intro none
    have ledger := start.trans (foldl_noneValid height baseFee proposer
      ((start.noneValid_iff transactions).mp none))
    have final : SameLedger machine (machine.executeBlock prim height transactions baseFee proposer).2 :=
      ⟨ledger.chainId, ledger.accounts⟩
    exact final.computeStateRoot.symm

end StateMachine
end State
end Sarafu
