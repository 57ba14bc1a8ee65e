import Sarafu.Consensus.StakeTotals
import Sarafu.Crypto.Transparent
import Sarafu.Library.DueQueue

namespace Sarafu
namespace Consensus

open Crypto State Library.Runs Library.DueQueue

/-!
# The flow of stake

Stake enters the registry by deposits and leaves it by slashing, by downtime penalties
and through unbonding requests, which wait out a period before they are returned.  The
book below accompanies a registry: it adds up what each call deposits and takes, keeps
what `process_unbonding` has returned, and gives every accepted request a ticket, since
two requests of one validator may agree in all their fields.  Heights need not grow
from call to call.
-/

/-- An accepted request, numbered in the order of acceptance, and the height it was
made at. -/
structure Ticket where
  serial : Nat
  requestedAt : UInt64
  request : UnbondingRequest
deriving DecidableEq

def Ticket.completionHeight (ticket : Ticket) : UInt64 := ticket.request.completionHeight

def Ticket.stake (ticket : Ticket) : Nat := ticket.request.amount.toNat

/-- The height a call is made at, if it carries one that the source reads. -/
def RegistryCall.height : RegistryCall -> Option UInt64
  | .unbondStake _ _ currentHeight => some currentHeight
  | .processUnbonding currentHeight => some currentHeight
  | _ => none

structure StakeBook where
  registry : ValidatorRegistry
  deposited : Nat
  slashed : Nat
  penalized : Nat
  /-- The results of `process_unbonding`, each with the height of its call. -/
  returned : List (UnbondingRequest × UInt64)
  tickets : Queue Ticket.completionHeight

namespace ValidatorRegistry

/-- What a call returns of the unbonding requests. -/
def returnedBy (registry : ValidatorRegistry) : RegistryCall -> List (UnbondingRequest × UInt64)
  | .processUnbonding currentHeight =>
      (registry.processUnbonding currentHeight).1.map fun request => (request, currentHeight)
  | _ => []

/-- The tickets after a call. -/
def ticketsBy (registry : ValidatorRegistry) (tickets : Queue Ticket.completionHeight) :
    RegistryCall -> Queue Ticket.completionHeight
  | .unbondStake id amount currentHeight =>
      if (registry.unbondStake id amount currentHeight).1 then
        tickets.issue ⟨tickets.issued.length, currentHeight,
          ⟨id, amount, currentHeight + registry.config.unbondingPeriodBlocks⟩⟩
      else tickets
  | .processUnbonding currentHeight => tickets.release currentHeight
  | _ => tickets

/-- An operation on one record that adds no request. -/
theorem frame_of_performs {registry : ValidatorRegistry} {id : ValidatorID} {write : Write}
    {result : Bool × ValidatorRegistry} (performs : Performs registry id write result) (silent : write.requests = []) :
    result.2.config = registry.config ∧ result.2.unbondingRequests = registry.unbondingRequests := by
  rcases performs with refused | ⟨validator, wrote⟩
  · rw [refused]
    exact ⟨rfl, rfl⟩
  · have queued := wrote.queued
    rw [silent, List.append_nil] at queued
    exact ⟨wrote.sameConfig, queued⟩

/-- Only the two calls with a height touch the unbonding requests. -/
theorem call_frame (prim : Primitives) (registry : ValidatorRegistry) {call : RegistryCall}
    (timeless : call.height = none) :
    (registry.call prim call).config = registry.config ∧
      (registry.call prim call).unbondingRequests = registry.unbondingRequests := by
  cases call with
  | addValidator id consensusKey withdrawalKey initialStake =>
      unfold ValidatorRegistry.call addValidator
      simp only []
      split
      · exact ⟨rfl, rfl⟩
      · exact ⟨rfl, rfl⟩
  | bondStake id amount => exact frame_of_performs (registry.bondStake_performs id amount) rfl
  | unbondStake id amount currentHeight => cases timeless
  | processUnbonding currentHeight => cases timeless
  | slashValidator id amount reason =>
      exact frame_of_performs (registry.slashValidator_performs id amount reason) rfl
  | updateValidator id consensusKey withdrawalKey newStatus =>
      exact frame_of_performs (registry.updateValidator_performs id consensusKey withdrawalKey newStatus) rfl
  | recordSignature id blockHeight => exact frame_of_performs (registry.recordSignature_performs id blockHeight) rfl
  | checkDowntime epoch totalBlocks => exact registry.checkDowntime_frame epoch totalBlocks
  | transitionEpoch newEpoch totalBlocks => exact registry.checkedFor_frame newEpoch totalBlocks

theorem config_call (prim : Primitives) (registry : ValidatorRegistry) (call : RegistryCall) :
    (registry.call prim call).config = registry.config := by
  cases call with
  | unbondStake id amount currentHeight =>
      rw [ValidatorRegistry.call]
      rcases registry.unbondStake_performs id amount currentHeight with refused | ⟨validator, wrote⟩
      · rw [refused]
      · exact wrote.sameConfig
  | processUnbonding currentHeight => rfl
  | _ => exact (registry.call_frame prim rfl).1

end ValidatorRegistry

namespace StakeBook

/-- The book of a new registry. -/
def opened (config : RegistryConfig) : StakeBook := ⟨ValidatorRegistry.create config, 0, 0, 0, [], Queue.empty⟩

def step (prim : Primitives) (book : StakeBook) (call : RegistryCall) : StakeBook where
  registry := book.registry.call prim call
  deposited := book.deposited + book.registry.depositBy call
  slashed := book.slashed + book.registry.slashBy call
  penalized := book.penalized + book.registry.penaltyBy call
  returned := book.returned ++ book.registry.returnedBy call
  tickets := book.registry.ticketsBy book.tickets call

variable {prim : Primitives} {book : StakeBook}

/-- The registry of the book is the registry itself. -/
theorem registry_run (prim : Primitives) (book : StakeBook) (calls : List RegistryCall) :
    (run (step prim) book calls).registry = run (ValidatorRegistry.call prim) book.registry calls := by
  induction calls generalizing book with
  | nil => rfl
  | cons call rest inductionHypothesis => exact inductionHypothesis (book.step prim call)

/-- The tickets stand for the requests: the waiting ones for those of the registry,
the released ones for those that were returned. -/
structure Ticketed (book : StakeBook) : Prop where
  waiting : book.tickets.pending.map Ticket.request = book.registry.unbondingRequests
  returned : book.tickets.released.map (fun entry => (entry.1.request, entry.2)) = book.returned
  numbered : book.tickets.issued.map Ticket.serial = List.range book.tickets.issued.length

theorem Ticketed.unbondStake (ticketed : Ticketed book) (id : ValidatorID) (amount currentHeight : UInt64) :
    Ticketed (book.step prim (.unbondStake id amount currentHeight)) := by
  unfold step ValidatorRegistry.ticketsBy ValidatorRegistry.returnedBy ValidatorRegistry.call
  rcases book.registry.unbondStake_performs id amount currentHeight with refused | ⟨validator, wrote⟩
  · simp only [refused, Bool.false_eq_true, if_false, List.append_nil]
    exact ⟨ticketed.waiting, ticketed.returned, ticketed.numbered⟩
  · simp only [wrote.accepted, if_true, List.append_nil]
    constructor
    case waiting =>
      rw [wrote.queued, ← ticketed.waiting]
      exact List.map_append
    case returned => exact ticketed.returned
    case numbered =>
      simp only [Queue.issue, List.map_append, List.length_append, List.length_singleton, List.range_succ,
        ticketed.numbered, List.map_cons, List.map_nil]

theorem Ticketed.processUnbonding (ticketed : Ticketed book) (currentHeight : UInt64) :
    Ticketed (book.step prim (.processUnbonding currentHeight)) := by
  unfold step ValidatorRegistry.ticketsBy ValidatorRegistry.returnedBy ValidatorRegistry.call
    ValidatorRegistry.processUnbonding
  constructor
  case waiting =>
    simp only [Queue.release]
    rw [← ticketed.waiting, List.filter_map]
    rfl
  case returned =>
    simp only [Queue.release]
    rw [List.map_append, ticketed.returned, ← ticketed.waiting, List.filter_map, List.map_map, List.map_map]
    rfl
  case numbered => exact ticketed.numbered

theorem Ticketed.step (ticketed : Ticketed book) (call : RegistryCall) : Ticketed (book.step prim call) := by
  have timeless : call.height = none -> book.registry.returnedBy call = [] ->
      book.registry.ticketsBy book.tickets call = book.tickets -> Ticketed (book.step prim call) := by
    intro untimed nothing kept
    unfold StakeBook.step
    rw [nothing, kept]
    constructor
    case waiting =>
      rw [(book.registry.call_frame prim untimed).2]
      exact ticketed.waiting
    case returned =>
      rw [List.append_nil]
      exact ticketed.returned
    case numbered => exact ticketed.numbered
  cases call with
  | unbondStake id amount currentHeight => exact ticketed.unbondStake id amount currentHeight
  | processUnbonding currentHeight => exact ticketed.processUnbonding currentHeight
  | _ => exact timeless rfl rfl rfl

/-- What the tickets are issued for is what was unbonded. -/
theorem sum_ticketsBy (registry : ValidatorRegistry) (tickets : Queue Ticket.completionHeight) (call : RegistryCall) :
    ((registry.ticketsBy tickets call).issued.map Ticket.stake).sum =
      (tickets.issued.map Ticket.stake).sum + registry.unbondedBy call := by
  cases call with
  | unbondStake id amount currentHeight =>
      unfold ValidatorRegistry.ticketsBy ValidatorRegistry.unbondedBy
      simp only []
      split
      · unfold Queue.issue
        rw [List.map_append, List.sum_append]
        rfl
      · rfl
  | _ => rfl

/-- Deposits are bonded, unbonded or lost. -/
structure Balanced (book : StakeBook) : Prop where
  ok : ValidatorRegistry.RegistryOk book.registry
  balance : book.registry.totalBonded + (book.tickets.issued.map Ticket.stake).sum + book.slashed + book.penalized =
    book.deposited

theorem Balanced.step (balanced : Balanced book) (call : RegistryCall)
    (below : (book.step prim call).deposited < 2 ^ 64) : Balanced (book.step prim call) where
  ok := (balanced.ok.call prim call).1
  balance := by
    have before := balanced.balance
    have fits : book.registry.totalBonded + book.registry.depositBy call < 2 ^ 64 := by
      unfold StakeBook.step at below
      simp only [] at below
      omega
    have moved := balanced.ok.totalBonded_call prim call fits
    have issued := sum_ticketsBy book.registry book.tickets call
    unfold StakeBook.step
    simp only []
    omega

/-- Every ticket matures a whole period after its request. -/
structure Dated (config : RegistryConfig) (book : StakeBook) : Prop where
  sameConfig : book.registry.config = config
  matures : forall ticket, ticket ∈ book.tickets.issued ->
    ticket.completionHeight.toNat = ticket.requestedAt.toNat + config.unbondingPeriodBlocks.toNat

/-- A call at a height below `2^63`, or at none. -/
def HeightBelow (call : RegistryCall) : Prop :=
  forall height, call.height = some height -> height.toNat < 2 ^ 63

theorem Dated.step {config : RegistryConfig} (dated : Dated config book) (call : RegistryCall)
    (period : config.unbondingPeriodBlocks.toNat < 2 ^ 63) (early : HeightBelow call) :
    Dated config (book.step prim call) where
  sameConfig := (book.registry.config_call prim call).trans dated.sameConfig
  matures := by
    intro ticket member
    cases call with
    | unbondStake id amount currentHeight =>
        unfold StakeBook.step ValidatorRegistry.ticketsBy at member
        simp only [] at member
        split at member
        · rcases List.mem_append.mp member with earlier | now
          · exact dated.matures ticket earlier
          · have height := early currentHeight rfl
            rw [List.mem_singleton.mp now, Ticket.completionHeight, dated.sameConfig, UInt64.toNat_add]
            exact Nat.mod_eq_of_lt (by omega)
        · exact dated.matures ticket member
    | _ => exact dated.matures ticket member

/-- What a book says about every run: the stake is conserved, the released tickets are
the requests that `process_unbonding` returned, each accepted request is released once
at most and not before its period has passed, and a call at or after that height
releases it, unless an earlier one did. -/
structure Accounted (prim : Primitives) (config : RegistryConfig) (book : StakeBook) : Prop where
  conserved : book.registry.totalBonded +
      (book.registry.unbondingRequests.map fun request => request.amount.toNat).sum +
      (book.returned.map fun entry => entry.1.amount.toNat).sum + book.slashed + book.penalized = book.deposited
  waiting : book.tickets.pending.map Ticket.request = book.registry.unbondingRequests
  returned : book.tickets.released.map (fun entry => (entry.1.request, entry.2)) = book.returned
  distinct : book.tickets.issued.Nodup
  once : (book.tickets.released.map Prod.fst).Nodup
  matured : forall ticket height, (ticket, height) ∈ book.tickets.released ->
    ticket.requestedAt.toNat + config.unbondingPeriodBlocks.toNat ≤ height.toNat
  prompt : forall ticket (height : UInt64), ticket ∈ book.tickets.issued ->
    ticket.requestedAt.toNat + config.unbondingPeriodBlocks.toNat ≤ height.toNat ->
      (∃ earlier, (ticket, earlier) ∈ book.tickets.released) ∨
        (ticket, height) ∈ (book.step prim (.processUnbonding height)).tickets.released

theorem accounted_of_invariants {config : RegistryConfig} (prim : Primitives) (ticketed : Ticketed book)
    (balanced : Balanced book) (dated : Dated config book) : Accounted prim config book := by
  have distinct : book.tickets.issued.Nodup := by
    apply List.Nodup.of_map Ticket.serial
    rw [ticketed.numbered]
    exact List.nodup_range
  constructor
  case conserved =>
    have spread := book.tickets.sum_issued Ticket.stake
    have balance := balanced.balance
    rw [← ticketed.waiting, ← ticketed.returned, List.map_map, List.map_map]
    rw [spread] at balance
    rw [← balance, ← Nat.add_assoc]
    rfl
  case waiting => exact ticketed.waiting
  case returned => exact ticketed.returned
  case distinct => exact distinct
  case once => exact book.tickets.nodup_released distinct
  case matured =>
    intro ticket height released
    have issued : ticket ∈ book.tickets.issued :=
      book.tickets.accounted.mem_iff.mpr (List.mem_append_right _ (List.mem_map_of_mem released))
    rw [← dated.matures ticket issued]
    exact UInt64.le_iff_toNat_le.mp (book.tickets.timely _ released)
  case prompt =>
    intro ticket height issued due
    rw [← dated.matures ticket issued] at due
    exact book.tickets.released_of_due issued (UInt64.le_iff_toNat_le.mpr due)

theorem invariants_opened (config : RegistryConfig) :
    Ticketed (opened config) ∧ Balanced (opened config) ∧ Dated config (opened config) :=
  ⟨⟨rfl, rfl, rfl⟩, ⟨ValidatorRegistry.registryOk_create config, rfl⟩, ⟨rfl, nofun⟩⟩

/-- Every run whose deposits sum up to less than `2^64`, with heights and a period
below `2^63`. -/
theorem accounted_run (prim : Primitives) (config : RegistryConfig)
    (period : config.unbondingPeriodBlocks.toNat < 2 ^ 63) (calls : List RegistryCall)
    (heights : forall call, call ∈ calls -> HeightBelow call)
    (deposits : (run (step prim) (opened config) calls).deposited < 2 ^ 64) :
    (run (step prim) (opened config) calls).registry =
        run (ValidatorRegistry.call prim) (ValidatorRegistry.create config) calls ∧
      Accounted prim config (run (step prim) (opened config) calls) := by
  refine ⟨registry_run prim (opened config) calls, ?_⟩
  have bounded := along_and (along_of_grows StakeBook.deposited (fun _ _ => Nat.le_add_right _ _) deposits)
    (along_of_forall (opened config) heights)
  have invariants := invariant_run (fun book => Ticketed book ∧ Balanced book ∧ Dated config book)
    (fun book call held guarded =>
      ⟨held.1.step call, held.2.1.step call guarded.1, held.2.2.step call period guarded.2⟩)
    (invariants_opened config) bounded
  exact accounted_of_invariants prim invariants.1 invariants.2.1 invariants.2.2

/-- A validator unbonds a part of its stake, and misses two epochs afterwards. -/
def mixedCalls : List RegistryCall :=
  [ValidatorRegistry.newcomer 1 2000, .bondStake (ValidatorRegistry.numbered 1) 500,
    .transitionEpoch 1 100, .unbondStake (ValidatorRegistry.numbered 1) 300 5,
    .processUnbonding 14, .transitionEpoch 2 100, .slashValidator (ValidatorRegistry.numbered 1) 200 .downtime,
    .transitionEpoch 3 100, .processUnbonding 20, .processUnbonding 30]

theorem mixedCalls_heightBelow : forall call, call ∈ mixedCalls -> HeightBelow call := by
  simp [mixedCalls, ValidatorRegistry.newcomer, HeightBelow, RegistryCall.height]

theorem accounted_run_mixedCalls :
    let book := run (step Transparent.primitives) (opened ValidatorRegistry.smallConfig) mixedCalls
    Accounted Transparent.primitives ValidatorRegistry.smallConfig book ∧
      book.returned = [(⟨ValidatorRegistry.numbered 1, 300, 15⟩, 20)] ∧
      book.deposited = 2500 ∧ book.slashed = 200 ∧ book.penalized = 10 ∧ book.registry.totalBonded = 1990 :=
  ⟨(accounted_run Transparent.primitives ValidatorRegistry.smallConfig (by decide) mixedCalls
    mixedCalls_heightBelow (by decide +kernel)).2,
    by decide +kernel, by decide +kernel, by decide +kernel, by decide +kernel, by decide +kernel⟩

end StakeBook

end Consensus
end Sarafu
