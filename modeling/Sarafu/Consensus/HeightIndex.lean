import Sarafu.Consensus.ChainExtension
import Sarafu.Consensus.FinalityLinks

namespace Sarafu
namespace Consensus

open Crypto State Library.Runs

/-!
# Finalized blocks and the height index

The height index holds one hash for each height, and every stored block writes it.  A
finalized block is found by its height until another block of that height is stored, and it
is not found at all if the other block was stored before the certificate was formed.  The
engine keeps all blocks that it stores, so nothing else can hide a block.
-/

/-- The calls of a node, `mark_finalized` and `store_block` with any arguments. -/
inductive StoreCall
  | finality (call : FinalityCall)
  | storeBlock (block : Block)

namespace ConsensusEngine

variable (prim : Primitives)

def storeCall (engine : ConsensusEngine) : StoreCall -> ConsensusEngine
  | .finality call => engine.finalityCall prim call
  | .storeBlock block => engine.storeBlock prim block

/-- The block that a call does store. -/
def storedBlock (engine : ConsensusEngine) : StoreCall -> Option Block
  | .finality (.node (.engine (.proposeBlock proposal))) => (engine.proposeBlock prim proposal).1
  | .finality (.node (.engine (.onReceiveBlock block))) =>
      if engine.verifyBlock prim block = .ok true then some block else none
  | .finality (.node (.engine (.onReceiveVote _))) => none
  | .finality (.node (.engine .triggerViewChange)) => none
  | .finality (.node (.registry _)) => none
  | .finality (.node (.genesis block)) => if block.header.height = 0 then some block else none
  | .finality (.markFinalized _ _) => none
  | .storeBlock block => some block

/-- The call marks the hash with a verified certificate of the height, or sets it as the
genesis block. -/
def Certifies (hash : Blake3Hash) (height : UInt64) (engine : ConsensusEngine) : StoreCall -> Prop
  | .finality call => (SetsGenesis prim call hash ∧ height = 0) ∨
      ∃ qc, engine.Marks prim call hash qc ∧ qc.blockHeight = height
  | .storeBlock _ => False

/-- A call of the run has certified the block with its own height. -/
def Certified (start : ConsensusEngine) (calls : List StoreCall) (block : Block) : Prop :=
  Happened (storeCall prim) (Certifies prim (block.hash prim) block.header.height) start calls

/-- After every beginning of the run, each stored final block whose certificate names its
height is found by that height. -/
def FoundByHeight (start : ConsensusEngine) (calls : List StoreCall) : Prop :=
  forall before after, calls = before ++ after -> forall hash block,
    (run (storeCall prim) start before).getBlock hash = some block ->
    (run (storeCall prim) start before).isFinalized (block.hash prim) = true -> Certified prim start before block ->
      (run (storeCall prim) start before).getBlockByHeight block.header.height = some block

/-- The call after this beginning spares the certified blocks: it stores no other block at
their height, and the blocks that it certifies are indexed already. -/
structure Spares (start : ConsensusEngine) (before : List StoreCall) (step : StoreCall) : Prop where
  stores : forall block, (run (storeCall prim) start before).storedBlock prim step = some block ->
    forall hash other, (run (storeCall prim) start before).getBlock hash = some other ->
      Certified prim start before other -> other.header.height = block.header.height ->
        other.hash prim = block.hash prim
  marks : forall call hash qc, step = .finality call -> (run (storeCall prim) start before).Marks prim call hash qc ->
    forall block, (run (storeCall prim) start before).getBlock hash = some block ->
      block.header.height = qc.blockHeight ->
        (run (storeCall prim) start before).getBlockByHeight block.header.height = some block

variable {prim} {engine : ConsensusEngine}

/-! ## What a call does to the store -/

theorem sameStore_finalizeVerified (hash : Blake3Hash) (qc : QuorumCertificate) :
    SameStore engine (engine.finalizeVerified hash qc) := ⟨rfl, rfl⟩

/-- A call stores its block, or nothing. -/
theorem storeCall_cases (prim : Primitives) (engine : ConsensusEngine) (step : StoreCall) :
    (∃ block, engine.storedBlock prim step = some block ∧
      SameStore (engine.storeBlock prim block) (engine.storeCall prim step)) ∨
    (engine.storedBlock prim step = none ∧ SameStore engine (engine.storeCall prim step)) := by
  cases step with
  | storeBlock block => exact Or.inl ⟨block, rfl, rfl, rfl⟩
  | finality step =>
      cases step with
      | markFinalized hash qc =>
          refine Or.inr ⟨rfl, ?_⟩
          rcases markFinalized_cases prim engine hash qc with ⟨_, outcome⟩ | ⟨_, outcome⟩
          · rw [storeCall, finalityCall, outcome]
            exact sameStore_finalizeVerified hash qc
          · rw [storeCall, finalityCall, outcome]
            exact ⟨rfl, rfl⟩
      | node step =>
          cases step with
          | registry step => exact Or.inr ⟨rfl, rfl, rfl⟩
          | genesis block =>
              by_cases zero : block.header.height = 0
              · refine Or.inl ⟨block, if_pos zero, ?_⟩
                simp only [storeCall, finalityCall, nodeCall, setGenesisBlock_of_zero prim engine zero]
                exact ⟨rfl, rfl⟩
              · refine Or.inr ⟨if_neg zero, ?_⟩
                rcases nodeCall_genesis_cases prim engine block with ⟨height, _⟩ | unchanged
                · exact absurd height zero
                · rw [storeCall, finalityCall, unchanged]
                  exact ⟨rfl, rfl⟩
          | engine step =>
              cases step with
              | onReceiveVote vote =>
                  rcases call_store_cases prim engine (.onReceiveVote vote) with ⟨_, stored, _⟩ | same
                  · cases stored
                  · exact Or.inr ⟨rfl, same⟩
              | triggerViewChange => exact Or.inr ⟨rfl, rfl, rfl⟩
              | onReceiveBlock block =>
                  rcases onReceiveBlock_cases prim engine block with ⟨verified, outcome⟩ | ⟨refused, _, unchanged⟩
                  · refine Or.inl ⟨block, if_pos verified, ?_⟩
                    simp only [storeCall, finalityCall, nodeCall, call, outcome]
                    exact ⟨rfl, rfl⟩
                  · refine Or.inr ⟨if_neg refused, ?_⟩
                    simp only [storeCall, finalityCall, nodeCall, call, unchanged]
                    exact ⟨rfl, rfl⟩
              | proposeBlock proposal =>
                  rcases proposeBlock_cases prim engine proposal with ⟨parent, _, _, outcome⟩ | outcome
                  · refine Or.inl ⟨engine.assembleBlock prim proposal parent, ?_, ?_⟩
                    · simp only [storedBlock, outcome]
                    · simp only [storeCall, finalityCall, nodeCall, call, outcome]
                      exact ⟨rfl, rfl⟩
                  · refine Or.inr ⟨?_, ?_⟩
                    · simp only [storedBlock, outcome]
                    · simp only [storeCall, finalityCall, nodeCall, call, outcome]
                      exact ⟨rfl, rfl⟩

theorem getBlockByHeight_of_sameStore {before after : ConsensusEngine} (same : SameStore before after)
    (height : UInt64) : after.getBlockByHeight height = before.getBlockByHeight height := by
  unfold getBlockByHeight
  rw [same.heights]
  cases before.heightIndex[height]? with
  | none => rfl
  | some hash => exact getBlock_of_sameStore same hash

theorem getBlockByHeight_storeBlock_self (block : Block) :
    (engine.storeBlock prim block).getBlockByHeight block.header.height = some block := by
  have indexed : (engine.storeBlock prim block).heightIndex[block.header.height]? = some (block.hash prim) := by
    change (engine.heightIndex.insert block.header.height (block.hash prim))[block.header.height]? = _
    rw [OrderedMap.find_insert, if_pos rfl]
  rw [getBlockByHeight, indexed]
  change (engine.storeBlock prim block).getBlock (block.hash prim) = some block
  rw [getBlock_storeBlock, if_pos rfl]

theorem storedBlock_of_marks {call : FinalityCall} {hash : Blake3Hash} {qc : QuorumCertificate}
    (marks : engine.Marks prim call hash qc) : engine.storedBlock prim (.finality call) = none := by
  rcases marks with ⟨requests, _⟩
  cases requests with
  | direct _ _ => rfl
  | voted _ _ _ _ => rfl

/-- A call that certifies a block stores none, except for a genesis block that is given. -/
theorem stores_of_certifies {step : StoreCall} {hash : Blake3Hash} {height : UInt64}
    (certifies : Certifies prim hash height engine step) :
    (engine.storedBlock prim step = none ∧
      ∃ call qc, step = .finality call ∧ engine.Marks prim call hash qc ∧ qc.blockHeight = height) ∨
    ∃ genesis, engine.storedBlock prim step = some genesis ∧ genesis.hash prim = hash ∧
      genesis.header.height = height := by
  cases step with
  | storeBlock block => exact certifies.elim
  | finality call =>
      rcases certifies with ⟨⟨genesis, rfl, zero, hashed⟩, rfl⟩ | ⟨qc, marks, names⟩
      · exact Or.inr ⟨genesis, if_pos zero, hashed, zero⟩
      · exact Or.inl ⟨storedBlock_of_marks marks, call, qc, rfl, marks, names⟩

/-! ## Runs -/

/-- Stored blocks stand under their own hash. -/
def Keyed (prim : Primitives) (engine : ConsensusEngine) : Prop :=
  forall hash block, engine.getBlock hash = some block -> block.hash prim = hash

theorem Keyed.storeCall (keyed : Keyed prim engine) (step : StoreCall) : Keyed prim (engine.storeCall prim step) := by
  intro hash block found
  rcases storeCall_cases prim engine step with ⟨stored, _, same⟩ | ⟨_, same⟩
  · rw [getBlock_of_sameStore same, getBlock_storeBlock] at found
    split at found
    · rename_i own
      rw [← Option.some.inj found, own]
    · exact keyed hash block found
  · rw [getBlock_of_sameStore same] at found
    exact keyed hash block found

/-- A block of another height and another hash leaves an indexed block alone. -/
theorem getBlockByHeight_storeBlock_of_ne {stored block : Block} (keyed : Keyed prim engine)
    (apart : block.header.height ≠ stored.header.height) (differs : block.hash prim ≠ stored.hash prim)
    (indexed : engine.getBlockByHeight block.header.height = some block) :
    (engine.storeBlock prim stored).getBlockByHeight block.header.height = some block := by
  have sameEntry : (engine.storeBlock prim stored).heightIndex[block.header.height]? =
      engine.heightIndex[block.header.height]? := by
    change (engine.heightIndex.insert stored.header.height (stored.hash prim))[block.header.height]? = _
    rw [OrderedMap.find_insert, if_neg apart]
  unfold getBlockByHeight at indexed ⊢
  rw [sameEntry]
  cases entry : engine.heightIndex[block.header.height]? with
  | none =>
      rw [entry] at indexed
      cases indexed
  | some hash =>
      simp only [entry] at indexed ⊢
      rw [getBlock_storeBlock, if_neg, indexed]
      rw [← keyed hash block indexed]
      exact differs

theorem keyed_run (prim : Primitives) (registry : ValidatorRegistry) (machine : StateMachine) (config : EngineConfig)
    (calls : List StoreCall) : Keyed prim (run (storeCall prim) (initial registry machine config) calls) := by
  refine invariant_run (Keyed prim) (fun _ step keyed _ => keyed.storeCall step) ?_ (along_true _ calls)
  intro hash block found
  rw [getBlock_initial] at found
  cases found

theorem isFinalized_storeCall {step : StoreCall} {hash : Blake3Hash} (before : engine.isFinalized hash = true) :
    (engine.storeCall prim step).isFinalized hash = true := by
  cases step with
  | storeBlock block => exact before
  | finality call => exact (isFinalized_finalityCall prim engine call hash).mpr (Or.inl before)

/-- A certified block is final. -/
theorem isFinalized_of_certified {start : ConsensusEngine} {calls : List StoreCall} {block : Block}
    (certified : Certified prim start calls block) :
    (run (storeCall prim) start calls).isFinalized (block.hash prim) = true := by
  refine run_of_happened (fun engine => engine.isFinalized (block.hash prim) = true) ?_ ?_ certified
  · exact fun _ _ before => isFinalized_storeCall before
  · intro engine step certifies
    cases step with
    | storeBlock other => exact certifies.elim
    | finality call =>
        refine (isFinalized_finalityCall prim engine call (block.hash prim)).mpr (Or.inr ?_)
        exact certifies.imp (fun genesis => genesis.1) fun ⟨qc, marks, _⟩ => ⟨qc, marks⟩

/-- The step of the invariant: a certified block stays indexed. -/
theorem found_of_spares {start : ConsensusEngine} {before : List StoreCall} {step : StoreCall}
    (keyed : Keyed prim (run (storeCall prim) start before)) (spares : Spares prim start before step)
    (found : forall hash block, (run (storeCall prim) start before).getBlock hash = some block ->
      Certified prim start before block ->
        (run (storeCall prim) start before).getBlockByHeight block.header.height = some block) :
    forall hash block, ((run (storeCall prim) start before).storeCall prim step).getBlock hash = some block ->
      Certified prim start (before ++ [step]) block ->
        ((run (storeCall prim) start before).storeCall prim step).getBlockByHeight block.header.height =
          some block := by
  intro hash block stands certified
  rcases storeCall_cases prim (run (storeCall prim) start before) step with ⟨stored, stores, same⟩ | ⟨silent, same⟩
  · rw [getBlock_of_sameStore same, getBlock_storeBlock] at stands
    rw [getBlockByHeight_of_sameStore same]
    split at stands
    · rw [← Option.some.inj stands]
      exact getBlockByHeight_storeBlock_self stored
    · rename_i elsewhere
      have own := keyed hash block stands
      -- another block is stored, and the step certifies none but that one
      have earlier : Certified prim start before block := by
        rcases happened_concat.mp certified with earlier | certifies
        · exact earlier
        · rcases stores_of_certifies certifies with ⟨nothing, _⟩ | ⟨genesis, given, hashed, _⟩
          · rw [stores] at nothing
            cases nothing
          · cases Option.some.inj (stores.symm.trans given)
            exact absurd (own.symm.trans hashed.symm) elsewhere
      have apart : block.header.height ≠ stored.header.height := fun level =>
        elsewhere (own.symm.trans (spares.stores stored stores hash block stands earlier level))
      exact getBlockByHeight_storeBlock_of_ne keyed apart (fun equal => elsewhere (own.symm.trans equal))
        (found hash block stands earlier)
  · rw [getBlock_of_sameStore same] at stands
    rw [getBlockByHeight_of_sameStore same]
    rcases happened_concat.mp certified with earlier | certifies
    · exact found hash block stands earlier
    · rcases stores_of_certifies certifies with ⟨_, call, qc, rfl, marks, names⟩ | ⟨genesis, given, _⟩
      · rw [← keyed hash block stands] at stands
        exact spares.marks call _ qc rfl marks block stands names.symm
      · rw [silent] at given
        cases given

/-- A block that is stored takes the height from every other block. -/
theorem stored_hides {stored other : Block} {step : StoreCall} {hash : Blake3Hash} (keyed : Keyed prim engine)
    (stores : engine.storedBlock prim step = some stored) (stands : engine.getBlock hash = some other)
    (differs : other.hash prim ≠ stored.hash prim) : (engine.storeCall prim step).getBlock hash = some other ∧
      (engine.storeCall prim step).getBlockByHeight stored.header.height = some stored := by
  rcases storeCall_cases prim engine step with ⟨block, storing, same⟩ | ⟨silent, _⟩
  · cases Option.some.inj (stores.symm.trans storing)
    constructor
    · rw [getBlock_of_sameStore same, getBlock_storeBlock, if_neg, stands]
      rw [← keyed hash other stands]
      exact differs
    · rw [getBlockByHeight_of_sameStore same]
      exact getBlockByHeight_storeBlock_self stored
  · rw [stores] at silent
    cases silent

/-- A call that marks a hash keeps the store. -/
theorem sameStore_of_marks {call : FinalityCall} {hash : Blake3Hash} {qc : QuorumCertificate}
    (marks : engine.Marks prim call hash qc) : SameStore engine (engine.storeCall prim (.finality call)) := by
  rcases storeCall_cases prim engine (.finality call) with ⟨stored, storing, _⟩ | ⟨_, same⟩
  · rw [storedBlock_of_marks marks] at storing
    cases storing
  · exact same

/-- If the certified blocks are found after a call, then the call spares them. -/
theorem spares_of_found {start : ConsensusEngine} {before : List StoreCall} {step : StoreCall}
    (keyed : Keyed prim (run (storeCall prim) start before))
    (found : forall hash block, ((run (storeCall prim) start before).storeCall prim step).getBlock hash = some block ->
      Certified prim start (before ++ [step]) block ->
        ((run (storeCall prim) start before).storeCall prim step).getBlockByHeight block.header.height = some block) :
    Spares prim start before step := by
  constructor
  · intro stored stores hash other stands certified level
    by_contra differs
    have hidden := stored_hides keyed stores stands differs
    have indexed := found hash other hidden.1 (happened_concat.mpr (Or.inl certified))
    rw [level, hidden.2] at indexed
    rw [Option.some.inj indexed] at differs
    exact differs rfl
  · rintro call hash qc rfl marks block stands names
    have same := sameStore_of_marks marks
    have own := keyed hash block stands
    have certified : Certified prim start (before ++ [.finality call]) block :=
      happened_concat.mpr (Or.inr (Or.inr ⟨qc, own ▸ marks, names.symm⟩))
    have indexed := found hash block ((getBlock_of_sameStore same hash).trans stands) certified
    exact (getBlockByHeight_of_sameStore same _).symm.trans indexed

/-- In a run of a new engine the final blocks are found by their heights if and only if
every call spares the certified blocks. -/
theorem foundByHeight_iff (prim : Primitives) (registry : ValidatorRegistry) (machine : StateMachine)
    (config : EngineConfig) (calls : List StoreCall) :
    FoundByHeight prim (initial registry machine config) calls <->
      forall before step after, calls = before ++ step :: after ->
        Spares prim (initial registry machine config) before step := by
  have keyed := fun beginning => keyed_run prim registry machine config beginning
  constructor
  · intro reachable before step after split
    apply spares_of_found (keyed before)
    intro hash block stands certified
    have final := isFinalized_of_certified certified
    have next := reachable (before ++ [step]) after (by rw [split, List.append_assoc]; rfl) hash block
    rw [run_append] at next final
    exact next stands final certified
  · intro spared
    have found := beginnings_induction (fun before => forall hash block,
        (run (storeCall prim) (initial registry machine config) before).getBlock hash = some block ->
        Certified prim (initial registry machine config) before block ->
          (run (storeCall prim) (initial registry machine config) before).getBlockByHeight block.header.height =
            some block) (fun _ _ _ certified => certified.elim) (by
        intro before step after split holds
        rw [run_append]
        exact found_of_spares (keyed before) (spared before step after split) holds)
    exact fun before after split hash block stands _ certified => found before after split hash block stands certified

/-- Both blocks of a fork are received, and the votes certify the one that came first. -/
def forkedCalls : List StoreCall :=
  [.finality (.node (.genesis (genesisAt 0))), .finality (.node (.engine (.onReceiveBlock (forkBlock 1)))),
    .finality (.node (.engine (.onReceiveBlock (forkBlock 2)))),
    .finality (.node (.engine (.onReceiveVote (signedVote 1 1 ((forkBlock 1).hash Transparent.primitives))))),
    .finality (.node (.engine (.onReceiveVote (signedVote 2 1 ((forkBlock 1).hash Transparent.primitives)))))]

/-- The certified block is stored and final, and its height leads to the other one. -/
theorem getBlockByHeight_other_block :
    let start := initial (registryWith (unitSet 3)) (StateMachine.create 1) {}
    let engine := run (storeCall Transparent.primitives) start forkedCalls
    engine.getBlock ((forkBlock 1).hash Transparent.primitives) = some (forkBlock 1) ∧
      engine.isFinalized ((forkBlock 1).hash Transparent.primitives) = true ∧
      engine.highestQc.blockHash = (forkBlock 1).hash Transparent.primitives ∧
      engine.highestQc.blockHeight = (forkBlock 1).header.height ∧
      engine.getBlockByHeight (forkBlock 1).header.height = some (forkBlock 2) ∧ forkBlock 1 ≠ forkBlock 2 ∧
      ¬FoundByHeight Transparent.primitives start forkedCalls := by
  refine ⟨by decide +kernel, by decide +kernel, by decide +kernel, by decide +kernel, by decide +kernel,
    by decide +kernel, ?_⟩
  intro reachable
  have found := reachable forkedCalls [] rfl ((forkBlock 1).hash Transparent.primitives) (forkBlock 1)
    (by decide +kernel) (by decide +kernel) (by
      refine Or.inr (Or.inr (Or.inr (Or.inr (Or.inl (Or.inr ⟨forkedEngine.highestQc, ⟨.voted _ _ ?_ ?_, ?_⟩, ?_⟩)))))
      · refine ⟨by decide +kernel, ?_⟩
        unfold VoteAggregator.Unrecorded
        decide +kernel
      · decide +kernel
      · decide +kernel
      · decide +kernel)
  exact absurd found (by decide +kernel)

end ConsensusEngine
end Consensus
end Sarafu
