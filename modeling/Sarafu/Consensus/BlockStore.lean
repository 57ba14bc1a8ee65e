import Sarafu.Consensus.EngineCalls

namespace Sarafu
namespace Consensus

open Crypto State

/-!
# The block store and its height index

Blocks are stored under their own hash, and the height index points at a stored
block of that height.  The second half needs the hash to separate the headers
that occur: storing a block under an occupied hash replaces it, and the index of
the old height keeps pointing there.  The headers of a run are therefore
collected in a set on which the hash is collision free.
-/

namespace ConsensusEngine

/-- The block that a call may store. -/
def storedBy (prim : Primitives) (engine : ConsensusEngine) : EngineCall -> Option Block
  | .proposeBlock proposal => (engine.proposeBlock prim proposal).1
  | .onReceiveBlock block => some block
  | .onReceiveVote _ => none
  | .triggerViewChange => none

/-- The headers of the blocks that a call may store belong to the collection. -/
def WithinHeaders (prim : Primitives) (headers : Set BlockHeader) (engine : ConsensusEngine) (step : EngineCall) :
    Prop :=
  forall block, engine.storedBy prim step = some block -> block.header ∈ headers

/-- Registry calls store nothing, and a genesis block may be stored. -/
def NodeWithinHeaders (prim : Primitives) (headers : Set BlockHeader) (engine : ConsensusEngine) :
    NodeCall -> Prop
  | .engine step => engine.WithinHeaders prim headers step
  | .registry _ => True
  | .genesis block => block.header ∈ headers

variable {prim : Primitives} {engine : ConsensusEngine} {headers : Set BlockHeader}

theorem getBlock_storeBlock (block : Block) (hash : Blake3Hash) :
    (engine.storeBlock prim block).getBlock hash =
      if hash = block.hash prim then some block else engine.getBlock hash := by
  unfold getBlock storeBlock
  rw [OrderedMap.find_insert]

/-- Two engines hold the same blocks at the same heights. -/
structure SameStore (before after : ConsensusEngine) : Prop where
  blocks : after.blockStore = before.blockStore
  heights : after.heightIndex = before.heightIndex

theorem getBlock_of_sameStore {before after : ConsensusEngine} (same : SameStore before after) (hash : Blake3Hash) :
    after.getBlock hash = before.getBlock hash := by
  rw [getBlock, getBlock, same.blocks]

/-- What a call does to the store: it stores its block, or nothing. -/
theorem call_store_cases (prim : Primitives) (engine : ConsensusEngine) (step : EngineCall) :
    (∃ block, engine.storedBy prim step = some block ∧
      SameStore (engine.storeBlock prim block) (engine.call prim step)) ∨
    SameStore engine (engine.call prim step) := by
  cases step with
  | proposeBlock proposal =>
      rcases proposeBlock_cases prim engine proposal with ⟨parent, _, _, outcome⟩ | outcome
      · refine Or.inl ⟨engine.assembleBlock prim proposal parent, ?_, ?_⟩
        · simp only [storedBy, outcome]
        · simp only [call, outcome]
          exact ⟨rfl, rfl⟩
      · simp only [call, outcome]
        exact Or.inr ⟨rfl, rfl⟩
  | onReceiveBlock block =>
      rcases onReceiveBlock_cases prim engine block with ⟨_, outcome⟩ | ⟨_, _, unchanged⟩
      · refine Or.inl ⟨block, rfl, ?_⟩
        simp only [call, outcome]
        exact ⟨rfl, rfl⟩
      · simp only [call, unchanged]
        exact Or.inr ⟨rfl, rfl⟩
  | onReceiveVote vote =>
      refine Or.inr ?_
      rcases onReceiveVote_cases prim engine vote with
        ⟨_, outcome⟩ | ⟨_, outcome, _, _⟩ | ⟨_, qc, _, _, outcome⟩
      · simp only [call, outcome]
        exact ⟨rfl, rfl⟩
      · simp only [call, outcome]
        exact ⟨rfl, rfl⟩
      · simp only [call, outcome]
        exact ⟨rfl, rfl⟩
  | triggerViewChange => exact Or.inr ⟨rfl, rfl⟩

/-- Every stored block stands under its own hash, its header belongs to the
collection, and the height index points at a stored block of that height. -/
structure StoreOk (prim : Primitives) (headers : Set BlockHeader) (engine : ConsensusEngine) : Prop where
  keyed : forall hash block, engine.getBlock hash = some block -> block.hash prim = hash
  known : forall hash block, engine.getBlock hash = some block -> block.header ∈ headers
  indexed : forall (height : UInt64) hash, engine.heightIndex[height]? = some hash ->
    ∃ block, engine.getBlock hash = some block ∧ block.header.height = height

theorem StoreOk.sameStore {after : ConsensusEngine} (ok : StoreOk prim headers engine)
    (same : SameStore engine after) : StoreOk prim headers after := by
  have blocks := getBlock_of_sameStore same
  refine ⟨?_, ?_, ?_⟩
  · intro hash block found
    exact ok.keyed hash block (blocks hash ▸ found)
  · intro hash block found
    exact ok.known hash block (blocks hash ▸ found)
  · intro height hash found
    rw [same.heights] at found
    rw [blocks hash]
    exact ok.indexed height hash found

theorem StoreOk.storeBlock (ok : StoreOk prim headers engine) (free : CollisionFree prim headers) {block : Block}
    (listed : block.header ∈ headers) : StoreOk prim headers (engine.storeBlock prim block) := by
  refine ⟨?_, ?_, ?_⟩
  · intro hash found stored
    rw [getBlock_storeBlock] at stored
    split at stored
    · rename_i same
      rw [← Option.some.inj stored, same]
    · exact ok.keyed hash found stored
  · intro hash found stored
    rw [getBlock_storeBlock] at stored
    split at stored
    · rw [← Option.some.inj stored]
      exact listed
    · exact ok.known hash found stored
  · intro height hash indexed
    change (engine.heightIndex.insert block.header.height (block.hash prim))[height]? = some hash at indexed
    rw [OrderedMap.find_insert] at indexed
    rw [getBlock_storeBlock]
    split at indexed
    · rename_i sameHeight
      rw [if_pos (Option.some.inj indexed).symm]
      exact ⟨block, rfl, sameHeight.symm⟩
    · rcases ok.indexed height hash indexed with ⟨other, stored, atHeight⟩
      split
      · -- the new block replaces a block with the same hash, hence with the same header
        rename_i sameHash
        have sameHeader : block.header = other.header :=
          free.injective _ listed _ (ok.known hash other stored)
            (sameHash.symm.trans (ok.keyed hash other stored).symm)
        exact ⟨block, rfl, sameHeader ▸ atHeight⟩
      · exact ⟨other, stored, atHeight⟩

theorem StoreOk.call (ok : StoreOk prim headers engine) (free : CollisionFree prim headers) {step : EngineCall}
    (within : engine.WithinHeaders prim headers step) : StoreOk prim headers (engine.call prim step) := by
  rcases call_store_cases prim engine step with ⟨block, stores, same⟩ | same
  · exact (ok.storeBlock free (within block stores)).sameStore same
  · exact ok.sameStore same

theorem StoreOk.nodeCall (ok : StoreOk prim headers engine) (free : CollisionFree prim headers) {step : NodeCall}
    (within : engine.NodeWithinHeaders prim headers step) : StoreOk prim headers (engine.nodeCall prim step) := by
  cases step with
  | engine step => exact ok.call free within
  | registry step => exact ok.sameStore ⟨rfl, rfl⟩
  | genesis block =>
      rcases nodeCall_genesis_cases prim engine block with ⟨_, outcome⟩ | outcome
      · rw [outcome]
        exact (ok.storeBlock free within).sameStore ⟨rfl, rfl⟩
      · rw [outcome]
        exact ok

/-- A fresh engine stores nothing. -/
theorem getBlock_initial (registry : ValidatorRegistry) (machine : StateMachine) (config : EngineConfig)
    (hash : Blake3Hash) : (initial registry machine config).getBlock hash = none := by
  simp only [getBlock, initial, Std.ExtTreeMap.getElem?_empty]

/-- After genesis it stores the genesis block only. -/
theorem getBlock_started (registry : ValidatorRegistry) (machine : StateMachine) (config : EngineConfig)
    (genesis : Block) (hash : Blake3Hash) :
    (started prim registry machine config genesis).getBlock hash =
      if hash = genesis.hash prim then some genesis else none := by
  rw [← getBlock_initial registry machine config hash]
  exact getBlock_storeBlock genesis hash

theorem storeOk_initial (registry : ValidatorRegistry) (machine : StateMachine) (config : EngineConfig) :
    StoreOk prim headers (initial registry machine config) := by
  refine ⟨?_, ?_, ?_⟩
  · intro hash block found
    rw [getBlock_initial] at found
    cases found
  · intro hash block found
    rw [getBlock_initial] at found
    cases found
  · intro height hash found
    simp only [initial, Std.ExtTreeMap.getElem?_empty] at found
    cases found

/-- No block is stored under the zero hash. -/
theorem StoreOk.getBlock_zero (ok : StoreOk prim headers engine) (free : CollisionFree prim headers) :
    engine.getBlock Blake3Hash.zero = none := by
  cases found : engine.getBlock Blake3Hash.zero with
  | none => rfl
  | some block =>
      exact absurd (ok.keyed _ block found) (free.nonzero block.header (ok.known _ block found))

/-- The block that the height index gives for a height stands under its hash
and has that height. -/
theorem StoreOk.getBlockByHeight (ok : StoreOk prim headers engine) {height : UInt64} {block : Block}
    (found : engine.getBlockByHeight height = some block) :
    engine.getBlock (block.hash prim) = some block ∧ block.header.height = height := by
  unfold ConsensusEngine.getBlockByHeight at found
  cases indexed : engine.heightIndex[height]? with
  | none =>
      rw [indexed] at found
      cases found
  | some hash =>
      rw [indexed] at found
      rcases ok.indexed height hash indexed with ⟨other, stored, atHeight⟩
      cases Option.some.inj (found.symm.trans stored)
      rw [ok.keyed hash block found]
      exact ⟨found, atHeight⟩

end ConsensusEngine
end Consensus
end Sarafu
