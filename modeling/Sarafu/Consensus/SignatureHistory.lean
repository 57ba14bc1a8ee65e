import Sarafu.Consensus.VoteConflicts
import Sarafu.Library.CappedLogs

namespace Sarafu
namespace Consensus

open Crypto State Library.Runs Library.CappedLogs SlashingDetector

/-!
# The memory of the slashing detector

The detector keeps the last signatures and the last votes of each validator, up to a number, and
prunes those below a height.  Two conflicting records are found exactly if both are still there.
-/

/-- `std::map<ValidatorID, std::vector<Record>>`. -/
abbrev RecordHistory (Record : Type) := OrderedMap ValidatorID (List Record)

namespace RecordHistory

variable {Record : Type}

def of (history : RecordHistory Record) (validatorId : ValidatorID) : List Record := (history[validatorId]?).getD []

/-- Append a record, and erase from the front what exceeds the maximum. -/
def record (maxHistory : Nat) (history : RecordHistory Record) (validatorId : ValidatorID) (entry : Record) :
    RecordHistory Record :=
  let longer := of history validatorId ++ [entry]
  history.insert validatorId (if maxHistory < longer.length then longer.drop (longer.length - maxHistory) else longer)

/-- The test of `std::remove_if`; nothing is below the cutoff while the chain is shorter than the
retention period. -/
def outdated (currentHeight retentionPeriod height : UInt64) : Bool :=
  if currentHeight < retentionPeriod then false else decide (height < currentHeight - retentionPeriod)

def pruneOld (heightOf : Record -> UInt64) (currentHeight retentionPeriod : UInt64) (history : RecordHistory Record) :
    RecordHistory Record :=
  if currentHeight < retentionPeriod then history
  else
    Std.ExtTreeMap.map (fun _ entries => entries.filter fun entry =>
      !decide (heightOf entry < currentHeight - retentionPeriod)) history

variable (history : RecordHistory Record) (validatorId other : ValidatorID)

theorem of_record (maxHistory : Nat) (entry : Record) :
    of (record maxHistory history validatorId entry) other =
      if validatorId = other then logged maxHistory (of history other) (.record entry) else of history other := by
  unfold of record
  rw [OrderedMap.find_insert]
  by_cases same : validatorId = other
  · subst same
    rw [if_pos rfl, if_pos rfl, Option.getD_some]
    change _ = List.drop ((of history validatorId ++ [entry]).length - maxHistory) (of history validatorId ++ [entry])
    split
    · rfl
    · rename_i small
      rw [Nat.sub_eq_zero_of_le (Nat.le_of_not_lt small), List.drop_zero]
  · rw [if_neg fun equal => same equal.symm, if_neg same]

theorem of_pruneOld (maxHistory : Nat) (heightOf : Record -> UInt64) (currentHeight retentionPeriod : UInt64) :
    of (pruneOld heightOf currentHeight retentionPeriod history) other =
      logged maxHistory (of history other)
        (.sweep fun entry => outdated currentHeight retentionPeriod (heightOf entry)) := by
  unfold of pruneOld outdated logged
  split
  · simp
  · rw [Std.ExtTreeMap.getElem?_map]
    cases history[other]? with
    | none => rfl
    | some entries => rfl

end RecordHistory

/-- `SlashingDetector`, without its configuration. -/
structure DetectorState where
  signatureHistory : RecordHistory SignatureRecord
  voteHistory : RecordHistory Vote

inductive DetectorCall
  | recordSignature (record : SignatureRecord)
  | recordVote (vote : Vote)
  | pruneOldSignatures (currentHeight retentionPeriod : UInt64)
  | pruneOldVotes (currentHeight retentionPeriod : UInt64)

namespace DetectorState

def create : DetectorState := ⟨∅, ∅⟩

variable (maxSignatureHistory : Nat) (detector : DetectorState)

def recordSignature (entry : SignatureRecord) : DetectorState :=
  { detector with
    signatureHistory := RecordHistory.record maxSignatureHistory detector.signatureHistory entry.validatorId entry }

/-- The votes are limited by the same maximum. -/
def recordVote (vote : Vote) : DetectorState :=
  { detector with voteHistory := RecordHistory.record maxSignatureHistory detector.voteHistory vote.validatorId vote }

def getSignatureHistory (validatorId : ValidatorID) : List SignatureRecord :=
  RecordHistory.of detector.signatureHistory validatorId

def getVoteHistory (validatorId : ValidatorID) : List Vote := RecordHistory.of detector.voteHistory validatorId

def pruneOldSignatures (currentHeight retentionPeriod : UInt64) : DetectorState :=
  { detector with signatureHistory :=
      RecordHistory.pruneOld SignatureRecord.blockHeight currentHeight retentionPeriod detector.signatureHistory }

def pruneOldVotes (currentHeight retentionPeriod : UInt64) : DetectorState :=
  { detector with
    voteHistory := RecordHistory.pruneOld Vote.blockHeight currentHeight retentionPeriod detector.voteHistory }

def call : DetectorCall -> DetectorState
  | .recordSignature record => detector.recordSignature maxSignatureHistory record
  | .recordVote vote => detector.recordVote maxSignatureHistory vote
  | .pruneOldSignatures currentHeight retentionPeriod => detector.pruneOldSignatures currentHeight retentionPeriod
  | .pruneOldVotes currentHeight retentionPeriod => detector.pruneOldVotes currentHeight retentionPeriod

end DetectorState

/-! ## The log of one validator -/

/-- What a call does to the signatures of a validator. -/
def signatureLog (validatorId : ValidatorID) : DetectorCall -> Option (LogCall SignatureRecord)
  | .recordSignature record => if record.validatorId = validatorId then some (.record record) else none
  | .pruneOldSignatures currentHeight retentionPeriod =>
      some (.sweep fun record => RecordHistory.outdated currentHeight retentionPeriod record.blockHeight)
  | .recordVote _ => none
  | .pruneOldVotes _ _ => none

def voteLog (validatorId : ValidatorID) : DetectorCall -> Option (LogCall Vote)
  | .recordVote vote => if vote.validatorId = validatorId then some (.record vote) else none
  | .pruneOldVotes currentHeight retentionPeriod =>
      some (.sweep fun vote => RecordHistory.outdated currentHeight retentionPeriod vote.blockHeight)
  | .recordSignature _ => none
  | .pruneOldSignatures _ _ => none

namespace DetectorState

variable (maxSignatureHistory : Nat)

theorem getSignatureHistory_call (detector : DetectorState) (step : DetectorCall) (id : ValidatorID) :
    (detector.call maxSignatureHistory step).getSignatureHistory id = (signatureLog id step).elim
      (detector.getSignatureHistory id) (logged maxSignatureHistory (detector.getSignatureHistory id)) := by
  cases step with
  | recordSignature record =>
      refine (RecordHistory.of_record _ _ _ _ _).trans ?_
      rw [signatureLog]
      by_cases own : record.validatorId = id
      · rw [if_pos own, if_pos own]
        rfl
      · rw [if_neg own, if_neg own]
        rfl
  | pruneOldSignatures currentHeight retentionPeriod => exact RecordHistory.of_pruneOld _ _ maxSignatureHistory _ _ _
  | recordVote vote => rfl
  | pruneOldVotes currentHeight retentionPeriod => rfl

theorem getVoteHistory_call (detector : DetectorState) (step : DetectorCall) (id : ValidatorID) :
    (detector.call maxSignatureHistory step).getVoteHistory id = (voteLog id step).elim
      (detector.getVoteHistory id) (logged maxSignatureHistory (detector.getVoteHistory id)) := by
  cases step with
  | recordVote vote =>
      refine (RecordHistory.of_record _ _ _ _ _).trans ?_
      rw [voteLog]
      by_cases own : vote.validatorId = id
      · rw [if_pos own, if_pos own]
        rfl
      · rw [if_neg own, if_neg own]
        rfl
  | pruneOldVotes currentHeight retentionPeriod => exact RecordHistory.of_pruneOld _ _ maxSignatureHistory _ _ _
  | recordSignature record => rfl
  | pruneOldSignatures currentHeight retentionPeriod => rfl

theorem getSignatureHistory_run (calls : List DetectorCall) (id : ValidatorID) :
    (run (call maxSignatureHistory) create calls).getSignatureHistory id =
      run (logged maxSignatureHistory) [] (calls.filterMap (signatureLog id)) :=
  read_run_logged (fun detector => detector.getSignatureHistory id) (signatureLog id)
    (fun detector step => getSignatureHistory_call maxSignatureHistory detector step id) create calls

theorem getVoteHistory_run (calls : List DetectorCall) (id : ValidatorID) :
    (run (call maxSignatureHistory) create calls).getVoteHistory id =
      run (logged maxSignatureHistory) [] (calls.filterMap (voteLog id)) :=
  read_run_logged (fun detector => detector.getVoteHistory id) (voteLog id)
    (fun detector step => getVoteHistory_call maxSignatureHistory detector step id) create calls

end DetectorState

/-! ## What is found -/

section Reports

variable {Record : Type} (detect : Record -> Record -> Option SlashingEvent)

/-- Two records of a history are reported against each other. -/
def Reported (history : List Record) : Prop :=
  ∃ first, first ∈ history ∧ ∃ second, second ∈ history ∧ (detect first second).isSome = true

/-- Two records that the detector would report against each other were recorded and not pruned
since, and at most so many records of the validator came after either of them. -/
def Conflicting (logs : DetectorCall -> Option (LogCall Record)) (recent : Nat -> Prop) (calls : List DetectorCall) :
    Prop :=
  ∃ first second, (detect first second).isSome = true ∧
    (∃ before after, RecordedBy logs first calls before after ∧ recent (recordsIn logs after)) ∧
    ∃ before after, RecordedBy logs second calls before after ∧ recent (recordsIn logs after)

variable {detect} {logs : DetectorCall -> Option (LogCall Record)} {maxHistory : Nat} {calls : List DetectorCall}

/-- What is reported is recent enough, and everything recent enough is reported. -/
theorem reported_of_conflicting (conflicting : Conflicting detect logs (fun later => later < maxHistory) calls) :
    Reported detect (run (logged maxHistory) [] (calls.filterMap logs)) := by
  rcases conflicting with ⟨first, second, reports, ⟨_, _, recorded, recent⟩, ⟨_, _, also, alsoRecent⟩⟩
  exact ⟨first, mem_of_recordedBy recorded recent, second, mem_of_recordedBy also alsoRecent, reports⟩

theorem conflicting_of_reported (reported : Reported detect (run (logged maxHistory) [] (calls.filterMap logs))) :
    Conflicting detect logs (fun _ => True) calls := by
  rcases reported with ⟨first, member, second, alsoMember, reports⟩
  rcases exists_recordedBy_of_mem member with ⟨before, after, recorded⟩
  rcases exists_recordedBy_of_mem alsoMember with ⟨alsoBefore, alsoAfter, also⟩
  exact ⟨first, second, reports, ⟨before, after, recorded, trivial⟩, ⟨alsoBefore, alsoAfter, also, trivial⟩⟩

end Reports

/-- The memory of a validator never grows beyond the maximum.  Two of its signatures that conflict are
still in the history, so that `detect_double_sign` reports them, if both were recorded among the last so
many and not pruned since, and only if both were recorded and not pruned since; and so are the surround
votes among its votes. -/
theorem detector_remembers (maxSignatureHistory : Nat) (calls : List DetectorCall) (id : ValidatorID) :
    let detector := run (DetectorState.call maxSignatureHistory) .create calls
    ((detector.getSignatureHistory id).length ≤ maxSignatureHistory ∧
      (detector.getVoteHistory id).length ≤ maxSignatureHistory) ∧
    (Conflicting detectDoubleSign (signatureLog id) (fun later => later < maxSignatureHistory) calls ->
      Reported detectDoubleSign (detector.getSignatureHistory id)) ∧
    (Reported detectDoubleSign (detector.getSignatureHistory id) ->
      Conflicting detectDoubleSign (signatureLog id) (fun _ => True) calls) ∧
    (Conflicting detectSurroundVote (voteLog id) (fun later => later < maxSignatureHistory) calls ->
      Reported detectSurroundVote (detector.getVoteHistory id)) ∧
    (Reported detectSurroundVote (detector.getVoteHistory id) ->
      Conflicting detectSurroundVote (voteLog id) (fun _ => True) calls) := by
  intro detector
  have signatures : detector.getSignatureHistory id = _ := DetectorState.getSignatureHistory_run _ calls id
  have votes : detector.getVoteHistory id = _ := DetectorState.getVoteHistory_run _ calls id
  rw [signatures, votes]
  exact ⟨⟨length_run_le (Nat.zero_le _) _, length_run_le (Nat.zero_le _) _⟩, reported_of_conflicting,
    conflicting_of_reported, reported_of_conflicting, conflicting_of_reported⟩

end Consensus
end Sarafu
