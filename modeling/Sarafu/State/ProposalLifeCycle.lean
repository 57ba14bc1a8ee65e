import Sarafu.State.GovernanceHistory

namespace Sarafu
namespace State
namespace GovernanceModule

open Crypto Library.Runs GovernanceEvent

/-!
# What the module records of its history

The invariant relates the module to the log.  An event is about one proposal, so the
records of all others stay correct when it is logged; for the proposal itself each kind
of event has one lemma.  The facts about the log alone are kept along with the invariant.
-/

/-- What a proposal records of the log. -/
structure ProposalOk (period : UInt64) (events : List GovernanceEvent) (id : UInt64) (proposal : Proposal) : Prop where
  submitted : .submitted id proposal.parameter proposal.createdAtHeight ∈ events
  ends : proposal.votingEndsAtHeight.toNat = proposal.createdAtHeight.toNat + 7 * period.toNat
  voters : forall voter, (proposal.votes[voter]?).isSome = true <-> voter ∈ votersOn id events
  votesFor : proposal.votesFor.toNat = stakesOn id true events
  votesAgainst : proposal.votesAgainst.toNat = stakesOn id false events
  approved : proposal.status = .approved -> ∃ height, .finalized id .approved height ∈ events ∧
    proposal.votingEndsAtHeight ≤ height ∧
      proposal.timelockEndsAtHeight.toNat = height.toNat + (timelockDays proposal.parameter).toNat * period.toNat
  executions : executionsOf id events = if proposal.status = .executed then 1 else 0

/-- An execution with the submission and the approval before it. -/
def Delayed (period : UInt64) (before : List GovernanceEvent) (id height : UInt64) : Prop :=
  ∃ parameter created approved, .submitted id parameter created ∈ before ∧ .finalized id .approved approved ∈ before ∧
    created.toNat + 7 * period.toNat ≤ approved.toNat ∧
      approved.toNat + (timelockDays parameter).toNat * period.toNat ≤ height.toNat

/-- A vote cast before the end of the voting period. -/
def InTime (period : UInt64) (events : List GovernanceEvent) (id height : UInt64) : Prop :=
  ∃ parameter created, .submitted id parameter created ∈ events ∧ height.toNat < created.toNat + 7 * period.toNat

/-- What holds of the log alone. -/
structure Lawful (period : UInt64) (events : List GovernanceEvent) : Prop where
  unique : (submittedIds events).Nodup
  voters : forall id, (votersOn id events).Nodup
  inTime : forall id voter inFavor stake height, .voted id voter inFavor stake height ∈ events ->
    InTime period events id height
  once : forall id, executionsOf id events ≤ 1
  delayed : forall before after id height, events = before ++ .executed id height :: after ->
    Delayed period before id height

/-- The module is an account of the log. -/
structure Recorded (period : UInt64) (governance : GovernanceModule) (events : List GovernanceEvent) : Prop where
  perDay : governance.blocksPerDay = period
  next : governance.nextProposalId.toNat = (governance.proposals.size + 1) % 2 ^ 64
  numbered : forall (id : UInt64) (proposal : Proposal), governance.proposals[id]? = some proposal ->
    0 < id.toNat ∧ id.toNat ≤ governance.proposals.size
  proposals : forall (id : UInt64) (proposal : Proposal), governance.proposals[id]? = some proposal ->
    ProposalOk period events id proposal
  silent : forall id : UInt64, governance.proposals[id]? = none ->
    forall event, event ∈ events -> event.proposal ≠ id
  lawful : Lawful period events

variable {round : Rat -> Rat} {period id : UInt64} {governance : GovernanceModule} {events : List GovernanceEvent}
  {event : GovernanceEvent} {proposal changed : Proposal}

/-! ## One more event -/

theorem votersOn_concat (id : UInt64) (events : List GovernanceEvent) (event : GovernanceEvent) :
    votersOn id (events ++ [event]) = votersOn id events ++ (voterOn id event).toList := by
  unfold votersOn
  rw [List.filterMap_append]
  cases voted : voterOn id event with
  | none => rw [List.filterMap_cons_none voted, Option.toList_none, List.filterMap_nil]
  | some voter => rw [List.filterMap_cons_some voted, Option.toList_some, List.filterMap_nil]

theorem stakesOn_concat (id : UInt64) (side : Bool) (events : List GovernanceEvent) (event : GovernanceEvent) :
    stakesOn id side (events ++ [event]) = stakesOn id side events + stakeOn id side event := by
  unfold stakesOn
  rw [List.map_append, List.sum_append, List.map_singleton, List.sum_singleton]

theorem executionsOf_concat (id : UInt64) (events : List GovernanceEvent) (event : GovernanceEvent) :
    executionsOf id (events ++ [event]) = executionsOf id events + if executes id event then 1 else 0 := by
  unfold executionsOf
  rw [List.countP_append, List.countP_singleton]

theorem submittedIds_concat (events : List GovernanceEvent) (event : GovernanceEvent) :
    submittedIds (events ++ [event]) = submittedIds events ++ event.submission.toList := by
  unfold submittedIds
  rw [List.filterMap_append]
  cases given : event.submission with
  | none => rw [List.filterMap_cons_none given, Option.toList_none, List.filterMap_nil]
  | some id => rw [List.filterMap_cons_some given, Option.toList_some, List.filterMap_nil]

/-- An event is no vote on and no execution of another proposal. -/
theorem elsewhere (other : event.proposal ≠ id) :
    voterOn id event = none ∧ (forall side, stakeOn id side event = 0) ∧ executes id event = false := by
  cases event with
  | submitted proposal parameter height => exact ⟨rfl, fun _ => rfl, rfl⟩
  | voted proposal voter inFavor stake height =>
      exact ⟨if_neg other, fun _ => if_neg fun both => other both.1, rfl⟩
  | finalized proposal status height => exact ⟨rfl, fun _ => rfl, rfl⟩
  | executed proposal height => exact ⟨rfl, fun _ => rfl, decide_eq_false other⟩

/-- The record of a proposal stays correct as long as the event is no vote on it and no
execution of it. -/
theorem ProposalOk.concat (ok : ProposalOk period events id proposal) (novote : voterOn id event = none)
    (nostake : forall side, stakeOn id side event = 0) (noexecution : executes id event = false) :
    ProposalOk period (events ++ [event]) id proposal where
  submitted := List.mem_append_left _ ok.submitted
  ends := ok.ends
  voters := by
    intro voter
    rw [votersOn_concat, novote, Option.toList_none, List.append_nil]
    exact ok.voters voter
  votesFor := by
    rw [stakesOn_concat, nostake, Nat.add_zero]
    exact ok.votesFor
  votesAgainst := by
    rw [stakesOn_concat, nostake, Nat.add_zero]
    exact ok.votesAgainst
  approved := by
    intro approved
    rcases ok.approved approved with ⟨height, logged, ended, lock⟩
    exact ⟨height, List.mem_append_left _ logged, ended, lock⟩
  executions := by
    rw [executionsOf_concat, noexecution]
    exact ok.executions

/-- Only the status and the timelock have changed. -/
theorem ProposalOk.withStatus (ok : ProposalOk period events id proposal) (status : ProposalStatus)
    (timelock : UInt64)
    (approved : status = .approved -> ∃ height, .finalized id .approved height ∈ events ∧
      proposal.votingEndsAtHeight ≤ height ∧
        timelock.toNat = height.toNat + (timelockDays proposal.parameter).toNat * period.toNat)
    (executions : executionsOf id events = if status = .executed then 1 else 0) :
    ProposalOk period events id { proposal with status := status, timelockEndsAtHeight := timelock } where
  submitted := ok.submitted
  ends := ok.ends
  voters := ok.voters
  votesFor := ok.votesFor
  votesAgainst := ok.votesAgainst
  approved := approved
  executions := executions

/-- The delays of earlier executions are still there, and the last event brings its own. -/
theorem Lawful.delayed_concat (lawful : Lawful period events)
    (last : forall id height, event = .executed id height -> Delayed period events id height) :
    forall before after id height, events ++ [event] = before ++ .executed id height :: after ->
      Delayed period before id height := by
  intro before after id height split
  rcases List.eq_nil_or_concat after with empty | ⟨middle, other, more⟩
  · rw [empty] at split
    rcases List.append_inj' split rfl with ⟨same, ends⟩
    rw [← same]
    exact last id height (List.singleton_inj.mp ends)
  · rw [more, List.concat_eq_append, ← List.cons_append, ← List.append_assoc] at split
    exact lawful.delayed before middle id height (List.append_inj_left' split rfl)

theorem InTime.concat {height : UInt64} (inTime : InTime period events id height) :
    InTime period (events ++ [event]) id height := by
  rcases inTime with ⟨parameter, created, logged, early⟩
  exact ⟨parameter, created, List.mem_append_left _ logged, early⟩

/-- A lawful log stays lawful with an event that is lawful after it. -/
theorem Lawful.concat (lawful : Lawful period events)
    (fresh : forall id, event.submission = some id -> id ∉ submittedIds events)
    (first : forall id voter, voterOn id event = some voter -> voter ∉ votersOn id events)
    (early : forall id voter inFavor stake height, event = .voted id voter inFavor stake height ->
      InTime period events id height)
    (unexecuted : forall id, executes id event = true -> executionsOf id events = 0)
    (last : forall id height, event = .executed id height -> Delayed period events id height) :
    Lawful period (events ++ [event]) where
  unique := by
    rw [submittedIds_concat]
    cases submitted : event.submission with
    | none => rw [Option.toList_none, List.append_nil]; exact lawful.unique
    | some id =>
        rw [Option.toList_some, ← List.concat_eq_append, List.nodup_concat]
        exact ⟨fresh id submitted, lawful.unique⟩
  voters := by
    intro id
    rw [votersOn_concat]
    cases voted : voterOn id event with
    | none => rw [Option.toList_none, List.append_nil]; exact lawful.voters id
    | some voter =>
        rw [Option.toList_some, ← List.concat_eq_append, List.nodup_concat]
        exact ⟨first id voter voted, lawful.voters id⟩
  inTime := by
    intro id voter inFavor stake height logged
    rcases List.mem_append.mp logged with before | now
    · exact (lawful.inTime id voter inFavor stake height before).concat
    · exact (early id voter inFavor stake height (List.mem_singleton.mp now).symm).concat
  once := by
    intro id
    rw [executionsOf_concat]
    split
    · rename_i executed
      rw [unexecuted id executed]
    · exact lawful.once id
  delayed := lawful.delayed_concat last

/-! ## One more call -/

/-- A written proposal is recorded if its own record is correct and the log stays lawful. -/
theorem Recorded.store (recorded : Recorded period governance events) (about : event.proposal = id)
    (found : governance.proposals[id]? = some proposal) (ok : ProposalOk period (events ++ [event]) id changed)
    (lawful : Lawful period (events ++ [event])) :
    Recorded period (governance.store id changed) (events ++ [event]) := by
  have size : (governance.store id changed).proposals.size = governance.proposals.size := by
    have member : governance.proposals.contains id = true := by
      rw [Std.ExtTreeMap.contains_eq_isSome_getElem?, found]
      rfl
    exact Std.ExtTreeMap.size_insert.trans (if_pos member)
  constructor
  case perDay => exact recorded.perDay
  case next =>
    rw [size]
    exact recorded.next
  case numbered =>
    intro other stored written
    rw [size]
    rw [getElem?_store] at written
    split at written
    · rename_i same
      rw [same]
      exact recorded.numbered _ _ found
    · exact recorded.numbered other stored written
  case proposals =>
    intro other stored written
    rw [getElem?_store] at written
    split at written
    · rename_i same
      rw [← Option.some.inj written, same]
      exact ok
    · rename_i differs
      rcases elsewhere (about.symm ▸ Ne.symm differs : event.proposal ≠ other) with ⟨novote, nostake, noexecution⟩
      exact (recorded.proposals other stored written).concat novote nostake noexecution
  case silent =>
    intro other missing logged listed
    rw [getElem?_store] at missing
    split at missing
    · cases missing
    · rename_i differs
      rcases List.mem_append.mp listed with before | now
      · exact recorded.silent other missing logged before
      · rw [List.mem_singleton.mp now, about]
        exact Ne.symm differs
  case lawful => exact lawful

theorem votersOn_eq_nil (silent : forall event, event ∈ events -> event.proposal ≠ id) : votersOn id events = [] :=
  List.filterMap_eq_nil_iff.mpr fun event listed => (elsewhere (silent event listed)).1

theorem not_mem_submittedIds (silent : forall event, event ∈ events -> event.proposal ≠ id) :
    id ∉ submittedIds events := by
  intro already
  rcases List.mem_filterMap.mp already with ⟨event, listed, submitted⟩
  apply silent event listed
  cases event with
  | submitted proposal parameter height => exact Option.some.inj submitted
  | voted proposal voter inFavor stake height => cases submitted
  | finalized proposal status height => cases submitted
  | executed proposal height => cases submitted

theorem stakesOn_eq_zero (silent : forall event, event ∈ events -> event.proposal ≠ id) (side : Bool) :
    stakesOn id side events = 0 := by
  apply List.sum_eq_zero
  intro stake listed
  rcases List.mem_map.mp listed with ⟨event, member, rfl⟩
  exact (elsewhere (silent event member)).2.1 side

theorem executionsOf_eq_zero (silent : forall event, event ∈ events -> event.proposal ≠ id) :
    executionsOf id events = 0 := by
  apply List.countP_eq_zero.mpr
  intro event listed
  rw [(elsewhere (silent event listed)).2.2]
  exact Bool.false_ne_true

/-- The next id is not given out as long as the size of the map does not overflow. -/
theorem Recorded.fresh (recorded : Recorded period governance events) (room : governance.proposals.size + 1 < 2 ^ 64) :
    governance.nextProposalId.toNat = governance.proposals.size + 1 ∧
      governance.proposals[governance.nextProposalId]? = none := by
  have next : governance.nextProposalId.toNat = governance.proposals.size + 1 :=
    recorded.next.trans (Nat.mod_eq_of_lt room)
  refine ⟨next, ?_⟩
  cases found : governance.proposals[governance.nextProposalId]? with
  | none => rfl
  | some proposal =>
      have bound := (recorded.numbered _ _ found).2
      rw [next] at bound
      exact absurd bound (Nat.not_succ_le_self _)

theorem toNat_votingPeriod_add {height perDay : UInt64} (room : height.toNat + 7 * perDay.toNat < 2 ^ 64) :
    (height + 7 * perDay).toNat = height.toNat + 7 * perDay.toNat := by
  rw [UInt64.toNat_add, UInt64.toNat_mul]
  change (height.toNat + 7 * perDay.toNat % 2 ^ 64) % 2 ^ 64 = _
  omega

theorem toNat_timelock_add {height days perDay : UInt64} (room : height.toNat + days.toNat * perDay.toNat < 2 ^ 64) :
    (height + days * perDay).toNat = height.toNat + days.toNat * perDay.toNat := by
  rw [UInt64.toNat_add, UInt64.toNat_mul, Nat.mod_eq_of_lt (a := days.toNat * perDay.toNat) (by omega),
    Nat.mod_eq_of_lt room]

theorem ProposalOk.submit (recorded : Recorded period governance events) (submission : Submission)
    (room : submission.currentHeight.toNat + 7 * governance.blocksPerDay.toNat < 2 ^ 64)
    (silent : forall event, event ∈ events -> event.proposal ≠ governance.nextProposalId) :
    ProposalOk period
      (events ++ [.submitted governance.nextProposalId submission.parameter submission.currentHeight])
      governance.nextProposalId (governance.proposalOf submission) where
  submitted := List.mem_append_right _ (List.mem_singleton.mpr rfl)
  ends := by
    rw [← recorded.perDay]
    exact toNat_votingPeriod_add room
  voters := by
    intro voter
    rw [votersOn_concat, votersOn_eq_nil silent]
    exact iff_of_false Bool.false_ne_true List.not_mem_nil
  votesFor := by
    rw [stakesOn_concat, stakesOn_eq_zero silent]
    rfl
  votesAgainst := by
    rw [stakesOn_concat, stakesOn_eq_zero silent]
    rfl
  approved := nofun
  executions := by
    rw [executionsOf_concat, executionsOf_eq_zero silent]
    rfl

/-- The proposals after a submission. -/
theorem getElem?_submitted (governance : GovernanceModule) (submission : Submission) (other : UInt64) :
    (governance.proposals.insert governance.nextProposalId (governance.proposalOf submission))[other]? =
      if other = governance.nextProposalId then some (governance.proposalOf submission)
      else governance.proposals[other]? :=
  OrderedMap.find_insert governance.proposals governance.nextProposalId other (governance.proposalOf submission)

theorem size_submitted (governance : GovernanceModule) (submission : Submission)
    (missing : governance.proposals[governance.nextProposalId]? = none) :
    (governance.proposals.insert governance.nextProposalId (governance.proposalOf submission)).size =
      governance.proposals.size + 1 := by
  have absent : ¬governance.proposals.contains governance.nextProposalId = true := by
    rw [Std.ExtTreeMap.contains_eq_isSome_getElem?, missing]
    exact Bool.false_ne_true
  exact Std.ExtTreeMap.size_insert.trans (if_neg absent)

theorem Recorded.submit (recorded : Recorded period governance events) (submission : Submission)
    (fits : governance.Fits (.submitProposal submission)) :
    Recorded period
      { governance with
        proposals := governance.proposals.insert governance.nextProposalId (governance.proposalOf submission)
        nextProposalId := governance.nextProposalId + 1 }
      (events ++ [.submitted governance.nextProposalId submission.parameter submission.currentHeight]) := by
  rcases recorded.fresh fits.2 with ⟨next, missing⟩
  have silent := recorded.silent _ missing
  have lookup := getElem?_submitted governance submission
  have size := size_submitted governance submission missing
  constructor
  case perDay => exact recorded.perDay
  case next =>
    change (governance.nextProposalId + 1).toNat = _
    rw [size, UInt64.toNat_add, next]
    rfl
  case numbered =>
    intro id stored written
    rw [size]
    rw [lookup] at written
    split at written
    · rename_i same
      rw [same, next]
      exact ⟨Nat.succ_pos _, Nat.le_refl _⟩
    · rcases recorded.numbered id stored written with ⟨positive, bound⟩
      exact ⟨positive, Nat.le_succ_of_le bound⟩
  case proposals =>
    intro id stored written
    rw [lookup] at written
    split at written
    · rename_i same
      rw [← Option.some.inj written, same]
      exact ProposalOk.submit recorded submission fits.1 silent
    · exact (recorded.proposals id stored written).concat rfl (fun _ => rfl) rfl
  case silent =>
    intro id absent other listed
    rw [lookup] at absent
    split at absent
    · cases absent
    · rename_i differs
      rcases List.mem_append.mp listed with before | now
      · exact recorded.silent id absent other before
      · rw [List.mem_singleton.mp now]
        exact Ne.symm differs
  case lawful =>
    refine recorded.lawful.concat ?_ nofun nofun nofun nofun
    intro id given
    rw [← Option.some.inj given]
    exact not_mem_submittedIds silent

theorem stakeOn_self (id voter : UInt64) (inFavor side : Bool) (stake height : UInt64) :
    stakeOn id side (.voted id voter inFavor stake height) = if inFavor = side then stake.toNat else 0 := by
  simp only [stakeOn, true_and]

/-- A tally with a counted vote. -/
theorem tally_add {tally stake : UInt64} {sum : Nat} (counted : tally.toNat = sum)
    (room : tally.toNat + stake.toNat < 2 ^ 64) : (tally + stake).toNat = sum + stake.toNat := by
  rw [UInt64.toNat_add, Nat.mod_eq_of_lt room, counted]

theorem ProposalOk.vote (ok : ProposalOk period events id proposal) (active : proposal.status = .active)
    (voter : UInt64) (inFavor : Bool) (stake height : UInt64)
    (room : (if inFavor then proposal.votesFor else proposal.votesAgainst).toNat + stake.toNat < 2 ^ 64) :
    ProposalOk period (events ++ [.voted id voter inFavor stake height]) id
      (Proposal.withVote proposal voter inFavor stake) where
  submitted := List.mem_append_left _ ok.submitted
  ends := ok.ends
  voters := by
    intro other
    have cast : voterOn id (.voted id voter inFavor stake height) = some voter := if_pos rfl
    have lookup : ((Proposal.withVote proposal voter inFavor stake).votes[other]?).isSome =
        (if other = voter then some inFavor else proposal.votes[other]?).isSome :=
      congrArg Option.isSome (OrderedMap.find_insert proposal.votes voter other inFavor)
    rw [lookup, votersOn_concat, cast, Option.toList_some, List.mem_append, List.mem_singleton]
    split
    · rename_i same
      exact iff_of_true rfl (Or.inr same)
    · rename_i differs
      exact (ok.voters other).trans (or_iff_left differs).symm
  votesFor := by
    rw [stakesOn_concat, stakeOn_self]
    cases inFavor with
    | true => exact tally_add ok.votesFor room
    | false => exact ok.votesFor
  votesAgainst := by
    rw [stakesOn_concat, stakeOn_self]
    cases inFavor with
    | true => exact ok.votesAgainst
    | false => exact tally_add ok.votesAgainst room
  approved := by
    intro approved
    exact nomatch active.symm.trans approved
  executions := by
    rw [executionsOf_concat]
    exact ok.executions

theorem Recorded.vote (recorded : Recorded period governance events) {voter stake height : UInt64} {inFavor : Bool}
    (found : governance.proposals[id]? = some proposal) (active : proposal.status = .active)
    (running : height < proposal.votingEndsAtHeight) (first : proposal.votes[voter]? = none)
    (fits : governance.Fits (.vote id voter inFavor stake height)) :
    Recorded period (governance.store id (Proposal.withVote proposal voter inFavor stake))
      (events ++ [.voted id voter inFavor stake height]) := by
  have ok := recorded.proposals id proposal found
  refine recorded.store rfl found (ok.vote active voter inFavor stake height (fits proposal found)) ?_
  refine recorded.lawful.concat nofun ?_ ?_ nofun nofun
  · intro other cast counts
    rw [voterOn] at counts
    split at counts
    · rename_i same
      rw [← same, ← Option.some.inj counts, ← ok.voters voter, first]
      exact Bool.false_ne_true
    · cases counts
  · intro other cast side weight now same
    cases same
    refine ⟨proposal.parameter, proposal.createdAtHeight, ok.submitted, ?_⟩
    rw [← ok.ends]
    exact UInt64.lt_iff_toNat_lt.mp running

theorem Recorded.finalize (recorded : Recorded period governance events) {totalStake height : UInt64}
    (found : governance.proposals[id]? = some proposal) (active : proposal.status = .active)
    (ended : proposal.votingEndsAtHeight ≤ height)
    (fits : governance.Fits (.finalizeVoting id totalStake height)) :
    Recorded period (governance.store id (governance.finalized round proposal totalStake height))
      (events ++ [.finalized id (governance.finalized round proposal totalStake height).status height]) := by
  have ok := recorded.proposals id proposal found
  have lawful : forall status : ProposalStatus, Lawful period (events ++ [.finalized id status height]) := fun _ =>
    recorded.lawful.concat nofun nofun nofun nofun nofun
  have kept : forall status : ProposalStatus,
      ProposalOk period (events ++ [.finalized id status height]) id proposal := fun _ =>
    ok.concat rfl (fun _ => rfl) rfl
  have unexecuted : forall status : ProposalStatus, executionsOf id (events ++ [.finalized id status height]) = 0 := by
    intro status
    rw [(kept status).executions, active]
    rfl
  refine recorded.store rfl found ?_ (lawful _)
  unfold finalized
  split
  · refine (kept .approved).withStatus .approved _ ?_ (unexecuted .approved)
    intro _
    refine ⟨height, List.mem_append_right _ (List.mem_singleton.mpr rfl), ended, ?_⟩
    rw [← recorded.perDay]
    exact toNat_timelock_add (fits proposal found)
  · exact (kept .rejected).withStatus .rejected proposal.timelockEndsAtHeight nofun (unexecuted .rejected)

theorem ProposalOk.execute (ok : ProposalOk period events id proposal) (approved : proposal.status = .approved)
    (height : UInt64) :
    ProposalOk period (events ++ [.executed id height]) id { proposal with status := .executed } where
  submitted := List.mem_append_left _ ok.submitted
  ends := ok.ends
  voters := by
    intro voter
    rw [votersOn_concat]
    exact (List.append_nil (votersOn id events)).symm ▸ ok.voters voter
  votesFor := by
    rw [stakesOn_concat]
    exact ok.votesFor
  votesAgainst := by
    rw [stakesOn_concat]
    exact ok.votesAgainst
  approved := nofun
  executions := by
    have now : executes id (.executed id height) = true := decide_eq_true rfl
    rw [executionsOf_concat, ok.executions, approved, if_pos now]
    rfl

theorem Recorded.execute (recorded : Recorded period governance events) {height : UInt64}
    (found : governance.proposals[id]? = some proposal) (approved : proposal.status = .approved)
    (waited : proposal.timelockEndsAtHeight ≤ height) :
    Recorded period (governance.store id { proposal with status := .executed })
      (events ++ [.executed id height]) := by
  have ok := recorded.proposals id proposal found
  refine recorded.store rfl found (ok.execute approved height) ?_
  refine recorded.lawful.concat nofun nofun nofun ?_ ?_
  · intro other executes
    rw [← of_decide_eq_true executes, ok.executions, approved]
    rfl
  · intro other now same
    cases same
    rcases ok.approved approved with ⟨decided, logged, ended, lock⟩
    refine ⟨proposal.parameter, proposal.createdAtHeight, decided, ok.submitted, logged, ?_, ?_⟩
    · rw [← ok.ends]
      exact UInt64.le_iff_toNat_le.mp ended
    · rw [← lock]
      exact UInt64.le_iff_toNat_le.mp waited

/-- The step lemma: every call in range keeps the account. -/
theorem Recorded.call (recorded : Recorded period governance events) (step : GovernanceCall)
    (inRange : governance.InRange round step) :
    Recorded period (governance.call round step) (events ++ (eventOf round governance step).toList) := by
  have outcome := outcome_call round governance step
  unfold InRange at inRange
  generalize governance.call round step = after, eventOf round governance step = logged at outcome inRange ⊢
  cases outcome with
  | refused =>
      rw [Option.toList_none, List.append_nil]
      exact recorded
  | submitted submission => exact recorded.submit submission (inRange rfl)
  | voted found active running first => exact recorded.vote found active running first (inRange rfl)
  | finalized found active ended => exact recorded.finalize found active ended (inRange rfl)
  | executed found approved waited => exact recorded.execute found approved waited

end GovernanceModule
end State
end Sarafu
