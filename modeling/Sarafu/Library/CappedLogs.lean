import Sarafu.Library.LastWrites

namespace Library
namespace CappedLogs

open Runs

/-!
# Logs that keep their last entries

A log appends what is recorded, forgets the oldest entries beyond its capacity, and sweeps out
what a test calls stale.  It always holds the last entries of the log that would have no
capacity, and an entry that is not swept stays until so many others came after it.
-/

inductive LogCall (Entry : Type)
  | record (entry : Entry)
  | sweep (stale : Entry -> Bool)

namespace LogCall

variable {Entry : Type}

def isRecord : LogCall Entry -> Bool
  | record _ => true
  | sweep _ => false

end LogCall

variable {Entry : Type}

def capped (capacity : Nat) (log : List Entry) : List Entry := log.drop (log.length - capacity)

def logged (capacity : Nat) (log : List Entry) : LogCall Entry -> List Entry
  | .record entry => capped capacity (log ++ [entry])
  | .sweep stale => log.filter fun entry => !stale entry

/-- The log without a capacity. -/
def unswept (log : List Entry) : LogCall Entry -> List Entry
  | .record entry => log ++ [entry]
  | .sweep stale => log.filter fun entry => !stale entry

variable {capacity : Nat} {log : List Entry} {calls : List (LogCall Entry)} {entry : Entry}

theorem length_logged_le (small : log.length ≤ capacity) (step : LogCall Entry) :
    (logged capacity log step).length ≤ capacity := by
  cases step with
  | record entry =>
      rw [logged, capped, List.length_drop]
      omega
  | sweep stale => exact Nat.le_trans (List.length_filter_le _ log) small

theorem length_run_le (small : log.length ≤ capacity) (calls : List (LogCall Entry)) :
    (run (logged capacity) log calls).length ≤ capacity :=
  invariant_run (fun log : List Entry => log.length ≤ capacity) (fun _ step kept _ => length_logged_le kept step) small
    (along_true log calls)

/-- A component of a machine that some calls use as a log. -/
theorem read_run_logged {State Call : Type} {step : State -> Call -> State} (read : State -> List Entry)
    (logs : Call -> Option (LogCall Entry))
    (obeys : forall state call, read (step state call) = (logs call).elim (read state) (logged capacity (read state)))
    (start : State) (calls : List Call) :
    read (run step start calls) = run (logged capacity) (read start) (calls.filterMap logs) := by
  induction calls generalizing start with
  | nil => rfl
  | cons call rest inductionHypothesis =>
      rw [run_cons, inductionHypothesis, obeys, List.filterMap_cons]
      cases logs call with
      | none => rfl
      | some log => rfl

/-- A log holds the last entries of the log without a capacity. -/
theorem run_suffix {whole : List Entry} (suffix : log <:+ whole) (calls : List (LogCall Entry)) :
    run (logged capacity) log calls <:+ run unswept whole calls := by
  induction calls generalizing log whole with
  | nil => exact suffix
  | cons step rest inductionHypothesis =>
      apply inductionHypothesis
      rcases suffix with ⟨older, rfl⟩
      cases step with
      | record entry =>
          rw [unswept, List.append_assoc]
          exact (List.drop_suffix _ _).trans (List.suffix_append older (log ++ [entry]))
      | sweep stale =>
          rw [unswept, List.filter_append]
          exact List.suffix_append _ _

/-- An entry stays while fewer others than the capacity come after it and no sweep takes it. -/
theorem mem_run_of_recent {older newer : List Entry} (split : log = older ++ entry :: newer)
    (recent : newer.length + calls.countP LogCall.isRecord < capacity)
    (spared : forall stale, .sweep stale ∈ calls -> stale entry = false) : entry ∈ run (logged capacity) log calls := by
  induction calls generalizing log older newer with
  | nil =>
      rw [run_nil, split]
      exact List.mem_append_right older List.mem_cons_self
  | cons step rest inductionHypothesis =>
      have others : forall stale, .sweep stale ∈ rest -> stale entry = false := fun stale member =>
        spared stale (List.mem_cons_of_mem step member)
      subst split
      cases step with
      | record added =>
          rw [List.countP_cons_of_pos rfl] at recent
          have enough : (older ++ entry :: newer ++ [added]).length - capacity ≤ older.length := by
            simp only [List.length_append, List.length_cons, List.length_nil]
            omega
          have next : logged capacity (older ++ entry :: newer) (.record added) =
              older.drop ((older ++ entry :: newer ++ [added]).length - capacity) ++ entry :: (newer ++ [added]) := by
            rw [logged, capped, ← List.cons_append, ← List.drop_append_of_le_length enough, List.append_assoc]
          refine inductionHypothesis next ?_ others
          rw [List.length_append, List.length_singleton]
          omega
      | sweep stale =>
          rw [List.countP_cons_of_neg Bool.false_ne_true] at recent
          have kept : (!stale entry) = true := by rw [spared stale List.mem_cons_self, Bool.not_false]
          have next : logged capacity (older ++ entry :: newer) (.sweep stale) =
              (older.filter fun entry => !stale entry) ++ entry :: newer.filter fun entry => !stale entry := by
            rw [logged, List.filter_append, List.filter_cons_of_pos (p := fun entry => !stale entry) kept]
          refine inductionHypothesis next ?_ others
          have fewer := List.length_filter_le (fun entry => !stale entry) newer
          omega

/-- What the log without a capacity holds was recorded and not swept since. -/
theorem mem_unswept_iff (calls : List (LogCall Entry)) : entry ∈ run unswept [] calls <->
    ∃ before after, calls = before ++ .record entry :: after ∧
      forall stale, .sweep stale ∈ after -> stale entry = false := by
  induction calls using List.reverseRecOn with
  | nil =>
      refine iff_of_false List.not_mem_nil ?_
      rintro ⟨before, after, split, _⟩
      exact List.append_ne_nil_of_right_ne_nil before (List.cons_ne_nil _ after) split.symm
  | append_singleton calls last inductionHypothesis =>
      simp only [LastWrites.concat_eq_split_iff]
      rw [run_append, run_cons, run_nil]
      cases last with
      | record added =>
          rw [unswept, List.mem_append, List.mem_singleton, inductionHypothesis]
          constructor
          · rintro (⟨before, after, rfl, spared⟩ | rfl)
            · refine ⟨before, after ++ [.record added], Or.inr ⟨after, rfl, rfl⟩, ?_⟩
              intro stale member
              rcases List.mem_append.mp member with earlier | last
              · exact spared stale earlier
              · cases List.mem_singleton.mp last
            · exact ⟨calls, [], Or.inl ⟨rfl, rfl, rfl⟩, nofun⟩
          · rintro ⟨before, after, ⟨rfl, same, rfl⟩ | ⟨rest, rfl, rfl⟩, spared⟩
            · cases same
              exact Or.inr rfl
            · exact Or.inl ⟨before, rest, rfl, fun stale member => spared stale (List.mem_append_left _ member)⟩
      | sweep stale =>
          rw [unswept, List.mem_filter, inductionHypothesis, Bool.not_eq_true']
          constructor
          · rintro ⟨⟨before, after, rfl, spared⟩, fresh⟩
            refine ⟨before, after ++ [.sweep stale], Or.inr ⟨after, rfl, rfl⟩, ?_⟩
            intro other member
            rcases List.mem_append.mp member with earlier | last
            · exact spared other earlier
            · cases List.mem_singleton.mp last
              exact fresh
          · rintro ⟨before, after, ⟨_, other, _⟩ | ⟨rest, rfl, rfl⟩, spared⟩
            · cases other
            · refine ⟨⟨before, rest, rfl, fun stale member => spared stale (List.mem_append_left _ member)⟩, ?_⟩
              exact spared stale (List.mem_append_right rest (List.mem_singleton_self _))

/-! ## Logs in the history of a machine -/

variable {Call : Type} {logs : Call -> Option (LogCall Entry)} {history : List Call}

/-- A call recorded the entry, and none since has swept it. -/
def RecordedBy (logs : Call -> Option (LogCall Entry)) (entry : Entry) (history before after : List Call) : Prop :=
  ∃ call, history = before ++ call :: after ∧ logs call = some (.record entry) ∧
    forall later, later ∈ after -> forall stale, logs later = some (.sweep stale) -> stale entry = false

def recordsIn (logs : Call -> Option (LogCall Entry)) (calls : List Call) : Nat :=
  (calls.filterMap logs).countP LogCall.isRecord

theorem spared_iff {calls : List Call} : (forall stale, .sweep stale ∈ calls.filterMap logs -> stale entry = false) <->
    forall later, later ∈ calls -> forall stale, logs later = some (.sweep stale) -> stale entry = false := by
  simp only [List.mem_filterMap]
  constructor
  · intro spared later member stale sweeps
    exact spared stale ⟨later, member, sweeps⟩
  · rintro spared stale ⟨later, member, sweeps⟩
    exact spared later member stale sweeps

/-- An entry after which fewer others than the capacity were recorded is in the log. -/
theorem mem_of_recordedBy {before after : List Call} (recorded : RecordedBy logs entry history before after)
    (recent : recordsIn logs after < capacity) : entry ∈ run (logged capacity) [] (history.filterMap logs) := by
  rcases recorded with ⟨call, rfl, logged, spared⟩
  rw [List.filterMap_append, List.filterMap_cons_some logged, run_append, run_cons]
  have positive : 0 < capacity := Nat.zero_lt_of_lt recent
  generalize run (CappedLogs.logged capacity) [] (before.filterMap logs) = log
  have last : CappedLogs.logged capacity log (.record entry) =
      log.drop ((log ++ [entry]).length - capacity) ++ entry :: [] := by
    rw [CappedLogs.logged, capped, List.drop_append_of_le_length]
    rw [List.length_append, List.length_singleton]
    omega
  refine mem_run_of_recent last ?_ (spared_iff.mpr spared)
  rw [List.length_nil, Nat.zero_add]
  exact recent

/-- An entry of the log was recorded and is not swept since. -/
theorem exists_recordedBy_of_mem (member : entry ∈ run (logged capacity) [] (history.filterMap logs)) :
    ∃ before after, RecordedBy logs entry history before after := by
  have unlimited := (run_suffix (List.suffix_refl []) (history.filterMap logs)).subset member
  rcases (mem_unswept_iff _).mp unlimited with ⟨earlier, later, split, spared⟩
  rcases List.filterMap_eq_append_iff.mp split with ⟨before, rest, rfl, rfl, others⟩
  rcases List.filterMap_eq_cons_iff.mp others with ⟨silent, call, after, rfl, quiet, logged, rfl⟩
  exact ⟨before ++ silent, after, call, by rw [List.append_assoc], logged, spared_iff.mp spared⟩

end CappedLogs
end Library
