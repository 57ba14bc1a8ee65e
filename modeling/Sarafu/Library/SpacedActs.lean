import Mathlib

namespace Library
namespace SpacedActs

/-!
# Acts that wait for each other

A register holds the time of the last act, and each act needs a wait of its own since then.
The acts of such a register are apart from all earlier ones by their waits, and those that wait
at least for a gap are rare: a window holds one more than gaps fit into it.
-/

universe u

variable {Act : Type u} (wait time : Act -> Nat)

/-- Each act comes after its wait since the act before it, the first one since `last`. -/
def Spaced : Nat -> List Act -> Prop
  | _, [] => True
  | last, act :: rest => last + wait act ≤ time act ∧ Spaced (time act) rest

/-- The time of the last act. -/
def lastTime : Nat -> List Act -> Nat
  | last, [] => last
  | _, act :: rest => lastTime (time act) rest

variable {wait time}

theorem spaced_append {last : Nat} {first second : List Act} :
    Spaced wait time last (first ++ second) <->
      Spaced wait time last first ∧ Spaced wait time (lastTime time last first) second := by
  induction first generalizing last with
  | nil => exact (and_iff_right trivial).symm
  | cons act rest inductionHypothesis =>
      rw [List.cons_append, Spaced, Spaced, inductionHypothesis, and_assoc]
      exact Iff.rfl

theorem lastTime_append (last : Nat) (first second : List Act) :
    lastTime time last (first ++ second) = lastTime time (lastTime time last first) second := by
  induction first generalizing last with
  | nil => rfl
  | cons act rest inductionHypothesis => exact inductionHypothesis (time act)

/-- The register holds what it started with, or the time of an act. -/
theorem lastTime_cases (time : Act -> Nat) (last : Nat) (acts : List Act) :
    lastTime time last acts = last ∨ ∃ act, act ∈ acts ∧ lastTime time last acts = time act := by
  induction acts generalizing last with
  | nil => exact Or.inl rfl
  | cons first rest inductionHypothesis =>
      rcases inductionHypothesis (time first) with kept | ⟨act, member, same⟩
      · exact Or.inr ⟨first, List.mem_cons_self, kept⟩
      · exact Or.inr ⟨act, List.mem_cons_of_mem first member, same⟩

/-- Every act keeps its wait to every earlier one. -/
theorem Spaced.pairwise {last : Nat} {acts : List Act} (spaced : Spaced wait time last acts) :
    acts.Pairwise (fun earlier later => time earlier + wait later ≤ time later) ∧
      forall act, act ∈ acts -> last + wait act ≤ time act := by
  induction acts generalizing last with
  | nil => exact ⟨List.Pairwise.nil, nofun⟩
  | cons first rest inductionHypothesis =>
      rcases inductionHypothesis spaced.2 with ⟨apart, since⟩
      have now : last + wait first ≤ time first := spaced.1
      refine ⟨List.pairwise_cons.mpr ⟨since, apart⟩, ?_⟩
      intro act member
      rcases List.mem_cons.mp member with rfl | later
      · exact now
      · have reached := since act later
        omega

/-- Acts that are a gap apart, all in one window. -/
theorem length_le_of_gap (time : Act -> Nat) (gap opens window : Nat) {acts : List Act}
    (apart : acts.Pairwise fun earlier later => time earlier + gap ≤ time later)
    (inside : forall act, act ∈ acts -> opens ≤ time act ∧ time act ≤ opens + window) :
    acts.length * gap ≤ window + gap := by
  induction acts generalizing opens window with
  | nil =>
      rw [List.length_nil, Nat.zero_mul]
      exact Nat.zero_le _
  | cons first rest inductionHypothesis =>
      have start := inside first List.mem_cons_self
      rw [List.pairwise_cons] at apart
      cases rest with
      | nil =>
          rw [List.length_singleton, Nat.one_mul]
          exact Nat.le_add_left gap window
      | cons second others =>
          have next := apart.1 second List.mem_cons_self
          have last := inside second (List.mem_cons_of_mem first List.mem_cons_self)
          -- the window of the others opens a gap later
          have shorter := inductionHypothesis (opens + gap) (window - gap) apart.2 (by
            intro act member
            have later := apart.1 act member
            have bound := inside act (List.mem_cons_of_mem first member)
            omega)
          rw [List.length_cons, Nat.succ_mul]
          omega

end SpacedActs
end Library
