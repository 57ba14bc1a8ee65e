import Sarafu.Library.Runs

namespace Library
namespace SlidingWindow

/-!
# A limit on every window of time

Requests come in the order of time.  At a first look at the clock the grants before a cutoff
are forgotten, and a request is granted if fewer grants than the limit are left.  A grant is
noted with a second look.  Where the cutoffs lie one width back, the grants that are still
held are those of the last width, so the limit holds in every window, wherever it starts.
-/

universe u v

variable {Request : Type u} {Time : Type v}

structure Rule (Request : Type u) (Time : Type v) where
  looks : Request -> Time
  notes : Request -> Time
  limit : Nat
  cutoff : Request -> Time

variable [LinearOrder Time]

/-- Drop what lies before the cutoff from the front. -/
def forget (cutoff : Time) (stamps : List Time) : List Time := stamps.dropWhile fun stamp => decide (stamp < cutoff)

theorem forget_cons_of_lt {cutoff first : Time} (before : first < cutoff) (rest : List Time) :
    forget cutoff (first :: rest) = forget cutoff rest := List.dropWhile_cons_of_pos (decide_eq_true before)

theorem forget_cons_of_le {cutoff first : Time} (within : cutoff ≤ first) (rest : List Time) :
    forget cutoff (first :: rest) = first :: rest :=
  List.dropWhile_cons_of_neg (decide_eq_true_iff.not.mpr (not_lt_of_ge within))

/-- In order of time, all that lies before the cutoff is forgotten. -/
theorem forget_eq_filter {stamps : List Time} (sorted : stamps.Pairwise fun earlier later => earlier ≤ later)
    (cutoff : Time) : forget cutoff stamps = stamps.filter fun stamp => decide (cutoff ≤ stamp) := by
  induction stamps with
  | nil => rfl
  | cons first rest inductionHypothesis =>
      rw [List.pairwise_cons] at sorted
      rcases lt_or_ge first cutoff with before | within
      · rw [forget_cons_of_lt before, List.filter_cons, decide_eq_false (not_le_of_gt before),
          if_neg Bool.false_ne_true]
        exact inductionHypothesis sorted.2
      · rw [forget_cons_of_le within]
        refine (List.filter_eq_self.mpr ?_).symm
        intro stamp member
        rw [decide_eq_true_iff]
        rcases List.mem_cons.mp member with rfl | behind
        · exact within
        · exact le_trans within (sorted.1 stamp behind)

/-- A later cutoff leaves nothing that an earlier one has forgotten. -/
theorem forget_forget {earlier later : Time} (ordered : earlier ≤ later) (stamps : List Time) :
    forget later (forget earlier stamps) = forget later stamps := by
  induction stamps with
  | nil => rfl
  | cons first rest inductionHypothesis =>
      rcases lt_or_ge first earlier with before | within
      · rw [forget_cons_of_lt before, forget_cons_of_lt (lt_of_lt_of_le before ordered), inductionHypothesis]
      · rw [forget_cons_of_le within]

theorem forget_append_congr {cutoff : Time} {left right : List Time} (same : forget cutoff left = forget cutoff right)
    (more : List Time) : forget cutoff (left ++ more) = forget cutoff (right ++ more) := by
  unfold forget at same ⊢
  rw [List.dropWhile_append, List.dropWhile_append, same]

/-- The stamp in front decides whether anything is forgotten. -/
theorem length_forget_cons_lt_iff (cutoff first : Time) (rest : List Time) :
    (forget cutoff (first :: rest)).length < (first :: rest).length <-> first < cutoff := by
  rcases lt_or_ge first cutoff with before | within
  · rw [forget_cons_of_lt before]
    exact iff_of_true (Nat.lt_succ_of_le (List.dropWhile_sublist _).length_le) before
  · rw [forget_cons_of_le within]
    exact iff_of_false (Nat.lt_irrefl _) (not_lt_of_ge within)

namespace Rule

section Steps

variable (rule : Rule Request Time)

/-- The stamps that count when a request is made. -/
def kept (stamps : List Time) (request : Request) : List Time := forget (rule.cutoff request) stamps

def grants (stamps : List Time) (request : Request) : Bool := decide ((rule.kept stamps request).length < rule.limit)

def step (stamps : List Time) (request : Request) : List Time :=
  if rule.grants stamps request then rule.kept stamps request ++ [rule.notes request] else rule.kept stamps request

def grant (stamps : List Time) (request : Request) : Option Request :=
  if rule.grants stamps request then some request else none

theorem kept_sublist (stamps : List Time) (request : Request) : (rule.kept stamps request).Sublist stamps :=
  List.dropWhile_sublist _

theorem mem_step {stamps : List Time} {request : Request} {stamp : Time} (member : stamp ∈ rule.step stamps request) :
    stamp ∈ stamps ∨ stamp = rule.notes request := by
  unfold step at member
  split at member
  · rcases List.mem_append.mp member with old | new
    · exact Or.inl ((rule.kept_sublist stamps request).subset old)
    · exact Or.inr (List.mem_singleton.mp new)
  · exact Or.inl ((rule.kept_sublist stamps request).subset member)

/-- A refusal of a rule that holds no more than its limit forgets nothing. -/
theorem step_of_refused {stamps : List Time} (few : stamps.length ≤ rule.limit) {request : Request}
    (refused : rule.grants stamps request = false) : rule.step stamps request = stamps := by
  have many := Nat.not_lt.mp (of_decide_eq_false refused)
  rw [step, refused, if_neg Bool.false_ne_true]
  exact (rule.kept_sublist stamps request).eq_of_length_le (Nat.le_trans few many)

theorem length_step_le {stamps : List Time} (few : stamps.length ≤ rule.limit) (request : Request) :
    (rule.step stamps request).length ≤ rule.limit := by
  unfold step
  split
  · rename_i granted
    rw [List.length_append]
    exact of_decide_eq_true granted
  · exact Nat.le_trans (rule.kept_sublist stamps request).length_le few

/-- The stamps after these requests, from none. -/
def held (requests : List Request) : List Time := Runs.run rule.step [] requests

/-- The requests that are granted. -/
def granted (requests : List Request) : List Request := Runs.outputs rule.step rule.grant [] requests

variable {rule} {requests : List Request} {last : Request}

theorem granted_concat (requests : List Request) (last : Request) :
    rule.granted (requests ++ [last]) = rule.granted requests ++ (rule.grant (rule.held requests) last).toList :=
  Runs.outputs_concat [] requests last

theorem held_concat (requests : List Request) (last : Request) :
    rule.held (requests ++ [last]) = rule.step (rule.held requests) last := by
  unfold held
  rw [Runs.run_append]
  rfl

theorem granted_sublist (requests : List Request) : (rule.granted requests).Sublist requests := by
  induction requests using List.reverseRecOn with
  | nil => exact List.Sublist.slnil
  | append_singleton requests last inductionHypothesis =>
      rw [granted_concat]
      refine inductionHypothesis.append ?_
      unfold grant
      split
      · exact List.Sublist.refl _
      · exact List.nil_sublist _

/-- What was forgotten on the way would be forgotten now. -/
theorem forget_held {cutoff : Time}
    (past : forall request, request ∈ requests -> rule.cutoff request ≤ cutoff) :
    forget cutoff (rule.held requests) = forget cutoff ((rule.granted requests).map rule.notes) := by
  induction requests using List.reverseRecOn with
  | nil => rfl
  | append_singleton requests last inductionHypothesis =>
      have earlier := inductionHypothesis fun request member => past request (List.mem_append_left _ member)
      have looked := past last (List.mem_append_right _ (List.mem_singleton_self last))
      have kept : forget cutoff (rule.kept (rule.held requests) last) =
          forget cutoff ((rule.granted requests).map rule.notes) := (forget_forget looked _).trans earlier
      rw [held_concat, granted_concat, List.map_append, step, grant]
      cases rule.grants (rule.held requests) last with
      | true => exact forget_append_congr kept _
      | false =>
          rw [if_neg Bool.false_ne_true, if_neg Bool.false_ne_true, kept]
          exact congrArg _ (List.append_nil _).symm

end Steps

/-! ## In the order of time -/

/-- Each request notes after it looks, and later requests look after that. -/
structure Chronological (rule : Rule Request Time) (requests : List Request) : Prop where
  within : forall request, request ∈ requests -> rule.looks request ≤ rule.notes request
  apart : requests.Pairwise fun earlier later => rule.notes earlier ≤ rule.looks later

variable {rule : Rule Request Time} {requests : List Request} {last : Request}

theorem Chronological.before {later : List Request} (chronological : rule.Chronological (requests ++ later)) :
    rule.Chronological requests :=
  ⟨fun request member => chronological.within request (List.mem_append_left _ member),
    (List.pairwise_append.mp chronological.apart).1⟩

theorem Chronological.noted_before (chronological : rule.Chronological (requests ++ [last])) {request : Request}
    (member : request ∈ requests) : rule.notes request ≤ rule.looks last :=
  (List.pairwise_append.mp chronological.apart).2.2 request member last (List.mem_singleton_self last)

/-- The stamps of the grants are in order. -/
theorem Chronological.sorted (chronological : rule.Chronological requests) :
    ((rule.granted requests).map rule.notes).Pairwise fun earlier later => earlier ≤ later := by
  rw [List.pairwise_map]
  refine List.Pairwise.sublist (granted_sublist requests) ?_
  refine chronological.apart.imp_of_mem ?_
  intro earlier later _ member ordered
  exact le_trans ordered (chronological.within later member)

variable [AddCommGroup Time]

/-- Each cutoff lies one width before the first look. -/
def Spans (rule : Rule Request Time) (width : Time) (requests : List Request) : Prop :=
  forall request, request ∈ requests -> rule.cutoff request = rule.looks request - width

variable {width : Time} [IsOrderedAddMonoid Time]

/-- The stamps that count are those of the grants of the last width. -/
theorem Chronological.kept_eq (chronological : rule.Chronological (requests ++ [last]))
    (spans : rule.Spans width (requests ++ [last])) :
    rule.kept (rule.held requests) last = ((rule.granted requests).map rule.notes).filter fun stamp =>
      decide (rule.looks last - width ≤ stamp) := by
  unfold kept
  rw [spans last (List.mem_append_right _ (List.mem_singleton_self last)), forget_held,
    forget_eq_filter chronological.before.sorted]
  intro request member
  have listed : request ∈ requests ++ [last] := List.mem_append_left _ member
  rw [spans request listed]
  exact sub_le_sub_right (le_trans (chronological.within request listed) (chronological.noted_before member)) _

/-- In every closed window the limit is kept. -/
theorem length_window_le (chronological : rule.Chronological requests) (spans : rule.Spans width requests)
    (first : Time) :
    ((rule.granted requests).filter fun request =>
      decide (first ≤ rule.notes request ∧ rule.notes request ≤ first + width)).length ≤ rule.limit := by
  induction requests using List.reverseRecOn with
  | nil => exact Nat.zero_le _
  | append_singleton requests last inductionHypothesis =>
      have earlier := inductionHypothesis chronological.before fun request member =>
        spans request (List.mem_append_left _ member)
      rw [granted_concat, List.filter_append, List.length_append, grant]
      cases granted : rule.grants (rule.held requests) last with
      | false => exact earlier
      | true =>
          rw [if_pos rfl, Option.toList_some]
          by_cases inside : first ≤ rule.notes last ∧ rule.notes last ≤ first + width
          · -- the window starts within a width before the last grant looked, so its grants all counted
            have looked : rule.looks last - width ≤ first := by
              have listed : last ∈ requests ++ [last] := List.mem_append_right _ (List.mem_singleton_self last)
              exact sub_le_iff_le_add.mpr (le_trans (chronological.within last listed) inside.2)
            have few := of_decide_eq_true granted
            rw [chronological.kept_eq spans, List.filter_map, List.length_map] at few
            have fewer : ((rule.granted requests).filter fun request =>
                decide (first ≤ rule.notes request ∧ rule.notes request ≤ first + width)).length ≤
                  ((rule.granted requests).filter
                    ((fun stamp => decide (rule.looks last - width ≤ stamp)) ∘ rule.notes)).length := by
              refine (List.monotone_filter_right _ ?_).length_le
              intro request within
              exact decide_eq_true (le_trans looked (of_decide_eq_true within).1)
            rw [List.filter_singleton, decide_eq_true inside, cond_true, List.length_singleton]
            omega
          · rw [List.filter_singleton, decide_eq_false inside]
            exact earlier

/-- A request is refused only behind enough grants of the last width. -/
theorem limit_le_of_refused (chronological : rule.Chronological (requests ++ [last]))
    (spans : rule.Spans width (requests ++ [last]))
    (refused : rule.grants (rule.held requests) last = false) :
    rule.limit ≤ ((rule.granted requests).filter fun request =>
      decide (rule.looks last - width ≤ rule.notes request ∧ rule.notes request ≤ rule.looks last)).length := by
  have many := Nat.not_lt.mp (of_decide_eq_false refused)
  rw [chronological.kept_eq spans, List.filter_map, List.length_map] at many
  refine Nat.le_trans many (Nat.le_of_eq (congrArg List.length (List.filter_congr ?_)))
  intro request member
  have before := chronological.noted_before ((granted_sublist requests).subset member)
  exact decide_eq_decide.mpr (and_iff_left before).symm

end Rule
end SlidingWindow
end Library
