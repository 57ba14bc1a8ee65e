import Sarafu.Library.Runs

namespace Library
namespace FramedStreams

open Runs

/-!
# Frames over a stream

A frame is a header of a fixed size and a body whose size the header announces.  A reader asks
for the header and then for the body, and a request is answered at any time after enough symbols
have arrived, in whatever pieces.  What a reader has read is always a list of frames at the start
of what has arrived, and it is all of them once no request can be answered.
-/

structure Format (Symbol Value : Type) where
  headerSize : Nat
  /-- The size that a header announces, or `none` if it is refused. -/
  bodySize : List Symbol -> Option Nat
  decode : List Symbol -> Option Value

/-- What a reader waits for. -/
inductive Request
  | header
  | body (count : Nat)
  | closed
deriving DecidableEq

structure Reader (Symbol Value : Type) where
  request : Request
  held : List Symbol
  values : List Value

/-- A connection that breaks ends the run. -/
inductive StreamEvent (Symbol : Type)
  | arrive (symbols : List Symbol)
  | answer

variable {Symbol Value : Type}

def Reader.start : Reader Symbol Value := ⟨.header, [], []⟩

namespace Format

variable (format : Format Symbol Value)

/-- Answer the request, if enough has arrived. -/
def answer (reader : Reader Symbol Value) : Reader Symbol Value :=
  match reader.request with
  | .closed => reader
  | .header =>
      if reader.held.length < format.headerSize then reader
      else
        match format.bodySize (reader.held.take format.headerSize) with
        | none => { reader with request := .closed }
        | some count => ⟨.body count, reader.held.drop format.headerSize, reader.values⟩
  | .body count =>
      if reader.held.length < count then reader
      else
        match format.decode (reader.held.take count) with
        | none => { reader with request := .closed }
        | some value => ⟨.header, reader.held.drop count, reader.values ++ [value]⟩

def step (reader : Reader Symbol Value) : StreamEvent Symbol -> Reader Symbol Value
  | .arrive symbols => { reader with held := reader.held ++ symbols }
  | .answer => format.answer reader

/-- No request can be answered. -/
def Waiting (reader : Reader Symbol Value) : Prop :=
  match reader.request with
  | .header => reader.held.length < format.headerSize
  | .body count => reader.held.length < count
  | .closed => True

instance (reader : Reader Symbol Value) : Decidable (format.Waiting reader) := by
  unfold Waiting
  split
  · infer_instance
  · infer_instance
  · infer_instance

/-- A stream starts with the frames of these values, and the rest follows. -/
inductive Frames : List Symbol -> List Value -> List Symbol -> Prop
  | none (rest : List Symbol) : Frames rest [] rest
  | next {header body after rest : List Symbol} {value : Value} {values : List Value}
      (sized : header.length = format.headerSize) (announced : format.bodySize header = some body.length)
      (decoded : format.decode body = some value) (others : Frames after values rest) :
      Frames (header ++ body ++ after) (value :: values) rest

/-- A stream starts with a header or a body that closes the connection. -/
def Refused (stream : List Symbol) : Prop :=
  ∃ header after, stream = header ++ after ∧ header.length = format.headerSize ∧
    (format.bodySize header = none ∨
      ∃ body further, after = body ++ further ∧ format.bodySize header = some body.length ∧ format.decode body = none)

/-- No frame can be read from the start of a stream. -/
def Stuck (stream : List Symbol) : Prop := forall value rest, ¬ format.Frames stream [value] rest

/-- Where the reader stands in what is left of the stream. -/
def Stands (reader : Reader Symbol Value) (rest : List Symbol) : Prop :=
  match reader.request with
  | .header => rest = reader.held
  | .body count => ∃ header, header.length = format.headerSize ∧ format.bodySize header = some count ∧
      rest = header ++ reader.held
  | .closed => format.Refused rest

end Format

/-- What has arrived in a run. -/
def arrivals (events : List (StreamEvent Symbol)) : List Symbol :=
  events.flatMap fun event =>
    match event with
    | .arrive symbols => symbols
    | .answer => []

namespace Format

variable {format : Format Symbol Value} {stream rest other : List Symbol} {values others : List Value}

/-! ## Frames -/

theorem Frames.single {header body : List Symbol} {value : Value} (sized : header.length = format.headerSize)
    (announced : format.bodySize header = some body.length) (decoded : format.decode body = some value)
    (rest : List Symbol) : format.Frames (header ++ body ++ rest) [value] rest :=
  .next sized announced decoded (.none rest)

theorem Frames.append (frames : format.Frames stream values rest) (more : List Symbol) :
    format.Frames (stream ++ more) values (rest ++ more) := by
  induction frames with
  | none rest => exact .none _
  | next sized announced decoded _ inductionHypothesis =>
      rw [List.append_assoc]
      exact .next sized announced decoded inductionHypothesis

theorem Frames.trans (frames : format.Frames stream values rest) (further : format.Frames rest others other) :
    format.Frames stream (values ++ others) other := by
  induction frames with
  | none rest => exact further
  | next sized announced decoded _ inductionHypothesis =>
      exact .next sized announced decoded (inductionHypothesis further)

/-- The header determines the body, so a stream has one first frame. -/
theorem split_unique {header body after header' body' after' : List Symbol} {count : Nat}
    (sized : header.length = format.headerSize) (sized' : header'.length = format.headerSize)
    (announced : format.bodySize header = some body.length) (announced' : format.bodySize header' = some count)
    (counted : body'.length = count) (same : header ++ (body ++ after) = header' ++ (body' ++ after')) :
    body = body' ∧ after = after' := by
  rcases List.append_inj same (sized.trans sized'.symm) with ⟨rfl, tails⟩
  have lengths : body.length = body'.length := by
    rw [counted]
    exact Option.some.inj (announced.symm.trans announced')
  exact List.append_inj tails lengths

theorem Frames.head_unique {header body after : List Symbol} {value : Value}
    (sized : header.length = format.headerSize) (announced : format.bodySize header = some body.length)
    (decoded : format.decode body = some value)
    (frames : format.Frames (header ++ body ++ after) others other) :
    others = [] ∨ ∃ tail, others = value :: tail ∧ format.Frames after tail other := by
  generalize whole : header ++ body ++ after = stream at frames
  cases frames with
  | none => exact Or.inl rfl
  | @next header' body' after' rest' value' values' sized' announced' decoded' tail =>
      rw [List.append_assoc, List.append_assoc] at whole
      rcases split_unique sized sized' announced announced' rfl whole with ⟨rfl, rfl⟩
      rw [decoded] at decoded'
      cases decoded'
      exact Or.inr ⟨values', rfl, tail⟩

/-- Whatever is read from a stream is a prefix of what is read until it is stuck. -/
theorem Frames.prefix_of_stuck (frames : format.Frames stream values rest) (stuck : format.Stuck rest)
    (also : format.Frames stream others other) : others <+: values := by
  induction frames generalizing others with
  | none rest =>
      cases also with
      | none => exact List.prefix_refl _
      | next sized announced decoded tail => exact absurd (Frames.single sized announced decoded _) (stuck _ _)
  | next sized announced decoded _ inductionHypothesis =>
      rcases also.head_unique sized announced decoded with rfl | ⟨tail, rfl, further⟩
      · exact List.nil_prefix
      · exact (List.prefix_cons_inj _).mpr (inductionHypothesis stuck further)

theorem Frames.rest_unique (frames : format.Frames stream values rest) (also : format.Frames stream values other) :
    rest = other := by
  induction frames with
  | none rest =>
      cases also with
      | none => rfl
  | next sized announced decoded _ inductionHypothesis =>
      rcases also.head_unique sized announced decoded with impossible | ⟨tail, same, further⟩
      · cases impossible
      · cases same
        exact inductionHypothesis further

/-! ## Where nothing can be read -/

theorem stuck_nil (positive : 0 < format.headerSize) : format.Stuck [] := by
  intro value rest frames
  generalize empty : ([] : List Symbol) = stream at frames
  cases frames with
  | next sized _ _ _ =>
      have lengths := congrArg List.length empty
      rw [List.append_assoc, List.length_append, List.length_nil] at lengths
      omega

theorem Refused.stuck (refused : format.Refused stream) : format.Stuck stream := by
  intro value rest frames
  rcases refused with ⟨header, after, rfl, sized, closes⟩
  generalize whole : header ++ after = stream at frames
  cases frames with
  | @next header' body' after' _ _ _ sized' announced' decoded' _ =>
      rw [List.append_assoc] at whole
      rcases List.append_inj whole (sized.trans sized'.symm) with ⟨rfl, tails⟩
      rcases closes with refuses | ⟨body, further, rfl, announced, undecoded⟩
      · rw [refuses] at announced'
        cases announced'
      · have lengths : body.length = body'.length := Option.some.inj (announced.symm.trans announced')
        rw [(List.append_inj tails lengths).1, decoded'] at undecoded
        cases undecoded

/-- A reader that waits stands where nothing can be read. -/
theorem Stands.stuck {reader : Reader Symbol Value} (stands : format.Stands reader rest)
    (waiting : format.Waiting reader) : format.Stuck rest := by
  unfold Stands at stands
  unfold Waiting at waiting
  cases asks : reader.request with
  | closed =>
      rw [asks] at stands
      exact Refused.stuck stands
  | header =>
      rw [asks] at stands waiting
      intro value after frames
      rw [stands] at frames
      generalize reader.held = held at frames waiting
      cases frames with
      | next sized _ _ _ =>
          rw [List.append_assoc, List.length_append] at waiting
          omega
  | body count =>
      rw [asks] at stands waiting
      rcases stands with ⟨header, sized, announced, rfl⟩
      intro value after frames
      generalize whole : header ++ reader.held = stream at frames
      cases frames with
      | @next header' body' after' _ _ _ sized' announced' _ _ =>
          rw [List.append_assoc] at whole
          rcases List.append_inj whole (sized.trans sized'.symm) with ⟨rfl, tails⟩
          have lengths : count = body'.length := Option.some.inj (announced.symm.trans announced')
          rw [tails, List.length_append] at waiting
          omega

theorem Refused.append (refused : format.Refused stream) (more : List Symbol) : format.Refused (stream ++ more) := by
  rcases refused with ⟨header, after, rfl, sized, closes⟩
  refine ⟨header, after ++ more, List.append_assoc _ _ _, sized, ?_⟩
  rcases closes with refuses | ⟨body, further, rfl, announced, undecoded⟩
  · exact Or.inl refuses
  · exact Or.inr ⟨body, further ++ more, List.append_assoc _ _ _, announced, undecoded⟩

theorem Stands.refused {reader : Reader Symbol Value} (stands : format.Stands reader rest)
    (closed : reader.request = .closed) : format.Refused rest := by
  unfold Stands at stands
  rw [closed] at stands
  exact stands

theorem Refused.length_pos (positive : 0 < format.headerSize) (refused : format.Refused stream) :
    0 < stream.length := by
  rcases refused with ⟨header, after, rfl, sized, _⟩
  rw [List.length_append]
  omega

/-- A reader that waits before a refused frame has closed the connection. -/
theorem Stands.closed {reader : Reader Symbol Value} (stands : format.Stands reader rest)
    (waiting : format.Waiting reader) (refused : format.Refused rest) : reader.request = .closed := by
  rcases refused with ⟨header, after, rfl, sized, closes⟩
  unfold Stands at stands
  unfold Waiting at waiting
  cases asks : reader.request with
  | closed => rfl
  | header =>
      rw [asks] at stands waiting
      rw [← stands, List.length_append] at waiting
      omega
  | body count =>
      rw [asks] at stands waiting
      rcases stands with ⟨header', sized', announced', whole⟩
      rcases List.append_inj whole (sized.trans sized'.symm) with ⟨rfl, rfl⟩
      rcases closes with refuses | ⟨body, further, tails, announced, _⟩
      · rw [refuses] at announced'
        cases announced'
      · have lengths : body.length = count := Option.some.inj (announced.symm.trans announced')
        rw [tails, List.length_append] at waiting
        omega

/-! ## Runs -/

/-- What has arrived starts with the frames of what was read, and the reader stands behind them. -/
def Reads (format : Format Symbol Value) (arrived : List Symbol) (reader : Reader Symbol Value) : Prop :=
  ∃ rest, format.Frames arrived reader.values rest ∧ format.Stands reader rest

theorem Stands.arrive {reader : Reader Symbol Value} (stands : format.Stands reader rest) (symbols : List Symbol) :
    format.Stands (format.step reader (.arrive symbols)) (rest ++ symbols) := by
  unfold Stands step at *
  cases asks : reader.request with
  | closed =>
      rw [asks] at stands
      exact Refused.append stands symbols
  | header =>
      rw [asks] at stands
      exact congrArg (· ++ symbols) stands
  | body count =>
      rw [asks] at stands
      rcases stands with ⟨header, sized, announced, rfl⟩
      exact ⟨header, sized, announced, List.append_assoc _ _ _⟩

theorem Reads.answer {arrived : List Symbol} {reader : Reader Symbol Value} (reads : format.Reads arrived reader) :
    format.Reads arrived (format.answer reader) := by
  rcases reader with ⟨request, held, values⟩
  rcases reads with ⟨rest, frames, stands⟩
  cases request with
  | closed => exact ⟨rest, frames, stands⟩
  | header =>
      have same : rest = held := stands
      subst same
      by_cases short : rest.length < format.headerSize
      · rw [show format.answer ⟨.header, rest, values⟩ = ⟨.header, rest, values⟩ from if_pos short]
        exact ⟨rest, frames, rfl⟩
      · have sized : (rest.take format.headerSize).length = format.headerSize := by
          rw [List.length_take]
          omega
        have whole := (List.take_append_drop format.headerSize rest).symm
        cases announced : format.bodySize (rest.take format.headerSize) with
        | none =>
            have closes : format.answer ⟨.header, rest, values⟩ = ⟨.closed, rest, values⟩ := by
              simp only [Format.answer, if_neg short, announced]
            rw [closes]
            exact ⟨rest, frames, _, _, whole, sized, Or.inl announced⟩
        | some count =>
            have asks : format.answer ⟨.header, rest, values⟩ = ⟨.body count, rest.drop format.headerSize, values⟩ := by
              simp only [Format.answer, if_neg short, announced]
            rw [asks]
            exact ⟨rest, frames, _, sized, announced, whole⟩
  | body count =>
      rcases stands with ⟨header, sized, announced, rfl⟩
      by_cases short : held.length < count
      · rw [show format.answer ⟨.body count, held, values⟩ = ⟨.body count, held, values⟩ from if_pos short]
        exact ⟨_, frames, header, sized, announced, rfl⟩
      · have counted : (held.take count).length = count := by
          rw [List.length_take]
          omega
        have exactly : format.bodySize header = some (held.take count).length := by rw [counted, announced]
        have whole := (List.take_append_drop count held).symm
        cases decoded : format.decode (held.take count) with
        | none =>
            have closes : format.answer ⟨.body count, held, values⟩ = ⟨.closed, held, values⟩ := by
              simp only [Format.answer, if_neg short, decoded]
            rw [closes]
            exact ⟨_, frames, header, held, rfl, sized, Or.inr ⟨_, _, whole, exactly, decoded⟩⟩
        | some value =>
            have reads : format.answer ⟨.body count, held, values⟩ = ⟨.header, held.drop count, values ++ [value]⟩ := by
              simp only [Format.answer, if_neg short, decoded]
            have last := Frames.single sized exactly decoded (held.drop count)
            rw [List.append_assoc, ← whole] at last
            rw [reads]
            exact ⟨_, frames.trans last, rfl⟩

theorem reads_run (format : Format Symbol Value) (events : List (StreamEvent Symbol)) :
    format.Reads (arrivals events) (run format.step .start events) := by
  induction events using List.reverseRecOn with
  | nil => exact ⟨[], .none [], rfl⟩
  | append_singleton earlier last inductionHypothesis =>
      have arrived : arrivals (earlier ++ [last]) = arrivals earlier ++ arrivals [last] := List.flatMap_append
      rw [run_append, arrived]
      cases last with
      | arrive symbols =>
          rcases inductionHypothesis with ⟨rest, frames, stands⟩
          have whole : arrivals [StreamEvent.arrive symbols] = symbols := List.append_nil symbols
          rw [whole]
          exact ⟨rest ++ symbols, frames.append symbols, stands.arrive symbols⟩
      | answer =>
          have nothing : arrivals [(StreamEvent.answer : StreamEvent Symbol)] = [] := rfl
          rw [nothing, List.append_nil]
          exact inductionHypothesis.answer

/-- Of a stream that starts with the frames of some values and is stuck behind them, a reader
reads a prefix of these values, and all of them once everything has arrived and is answered. -/
theorem reads_of_frames {events : List (StreamEvent Symbol)} (frames : format.Frames stream values rest)
    (stuck : format.Stuck rest) (received : arrivals events <+: stream) :
    (run format.step .start events).values <+: values ∧
      (arrivals events = stream -> format.Waiting (run format.step .start events) ->
        (run format.step .start events).values = values ∧ format.Stands (run format.step .start events) rest) := by
  rcases reads_run format events with ⟨left, reads, stands⟩
  refine ⟨?_, ?_⟩
  · rcases received with ⟨more, rfl⟩
    exact frames.prefix_of_stuck stuck (reads.append more)
  · intro whole waiting
    rw [whole] at reads
    have shorter := reads.prefix_of_stuck (stands.stuck waiting) frames
    have same := (frames.prefix_of_stuck stuck reads).eq_of_length_le shorter.length_le
    rw [same] at reads
    rw [frames.rest_unique reads]
    exact ⟨same, stands⟩

end Format
end FramedStreams
end Library
