import Mathlib

namespace Library
namespace Decoding

/-!
# Decoders over a vector

A decoder walks over a vector with an offset.  Offsets are sizes of 64 bits, so the sum
of an offset and a count that was read may wrap around.  A decoder ends with a value,
with an exception, or outside of its input: an index or a slice that does not lie in the
vector has no result at all.

The rules below say what a decoder does in front of bytes that an encoder wrote.  They
hold at every place of a vector and for whatever follows, so they compose along the
sequence of the fields.
-/

/-- How a function that reads a vector ends. -/
inductive Outcome (Error Value : Type)
  | value (result : Value)
  | throws (error : Error)
  | outside
deriving DecidableEq, Repr

namespace Outcome

variable {Error Value Result : Type}

def map (function : Value -> Result) : Outcome Error Value -> Outcome Error Result
  | value result => value (function result)
  | throws error => throws error
  | outside => outside

/-- An exception that is caught and reported in another form. -/
def mapError {Other : Type} (report : Error -> Other) : Outcome Error Value -> Outcome Other Value
  | value result => value result
  | throws error => throws (report error)
  | outside => outside

protected def bind (outcome : Outcome Error Value) (next : Value -> Outcome Error Result) : Outcome Error Result :=
  match outcome with
  | value result => next result
  | throws error => throws error
  | outside => outside

instance : Monad (Outcome Error) where
  pure := value
  bind := Outcome.bind

end Outcome

/-- A function of the vector and the offset that leaves a value and the next offset. -/
def Decoder (Symbol Error Value : Type) : Type := List Symbol -> Nat -> Outcome Error (Value × Nat)

/-- The sum of two sizes. -/
def sizeSum (left right : Nat) : Nat := (left + right) % 2 ^ 64

namespace Decoder

variable {Symbol Error Value Result : Type}

instance : Monad (Decoder Symbol Error) where
  pure value := fun _ offset => .value (value, offset)
  bind decoder next := fun data offset => (decoder data offset).bind fun reached => next reached.1 data reached.2

/-- The result of a function that does not read the vector. -/
def lift (outcome : Outcome Error Value) : Decoder Symbol Error Value := fun _ offset =>
  outcome.map fun value => (value, offset)

/-- The next symbols, as a slice or one index after the other. -/
def slice (count : Nat) : Decoder Symbol Error (List Symbol) := fun data offset =>
  let stop := sizeSum offset count
  if offset ≤ stop ∧ stop ≤ data.length then .value ((data.drop offset).take (stop - offset), stop) else .outside

/-- The slice up to the end of the vector. -/
def rest : Decoder Symbol Error (List Symbol) := fun data offset =>
  if offset ≤ data.length then .value (data.drop offset, data.length) else .outside

/-- The symbol at the offset, if the vector goes on there. -/
def peek : Decoder Symbol Error (Option Symbol) := fun data offset => .value (data[offset]?, offset)

/-- Throw unless that many symbols are left. -/
def require (count : Nat) (error : Error) : Decoder Symbol Error Unit := fun data offset =>
  if data.length < sizeSum offset count then .throws error else .value ((), offset)

/-- Throw as soon as one of the next indices is not inside. -/
def requireEach (count : Nat) (error : Error) : Decoder Symbol Error Unit := fun data offset =>
  if data.length < offset + count then .throws error else .value ((), offset)

/-- Throw unless exactly that many symbols are left. -/
def requireExactly (count : Nat) (error : Error) : Decoder Symbol Error Unit := fun data offset =>
  if sizeSum offset count ≠ data.length then .throws error else .value ((), offset)

/-- A loop with a counter. -/
def many (decoder : Decoder Symbol Error Value) : Nat -> Decoder Symbol Error (List Value)
  | 0 => pure []
  | count + 1 => do
      let first <- decoder
      let others <- many decoder count
      return first :: others

/-- From the start of a vector. -/
def run (decoder : Decoder Symbol Error Value) (data : List Symbol) : Outcome Error Value :=
  (decoder data 0).map Prod.fst

end Decoder

/-! ## What a decoder consumes -/

open Decoder

variable {Symbol Error Value Result Item : Type} {decoder : Decoder Symbol Error Value}
  {written left right after : List Symbol} {value : Value} {result : Result}

/-- In front of `written ++ after` the decoder takes what was written and leaves the value. -/
def Consumes (decoder : Decoder Symbol Error Value) (written after : List Symbol) (value : Value) : Prop :=
  forall before : List Symbol, (before ++ (written ++ after)).length < 2 ^ 64 ->
    decoder (before ++ (written ++ after)) before.length = .value (value, before.length + written.length)

/-- From the start of a vector, with symbols that are not looked at behind. -/
theorem Consumes.run_append (consumes : Consumes decoder written after value)
    (short : (written ++ after).length < 2 ^ 64) : decoder.run (written ++ after) = .value value := by
  have start := consumes [] short
  unfold Decoder.run
  exact congrArg (Outcome.map Prod.fst) start

theorem Consumes.run_eq (consumes : Consumes decoder written [] value) (short : written.length < 2 ^ 64) :
    decoder.run written = .value value := by
  rw [← List.append_nil written] at short ⊢
  exact consumes.run_append short

theorem Consumes.pure (value : Value) (after : List Symbol) :
    Consumes (Pure.pure value : Decoder Symbol Error Value) [] after value := fun _ _ => rfl

theorem Consumes.bind {next : Value -> Decoder Symbol Error Result}
    (first : Consumes decoder left (right ++ after) value)
    (second : Consumes (next value) right after result) : Consumes (decoder >>= next) (left ++ right) after result := by
  intro before short
  have place : before ++ (left ++ right ++ after) = (before ++ left) ++ (right ++ after) := by
    simp only [List.append_assoc]
  have whole : before ++ (left ++ right ++ after) = before ++ (left ++ (right ++ after)) := by
    rw [List.append_assoc left]
  have reached := first before (whole ▸ short)
  have ends := second (before ++ left) (place ▸ short)
  change ((decoder (before ++ (left ++ right ++ after)) before.length).bind fun reached =>
    next reached.1 (before ++ (left ++ right ++ after)) reached.2) = _
  rw [whole, reached, ← whole, place, ← List.length_append]
  refine Eq.trans ends ?_
  rw [List.length_append, List.length_append, Nat.add_assoc]

/-- The last field of a record. -/
theorem Consumes.last {build : Value -> Result} (consumes : Consumes decoder written after value) :
    Consumes (decoder >>= fun value => Pure.pure (build value)) written after (build value) := by
  have whole : Consumes (decoder >>= fun value => Pure.pure (build value)) (written ++ []) after (build value) :=
    Consumes.bind consumes (Consumes.pure (build value) after)
  rw [List.append_nil] at whole
  exact whole

/-- What does not read is done in between. -/
theorem Consumes.between {next : Value -> Decoder Symbol Error Result}
    (first : Consumes decoder [] (written ++ after) value)
    (second : Consumes (next value) written after result) : Consumes (decoder >>= next) written after result :=
  first.bind second

theorem Consumes.lift {outcome : Outcome Error Value} (ends : outcome = .value value) (after : List Symbol) :
    Consumes (Decoder.lift outcome : Decoder Symbol Error Value) [] after value := by
  intro before _
  rw [ends]
  rfl

/-- A slice that another function decodes. -/
theorem Consumes.parsed {decoder : Decoder Symbol Error (List Symbol)} {parse : List Symbol -> Outcome Error Result}
    (consumes : Consumes decoder written after written) (ends : parse written = .value result) :
    Consumes (decoder >>= fun symbols => Decoder.lift (parse symbols)) written after result := by
  have whole : Consumes (decoder >>= fun symbols => Decoder.lift (parse symbols)) (written ++ []) after result :=
    Consumes.bind consumes (Consumes.lift ends after)
  rw [List.append_nil] at whole
  exact whole

theorem sizeSum_of_lt {offset count : Nat} (short : offset + count < 2 ^ 64) : sizeSum offset count = offset + count :=
  Nat.mod_eq_of_lt short

theorem Consumes.slice {count : Nat} (sized : written.length = count) (after : List Symbol) :
    Consumes (Decoder.slice count : Decoder Symbol Error (List Symbol)) written after written := by
  intro before short
  rw [List.length_append, List.length_append] at short
  have stop : sizeSum before.length count = before.length + written.length := by
    rw [← sized]
    exact sizeSum_of_lt (by omega)
  have inside : before.length ≤ before.length + written.length ∧
      before.length + written.length ≤ (before ++ (written ++ after)).length := by
    rw [List.length_append, List.length_append]
    omega
  unfold Decoder.slice
  rw [stop, if_pos inside, List.drop_left, Nat.add_sub_cancel_left, List.take_left]

theorem Consumes.rest (written : List Symbol) :
    Consumes (Decoder.rest : Decoder Symbol Error (List Symbol)) written [] written := by
  intro before _
  have inside : before.length ≤ (before ++ (written ++ [])).length := by
    rw [List.length_append]
    exact Nat.le_add_right _ _
  unfold Decoder.rest
  rw [if_pos inside, List.drop_left, List.length_append, List.append_nil]

theorem Consumes.peek (after : List Symbol) :
    Consumes (Decoder.peek : Decoder Symbol Error (Option Symbol)) [] after after.head? := by
  intro before _
  have found : (before ++ ([] ++ after))[before.length]? = after.head? := by
    rw [List.nil_append, List.getElem?_append_right (Nat.le_refl _), Nat.sub_self, List.head?_eq_getElem?]
  unfold Decoder.peek
  rw [found]
  rfl

theorem Consumes.require {count : Nat} (enough : count ≤ after.length) (error : Error) :
    Consumes (Decoder.require count error : Decoder Symbol Error Unit) [] after () := by
  intro before short
  rw [List.nil_append, List.length_append] at short
  unfold Decoder.require
  rw [sizeSum_of_lt (by omega), if_neg]
  · rfl
  · rw [List.nil_append, List.length_append]
    omega

theorem Consumes.requireEach {count : Nat} (enough : count ≤ after.length) (error : Error) :
    Consumes (Decoder.requireEach count error : Decoder Symbol Error Unit) [] after () := by
  intro before _
  unfold Decoder.requireEach
  rw [if_neg]
  · rfl
  · rw [List.nil_append, List.length_append]
    omega

theorem Consumes.requireExactly {count : Nat} (ends : count = after.length) (error : Error) :
    Consumes (Decoder.requireExactly count error : Decoder Symbol Error Unit) [] after () := by
  intro before short
  rw [List.nil_append, List.length_append] at short
  unfold Decoder.requireExactly
  rw [List.nil_append, List.length_append, ends, sizeSum_of_lt short, if_neg (not_not.mpr rfl)]
  rfl

/-- Encodings of one size. -/
theorem length_flatMap_of_size {write : Item -> List Symbol} {size : Nat} (items : List Item)
    (sized : forall item, (write item).length = size) : (items.flatMap write).length = size * items.length := by
  rw [List.length_flatMap, List.map_congr_left fun item _ => sized item, List.map_const', List.sum_replicate,
    smul_eq_mul, Nat.mul_comm]

/-- A loop takes the encodings of its items one after the other. -/
theorem Consumes.many {decoder : Decoder Symbol Error Item} {write : Item -> List Symbol} {items : List Item}
    (each : forall item, item ∈ items -> forall after, Consumes decoder (write item) after item) (after : List Symbol) :
    Consumes (Decoder.many decoder items.length) (items.flatMap write) after items := by
  induction items with
  | nil => exact Consumes.pure [] after
  | cons item others inductionHypothesis =>
      rw [List.forall_mem_cons] at each
      rw [List.flatMap_cons]
      exact Consumes.bind (each.1 _) (Consumes.last (inductionHypothesis each.2))

/-! ## What a decoder refuses -/

/-- In front of the end `after` of the vector the decoder throws. -/
def Refuses (decoder : Decoder Symbol Error Value) (after : List Symbol) (error : Error) : Prop :=
  forall before : List Symbol, (before ++ after).length < 2 ^ 64 ->
    decoder (before ++ after) before.length = .throws error

theorem Refuses.run_eq {error : Error} (refuses : Refuses decoder written error) (short : written.length < 2 ^ 64) :
    decoder.run written = .throws error := by
  have start := refuses [] short
  unfold Decoder.run
  exact congrArg (Outcome.map Prod.fst) start

/-- An error behind what has been read. -/
theorem Consumes.refuses {next : Value -> Decoder Symbol Error Result} {error : Error}
    (first : Consumes decoder left right value) (second : Refuses (next value) right error) :
    Refuses (decoder >>= next) (left ++ right) error := by
  intro before short
  have reached := first before short
  rw [← List.append_assoc] at short
  have ends := second (before ++ left) short
  change ((decoder (before ++ (left ++ right)) before.length).bind fun reached =>
    next reached.1 (before ++ (left ++ right)) reached.2) = _
  rw [reached, ← List.append_assoc, ← List.length_append]
  exact ends

theorem Refuses.bind {next : Value -> Decoder Symbol Error Result} {error : Error}
    (refuses : Refuses decoder after error) : Refuses (decoder >>= next) after error := by
  intro before short
  change (decoder (before ++ after) before.length).bind _ = _
  rw [refuses before short]
  rfl

theorem Refuses.requireExactly {count : Nat} (small : count < 2 ^ 64) (differs : count ≠ after.length) (error : Error) :
    Refuses (Decoder.requireExactly count error : Decoder Symbol Error Unit) after error := by
  intro before short
  rw [List.length_append] at short
  have mismatch : sizeSum before.length count ≠ (before ++ after).length := by
    rw [List.length_append]
    unfold sizeSum
    omega
  exact if_pos mismatch

end Decoding
end Library
