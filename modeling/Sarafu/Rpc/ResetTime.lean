import Sarafu.Rpc.RateLimiter

namespace Sarafu
namespace Rpc

open Crypto Library Library.Runs RateLimiter

/-!
# The advertised reset time

A rejected client is told how many seconds to wait.  The number is rounded up, and the oldest
request counts as expired when it is exactly one time window old.  The clean-up still keeps
it then, so a client that waits exactly as long as told may be rejected again.

A window that is too long for the clock is of no matter, since no client can wait until it
ends.  A negative window is: nothing is to be waited for then, while the clean-up goes back in
time if the reading of the clock less the window overflows.
-/

/-- The calls that leave the configuration as it is, with the readings of the clock. -/
inductive LimiterCall
  | allowRequest (request : Request)
  | getRequestCount (ipAddress : IpAddress)
  | getTimeUntilReset (ipAddress : IpAddress) (now : Int)
  | clearIP (ipAddress : IpAddress)
  | clearAll

namespace LimiterCall

def readings : LimiterCall -> List Int
  | allowRequest request => [request.cleanedAt, request.recordedAt]
  | getTimeUntilReset _ now => [now]
  | getRequestCount _ => []
  | clearIP _ => []
  | clearAll => []

/-- The call removes the history of the address. -/
def Clears (ipAddress : IpAddress) : LimiterCall -> Prop
  | clearIP other => other = ipAddress
  | clearAll => True
  | allowRequest _ => False
  | getTimeUntilReset _ _ => False
  | getRequestCount _ => False

end LimiterCall

instance LimiterCall.decidableClears (ipAddress : IpAddress) :
    forall step, Decidable (LimiterCall.Clears ipAddress step)
  | .clearIP other => inferInstanceAs (Decidable (other = ipAddress))
  | .clearAll => inferInstanceAs (Decidable True)
  | .allowRequest _ => inferInstanceAs (Decidable False)
  | .getTimeUntilReset _ _ => inferInstanceAs (Decidable False)
  | .getRequestCount _ => inferInstanceAs (Decidable False)

/-- The readings of the clock do not decrease from one call to the next. -/
def InOrder (calls : List LimiterCall) : Prop :=
  (calls.flatMap LimiterCall.readings).Pairwise fun earlier later => earlier ≤ later

theorem InOrder.le {before after : List LimiterCall} (inOrder : InOrder (before ++ after)) {earlier later : Int}
    (first : earlier ∈ before.flatMap LimiterCall.readings) (second : later ∈ after.flatMap LimiterCall.readings) :
    earlier ≤ later := by
  unfold InOrder at inOrder
  rw [List.flatMap_append] at inOrder
  exact (List.pairwise_append.mp inOrder).2.2 earlier first later second

theorem InOrder.before {before after : List LimiterCall} (inOrder : InOrder (before ++ after)) : InOrder before := by
  unfold InOrder at inOrder
  rw [List.flatMap_append] at inOrder
  exact (List.pairwise_append.mp inOrder).1

instance (calls : List LimiterCall) : Decidable (InOrder calls) := inferInstanceAs (Decidable (List.Pairwise _ _))

def Cleared (ipAddress : IpAddress) (calls : List LimiterCall) : Prop :=
  ∃ step, step ∈ calls ∧ step.Clears ipAddress

instance (ipAddress : IpAddress) (calls : List LimiterCall) : Decidable (Cleared ipAddress calls) :=
  inferInstanceAs (Decidable (∃ step, step ∈ calls ∧ _))

theorem cleared_cons {ipAddress : IpAddress} {step : LimiterCall} {rest : List LimiterCall} :
    Cleared ipAddress (step :: rest) <-> step.Clears ipAddress ∨ Cleared ipAddress rest :=
  List.exists_mem_cons_iff _ _ _

namespace RateLimiter

variable (resolution : Resolution)

def call (limiter : RateLimiter) : LimiterCall -> RateLimiter
  | .allowRequest request => limiter.allow resolution request
  | .getRequestCount _ => limiter
  | .getTimeUntilReset _ _ => limiter
  | .clearIP ipAddress => limiter.clearIP ipAddress
  | .clearAll => limiter.clearAll

def afterCalls (config : RateLimitConfig) (calls : List LimiterCall) : RateLimiter :=
  run (call resolution) (create config) calls

/-- The call is no request of the address that is allowed. -/
def Idle (ipAddress : IpAddress) (limiter : RateLimiter) (step : LimiterCall) : Prop :=
  forall request, step = .allowRequest request -> request.ipAddress = ipAddress ->
    (limiter.allowRequest resolution request).1 = false

def oldestRequest (limiter : RateLimiter) (ipAddress : IpAddress) : Option Int := (limiter.historyOf ipAddress).head?

variable {resolution} {config : RateLimitConfig} {limiter : RateLimiter} {ipAddress : IpAddress}

theorem historyOf_clearIP (limiter : RateLimiter) (ipAddress other : IpAddress) :
    (limiter.clearIP ipAddress).historyOf other = if other = ipAddress then [] else limiter.historyOf other := by
  unfold historyOf clearIP
  rw [OrderedMap.find_erase]
  split
  · rfl
  · rfl

theorem historyOf_clearAll (limiter : RateLimiter) (ipAddress : IpAddress) :
    limiter.clearAll.historyOf ipAddress = [] := historyOf_create ipAddress limiter.config

theorem config_call (limiter : RateLimiter) (step : LimiterCall) :
    (limiter.call resolution step).config = limiter.config := by
  cases step with
  | allowRequest request => exact config_allowRequest limiter request
  | getRequestCount ipAddress => rfl
  | getTimeUntilReset ipAddress now => rfl
  | clearIP ipAddress => rfl
  | clearAll => rfl

theorem config_calls (limiter : RateLimiter) (calls : List LimiterCall) :
    (run (call resolution) limiter calls).config = limiter.config := by
  induction calls generalizing limiter with
  | nil => rfl
  | cons step rest inductionHypothesis => rw [run_cons, inductionHypothesis, config_call]

/-- What a property of histories needs to hold after every call. -/
theorem historyOf_call_induction (property : List Int -> Prop) (step : LimiterCall)
    (empty : property []) (old : property (limiter.historyOf ipAddress))
    (stepped : forall request, step = .allowRequest request -> request.ipAddress = ipAddress ->
      property ((rule resolution limiter.config).step (limiter.historyOf ipAddress) request)) :
    property ((limiter.call resolution step).historyOf ipAddress) := by
  cases step with
  | allowRequest request =>
      change property ((limiter.allowRequest resolution request).2.historyOf ipAddress)
      rw [historyOf_allowRequest]
      split
      · rename_i own
        exact stepped request rfl own.symm
      · exact old
  | getRequestCount other => exact old
  | getTimeUntilReset other now => exact old
  | clearIP other =>
      change property ((limiter.clearIP other).historyOf ipAddress)
      rw [historyOf_clearIP]
      split
      · exact empty
      · exact old
  | clearAll =>
      change property (limiter.clearAll.historyOf ipAddress)
      rw [historyOf_clearAll]
      exact empty

/-- What holds after every sequence of calls: the configuration is the given one, no history
is longer than the limit, and it consists of earlier readings of the clock. -/
structure Recorded (config : RateLimitConfig) (calls : List LimiterCall) (limiter : RateLimiter) : Prop where
  constant : limiter.config = config
  limited : forall ipAddress, (limiter.historyOf ipAddress).length ≤ config.maxRequestsPerWindow
  read : forall ipAddress stamp, stamp ∈ limiter.historyOf ipAddress -> stamp ∈ calls.flatMap LimiterCall.readings

theorem recorded_afterCalls (resolution : Resolution) (config : RateLimitConfig) (calls : List LimiterCall) :
    Recorded config calls (afterCalls resolution config calls) := by
  induction calls using List.reverseRecOn with
  | nil =>
      refine ⟨rfl, ?_, ?_⟩
      · intro ipAddress
        change ((create config).historyOf ipAddress).length ≤ _
        rw [historyOf_create]
        exact Nat.zero_le _
      · intro ipAddress stamp member
        change stamp ∈ (create config).historyOf ipAddress at member
        rw [historyOf_create] at member
        cases member
  | append_singleton calls step inductionHypothesis =>
      have last : afterCalls resolution config (calls ++ [step]) =
          (afterCalls resolution config calls).call resolution step := by
        unfold afterCalls
        rw [run_append]
        rfl
      rw [last]
      refine ⟨?_, ?_, ?_⟩
      · rw [config_call, inductionHypothesis.constant]
      · intro ipAddress
        refine historyOf_call_induction (fun stamps => stamps.length ≤ config.maxRequestsPerWindow) step
          (Nat.zero_le _) (inductionHypothesis.limited ipAddress) ?_
        intro request _ _
        rw [inductionHypothesis.constant]
        exact SlidingWindow.Rule.length_step_le (rule resolution config) (inductionHypothesis.limited ipAddress) request
      · intro ipAddress
        rw [List.flatMap_append]
        refine historyOf_call_induction (fun stamps => forall stamp, stamp ∈ stamps -> stamp ∈ _) step nofun ?_ ?_
        · intro stamp member
          exact List.mem_append_left _ (inductionHypothesis.read ipAddress stamp member)
        · rintro request rfl _ stamp member
          rcases SlidingWindow.Rule.mem_step _ member with old | rfl
          · exact List.mem_append_left _ (inductionHypothesis.read ipAddress stamp old)
          · refine List.mem_append_right _ ?_
            exact List.mem_append_left _ (List.mem_cons_of_mem _ List.mem_cons_self)

/-- An idle call leaves a history within the limit as it is, or clears it. -/
theorem historyOf_call_of_idle (few : (limiter.historyOf ipAddress).length ≤ limiter.config.maxRequestsPerWindow)
    {step : LimiterCall} (idle : Idle resolution ipAddress limiter step) :
    (limiter.call resolution step).historyOf ipAddress =
      if step.Clears ipAddress then [] else limiter.historyOf ipAddress := by
  cases step with
  | allowRequest request =>
      change (limiter.allowRequest resolution request).2.historyOf ipAddress = limiter.historyOf ipAddress
      rw [historyOf_allowRequest]
      split
      · rename_i own
        have refused := idle request rfl own.symm
        rw [allowRequest_fst, ← own] at refused
        exact SlidingWindow.Rule.step_of_refused (rule resolution limiter.config) few refused
      · rfl
  | getRequestCount other => rfl
  | getTimeUntilReset other now => rfl
  | clearIP other =>
      change (limiter.clearIP other).historyOf ipAddress = if other = ipAddress then [] else limiter.historyOf ipAddress
      rw [historyOf_clearIP]
      exact if_congr eq_comm rfl rfl
  | clearAll => exact historyOf_clearAll limiter ipAddress

theorem historyOf_calls_of_idle (few : (limiter.historyOf ipAddress).length ≤ limiter.config.maxRequestsPerWindow)
    {calls : List LimiterCall} (idle : Along (call resolution) (Idle resolution ipAddress) limiter calls) :
    (run (call resolution) limiter calls).historyOf ipAddress =
      if Cleared ipAddress calls then [] else limiter.historyOf ipAddress := by
  induction calls generalizing limiter with
  | nil => exact (if_neg nofun).symm
  | cons step rest inductionHypothesis =>
      have first := historyOf_call_of_idle few idle.1
      have fewer : ((limiter.call resolution step).historyOf ipAddress).length ≤
          (limiter.call resolution step).config.maxRequestsPerWindow := by
        rw [config_call, first]
        split
        · exact Nat.zero_le _
        · exact few
      rw [run_cons, inductionHypothesis fewer idle.2, first]
      by_cases behind : Cleared ipAddress rest
      · rw [if_pos behind, if_pos (cleared_cons.mpr (Or.inr behind))]
      · rw [if_neg behind]
        exact if_congr (cleared_cons.trans (or_iff_left behind)).symm rfl rfl

end RateLimiter

/-- Rounding a duration down to seconds does not lengthen it. -/
theorem Resolution.ticks_wholeSeconds_le (resolution : Resolution) {duration : Int} (positive : 0 ≤ duration) :
    resolution.ticks (resolution.wholeSeconds duration) ≤ duration := by
  unfold ticks wholeSeconds
  rw [Int.tdiv_eq_ediv_of_nonneg positive]
  exact Int.ediv_mul_le duration (Int.natCast_ne_zero.mpr (Nat.ne_of_gt resolution.positive))

theorem Resolution.wholeSeconds_nonneg (resolution : Resolution) {duration : Int} (positive : 0 ≤ duration) :
    0 ≤ resolution.wholeSeconds duration := Int.tdiv_nonneg positive (Int.natCast_nonneg _)

/-- The readings of the clock are counts, and so are the times between them. -/
structure OnClock (calls : List LimiterCall) : Prop where
  counts : forall reading, reading ∈ calls.flatMap LimiterCall.readings -> IsCount reading
  durations : forall earlier, earlier ∈ calls.flatMap LimiterCall.readings ->
    forall later, later ∈ calls.flatMap LimiterCall.readings -> earlier ≤ later -> IsCount (later - earlier)

instance (calls : List LimiterCall) : Decidable (OnClock calls) :=
  decidable_of_iff ((forall reading, reading ∈ calls.flatMap LimiterCall.readings -> IsCount reading) ∧
      forall earlier, earlier ∈ calls.flatMap LimiterCall.readings ->
        forall later, later ∈ calls.flatMap LimiterCall.readings -> earlier ≤ later -> IsCount (later - earlier))
    ⟨fun both => ⟨both.1, both.2⟩, fun clock => ⟨clock.counts, clock.durations⟩⟩

namespace RateLimiter

variable {resolution : Resolution} {config : RateLimitConfig} {limiter : RateLimiter} {ipAddress : IpAddress}

/-- Where the elapsed time is a count, nothing overflows. -/
theorem getTimeUntilReset_of_oldest {oldest now : Int} (front : limiter.oldestRequest ipAddress = some oldest)
    (past : oldest ≤ now) (counted : IsCount (now - oldest)) :
    limiter.getTimeUntilReset resolution ipAddress now =
      if limiter.config.timeWindow.toInt ≤ resolution.wholeSeconds (now - oldest) then 0
      else limiter.config.timeWindow.toInt - resolution.wholeSeconds (now - oldest) := by
  have elapsed := wrap64_of_isCount counted
  have seconds := resolution.wholeSeconds_nonneg (Int.sub_nonneg_of_le past)
  have shortest := limiter.config.timeWindow.le_toInt
  have longest := limiter.config.timeWindow.toInt_lt
  unfold oldestRequest historyOf at front
  unfold getTimeUntilReset
  cases found : limiter.requestHistory[ipAddress]? with
  | none =>
      rw [found] at front
      cases front
  | some timestamps =>
      rw [found, Option.getD_some] at front
      cases timestamps with
      | nil => cases front
      | cons stamp rest =>
          cases Option.some.inj front
          simp only [elapsed]
          split
          · rfl
          · exact wrap64_of_isCount ⟨by omega, by omega⟩

/-- The advertised time reaches the end of the window of the oldest request. -/
theorem oldest_expires (resolution : Resolution) {oldest now : Int}
    (front : limiter.oldestRequest ipAddress = some oldest) (past : oldest ≤ now) (counted : IsCount (now - oldest)) :
    oldest + limiter.config.windowTicks resolution ≤
      now + resolution.ticks (limiter.getTimeUntilReset resolution ipAddress now) := by
  have rounded := resolution.ticks_wholeSeconds_le (Int.sub_nonneg_of_le past)
  rw [getTimeUntilReset_of_oldest front past counted, RateLimitConfig.windowTicks]
  split
  · rename_i expired
    have longer : resolution.ticks limiter.config.timeWindow.toInt ≤
        resolution.ticks (resolution.wholeSeconds (now - oldest)) :=
      Int.mul_le_mul_of_nonneg_right expired (Int.natCast_nonneg _)
    unfold Resolution.ticks at longer rounded ⊢
    omega
  · unfold Resolution.ticks at rounded ⊢
    rw [Int.sub_mul]
    omega

theorem afterCalls_append (config : RateLimitConfig) (calls more : List LimiterCall) :
    afterCalls resolution config (calls ++ more) =
      run (call resolution) (afterCalls resolution config calls) more := by
  unfold afterCalls
  rw [run_append]

/-- A rejection leaves a full history. -/
theorem limit_le_length_step {request : Request}
    (refused : (limiter.allowRequest resolution request).1 = false) :
    limiter.config.maxRequestsPerWindow ≤
      ((rule resolution limiter.config).step (limiter.historyOf request.ipAddress) request).length := by
  rw [allowRequest_fst] at refused
  rw [SlidingWindow.Rule.step, refused, if_neg Bool.false_ne_true]
  exact Nat.not_lt.mp (of_decide_eq_false refused)

/-- The address has used up its requests, or it has been cleared. -/
def FullOrCleared (config : RateLimitConfig) (ipAddress : IpAddress) (limiter : RateLimiter) : Prop :=
  limiter.config = config ∧ (limiter.historyOf ipAddress = [] ∨
    config.maxRequestsPerWindow ≤ (limiter.historyOf ipAddress).length)

theorem fullOrCleared_call {step : LimiterCall} (full : FullOrCleared config ipAddress limiter)
    (idle : Idle resolution ipAddress limiter step) :
    FullOrCleared config ipAddress (limiter.call resolution step) := by
  rcases full with ⟨rfl, history⟩
  refine ⟨config_call limiter step, ?_⟩
  refine historyOf_call_induction
    (fun stamps => stamps = [] ∨ limiter.config.maxRequestsPerWindow ≤ stamps.length) step (Or.inl rfl) history ?_
  rintro request rfl rfl
  exact Or.inr (limit_le_length_step (idle request rfl rfl))

/-- So it is after a rejection, as long as no request of the address is allowed. -/
theorem fullOrCleared_afterCalls {history meanwhile : List LimiterCall} {rejected : Request}
    (refused : ((afterCalls resolution config history).allowRequest resolution rejected).1 = false)
    (idle : Along (call resolution) (Idle resolution rejected.ipAddress)
      (afterCalls resolution config (history ++ [.allowRequest rejected])) meanwhile) :
    FullOrCleared config rejected.ipAddress
      (afterCalls resolution config (history ++ .allowRequest rejected :: meanwhile)) := by
  have constant := (recorded_afterCalls resolution config history).constant
  rw [afterCalls_append, run_cons] at idle ⊢
  rw [run_nil] at idle
  generalize afterCalls resolution config history = limiter at refused idle constant ⊢
  subst constant
  refine invariant_run (FullOrCleared limiter.config rejected.ipAddress) (fun _ _ => fullOrCleared_call) ?_ idle
  refine ⟨config_call limiter (.allowRequest rejected), Or.inr ?_⟩
  change _ ≤ ((limiter.allowRequest resolution rejected).2.historyOf rejected.ipAddress).length
  rw [historyOf_allowRequest, if_pos rfl]
  exact limit_le_length_step refused

/-- A request that comes after idle calls sees what they have left of the history. -/
theorem allowRequest_calls {calls : List LimiterCall} {request : Request}
    (few : (limiter.historyOf request.ipAddress).length ≤ limiter.config.maxRequestsPerWindow)
    (idle : Along (call resolution) (Idle resolution request.ipAddress) limiter calls) :
    ((run (call resolution) limiter calls).allowRequest resolution request).1 =
      decide ((SlidingWindow.forget (cutoff resolution limiter.config request.cleanedAt)
        (if Cleared request.ipAddress calls then [] else limiter.historyOf request.ipAddress)).length <
          limiter.config.maxRequestsPerWindow) := by
  rw [allowRequest_fst, config_calls, ← historyOf_calls_of_idle few idle]
  rfl

/-- There is room in a history that was full as soon as its oldest request is forgotten. -/
theorem length_forget_lt_iff {limit : Nat} {cutoff : Int} (positive : 0 < limit)
    (full : limiter.historyOf ipAddress = [] ∨ limit = (limiter.historyOf ipAddress).length) :
    (SlidingWindow.forget cutoff (limiter.historyOf ipAddress)).length < limit <->
      forall oldest, limiter.oldestRequest ipAddress = some oldest -> oldest < cutoff := by
  unfold oldestRequest
  cases stamps : limiter.historyOf ipAddress with
  | nil => exact iff_of_true positive nofun
  | cons oldest rest =>
      rw [stamps] at full
      rw [full.resolve_left nofun, SlidingWindow.length_forget_cons_lt_iff, List.head?_cons]
      exact ⟨fun before _ same => Option.some.inj same ▸ before, fun all => all oldest rfl⟩

/-- Once the window of the oldest request is over, the clean-up comes exactly too early or the
start of the new window overflows. -/
theorem before_cutoff_iff (resolution : Resolution) (config : RateLimitConfig) {now : Int} {front : Option Int}
    (readings : forall oldest, front = some oldest -> IsCount oldest)
    (expired : forall oldest, front = some oldest -> oldest ≤ now - config.windowTicks resolution) :
    (forall oldest, front = some oldest -> oldest < cutoff resolution config now) <->
      front ≠ some (now - config.windowTicks resolution) ∧
        (2 ^ 63 ≤ now - config.windowTicks resolution ->
          forall oldest, front = some oldest -> oldest < cutoff resolution config now) := by
  cases front with
  | none => exact iff_of_true nofun ⟨nofun, nofun⟩
  | some oldest =>
      rcases readings oldest rfl with ⟨start, bound⟩
      have passed := expired oldest rfl
      by_cases fits : now - config.windowTicks resolution < 2 ^ 63
      · have counted : cutoff resolution config now = now - config.windowTicks resolution := by
          rw [cutoff_eq]
          exact wrap64_of_isCount ⟨by omega, fits⟩
        simp only [counted, Option.some.injEq, ne_eq, forall_eq', not_le.mpr fits, false_implies, and_true]
        exact passed.lt_iff_ne
      · have different : oldest ≠ now - config.windowTicks resolution := by omega
        simp only [Option.some.injEq, ne_eq, different, not_false_eq_true, true_and, not_lt.mp fits, forall_const]

end RateLimiter

/-- After some history a request is rejected, then the client asks for the time until the
reset, and a second request comes when that time has passed.  No request of the address is
allowed in between. -/
structure Waits (resolution : Resolution) (config : RateLimitConfig) (history meanwhile between : List LimiterCall)
    (rejected again : Request) (now : Int) : Prop where
  sameAddress : again.ipAddress = rejected.ipAddress
  inOrder : InOrder (history ++ .allowRequest rejected :: meanwhile ++
    .getTimeUntilReset rejected.ipAddress now :: between ++ [.allowRequest again])
  onClock : OnClock (history ++ .allowRequest rejected :: meanwhile ++
    .getTimeUntilReset rejected.ipAddress now :: between ++ [.allowRequest again])
  refused : ((afterCalls resolution config history).allowRequest resolution rejected).1 = false
  idleMeanwhile : Along (call resolution) (Idle resolution rejected.ipAddress)
    (afterCalls resolution config (history ++ [.allowRequest rejected])) meanwhile
  idleBetween : Along (call resolution) (Idle resolution rejected.ipAddress)
    (afterCalls resolution config (history ++ .allowRequest rejected :: meanwhile)) between
  waited : now + resolution.ticks
    ((afterCalls resolution config (history ++ .allowRequest rejected :: meanwhile)).getTimeUntilReset
      resolution rejected.ipAddress now) ≤ again.cleanedAt

/-- The second request is allowed unless it comes exactly one time window after the oldest
request that was recorded, and the address has not been cleared.  Where the start of the
window of the second request overflows, the oldest request has to lie before what is left. -/
theorem resetTime_suffices_iff (resolution : Resolution) (config : RateLimitConfig)
    (positive : 0 < config.maxRequestsPerWindow) (history meanwhile between : List LimiterCall)
    (rejected again : Request) (now : Int)
    (waits : Waits resolution config history meanwhile between rejected again now) :
    ((afterCalls resolution config (history ++ .allowRequest rejected :: meanwhile ++
        .getTimeUntilReset rejected.ipAddress now :: between)).allowRequest resolution again).1 = true <->
      Cleared rejected.ipAddress between ∨
        (afterCalls resolution config (history ++ .allowRequest rejected :: meanwhile)).oldestRequest
            rejected.ipAddress ≠ some (again.cleanedAt - config.windowTicks resolution) ∧
          (2 ^ 63 ≤ again.cleanedAt - config.windowTicks resolution -> forall oldest,
            (afterCalls resolution config (history ++ .allowRequest rejected :: meanwhile)).oldestRequest
              rejected.ipAddress = some oldest -> oldest < cutoff resolution config again.cleanedAt) := by
  have recorded := recorded_afterCalls resolution config (history ++ .allowRequest rejected :: meanwhile)
  have used := (fullOrCleared_afterCalls waits.refused waits.idleMeanwhile).2
  have waited := waits.waited
  have idle := waits.idleBetween
  have earlier : forall reading,
      reading ∈ (history ++ .allowRequest rejected :: meanwhile).flatMap LimiterCall.readings ->
      IsCount reading ∧ reading ≤ now ∧ IsCount (now - reading) := by
    intro reading member
    have ordered := waits.inOrder.before.le member List.mem_cons_self
    refine ⟨waits.onClock.counts reading ?read, ordered, waits.onClock.durations reading ?read now ?asked ordered⟩
    case read =>
      rw [List.flatMap_append, List.flatMap_append]
      exact List.mem_append_left _ (List.mem_append_left _ member)
    case asked =>
      rw [List.flatMap_append, List.flatMap_append, List.flatMap_cons]
      exact List.mem_append_left _ (List.mem_append_right _ (List.mem_append_left _ List.mem_cons_self))
  rw [afterCalls_append, run_cons]
  generalize afterCalls resolution config (history ++ .allowRequest rejected :: meanwhile) = limiter at *
  rw [← waits.sameAddress] at idle used waited ⊢
  have few := recorded.limited again.ipAddress
  have full : limiter.historyOf again.ipAddress = [] ∨
      config.maxRequestsPerWindow = (limiter.historyOf again.ipAddress).length :=
    used.imp_right fun many => Nat.le_antisymm many few
  have stamped : forall oldest, limiter.oldestRequest again.ipAddress = some oldest ->
      IsCount oldest ∧ oldest ≤ now ∧ IsCount (now - oldest) := fun oldest front =>
    earlier oldest (recorded.read again.ipAddress oldest (List.mem_of_head? front))
  have expired : forall oldest, limiter.oldestRequest again.ipAddress = some oldest ->
      oldest ≤ again.cleanedAt - config.windowTicks resolution := by
    intro oldest front
    have expires := oldest_expires resolution front (stamped oldest front).2.1 (stamped oldest front).2.2
    rw [recorded.constant] at expires
    exact Int.le_sub_right_of_add_le (Int.le_trans expires waited)
  rw [← recorded.constant] at few
  have result := allowRequest_calls few idle
  rw [recorded.constant] at result
  change ((run (call resolution) limiter between).allowRequest resolution again).1 = true <-> _
  rw [result, decide_eq_true_iff]
  by_cases cleared : Cleared again.ipAddress between
  · rw [if_pos cleared]
    exact iff_of_true positive (Or.inl cleared)
  · rw [if_neg cleared, or_iff_right cleared, length_forget_lt_iff positive full]
    exact before_cutoff_iff resolution config (fun oldest front => (stamped oldest front).1) expired

/-- One request in a minute is allowed, on a clock that counts seconds.  The second one comes
after ten seconds and is told to wait for fifty. -/
def toldToWait (again : Request) : Prop :=
  Waits ⟨1, by decide⟩ ⟨1, 60⟩ [.allowRequest ⟨[1], 0, 0⟩] [] [] ⟨[1], 10, 10⟩ again 10

theorem resetTime_suffices_iff_toldToWait : toldToWait ⟨[1], 61, 61⟩ ∧
    ((afterCalls ⟨1, by decide⟩ ⟨1, 60⟩ [.allowRequest ⟨[1], 0, 0⟩, .allowRequest ⟨[1], 10, 10⟩,
      .getTimeUntilReset [1] 10]).allowRequest ⟨1, by decide⟩ ⟨[1], 61, 61⟩).1 = true := by
  have waits : toldToWait ⟨[1], 61, 61⟩ :=
    ⟨rfl, by decide, by decide, by decide +kernel, trivial, trivial, by decide +kernel⟩
  have fits : ¬(2 : Int) ^ 63 ≤ 61 - RateLimitConfig.windowTicks ⟨1, 60⟩ ⟨1, by decide⟩ := by decide +kernel
  exact ⟨waits, (resetTime_suffices_iff _ _ (by decide) _ _ _ _ _ _ waits).mpr
    (Or.inr ⟨by decide +kernel, fun overflows => absurd overflows fits⟩)⟩

/-- Who waits exactly as long as told is rejected again. -/
theorem waiting_as_told_rejected : toldToWait ⟨[1], 60, 60⟩ ∧
    (afterCalls ⟨1, by decide⟩ ⟨1, 60⟩ [.allowRequest ⟨[1], 0, 0⟩, .allowRequest ⟨[1], 10, 10⟩]).getTimeUntilReset
      ⟨1, by decide⟩ [1] 10 = 50 ∧
    ((afterCalls ⟨1, by decide⟩ ⟨1, 60⟩ [.allowRequest ⟨[1], 0, 0⟩, .allowRequest ⟨[1], 10, 10⟩,
      .getTimeUntilReset [1] 10]).allowRequest ⟨1, by decide⟩ ⟨[1], 60, 60⟩).1 = false :=
  ⟨⟨rfl, by decide, by decide, by decide +kernel, trivial, trivial, by decide +kernel⟩, by decide +kernel,
    by decide +kernel⟩

end Rpc
end Sarafu
