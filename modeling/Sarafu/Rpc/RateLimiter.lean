import Sarafu.Crypto.Bytes
import Sarafu.Library.Histories
import Sarafu.Library.SlidingWindow

namespace Sarafu
namespace Rpc

open Crypto Library Library.Runs

/-!
# The rate limiter

For each IP address the limiter keeps the times of the requests that it has allowed, the
oldest one first.  `AllowRequest` reads the steady clock to drop the times that lie outside
of the time window, and an allowed request is recorded with a second reading.

Times and durations of the clock are counted in ticks.  A second has a fixed number of ticks,
and a clock that is coarser than that skips ticks.  The counts are signed integers of 64 bits,
as is the number of seconds of the time window, and an overflow leaves them modulo `2^64`.
-/

/-- A `std::string`, in bytes. -/
abbrev IpAddress := List UInt8

structure Resolution where
  ticksPerSecond : Nat
  positive : 0 < ticksPerSecond

namespace Resolution

/-- A number of seconds, in ticks. -/
def ticks (resolution : Resolution) (seconds : Int) : Int := seconds * resolution.ticksPerSecond

/-- `duration_cast<seconds>` rounds towards zero. -/
def wholeSeconds (resolution : Resolution) (duration : Int) : Int := duration.tdiv resolution.ticksPerSecond

end Resolution

/-- A signed result in 64 bits. -/
def wrap64 (count : Int) : Int := count.bmod (2 ^ 64)

/-- A number that is a count of the clock. -/
def IsCount (count : Int) : Prop := -2 ^ 63 ≤ count ∧ count < 2 ^ 63

instance (count : Int) : Decidable (IsCount count) := inferInstanceAs (Decidable (_ ∧ _))

theorem wrap64_of_isCount {count : Int} (fits : IsCount count) : wrap64 count = count := by
  rcases fits with ⟨above, below⟩
  exact Int.bmod_eq_of_le (by omega) (by omega)

/-- The time window is given in seconds. -/
structure RateLimitConfig where
  maxRequestsPerWindow : Nat
  timeWindow : Int64

/-- The time window as it is meant, in ticks. -/
def RateLimitConfig.windowTicks (config : RateLimitConfig) (resolution : Resolution) : Int :=
  resolution.ticks config.timeWindow.toInt

/-- A request, with the two readings of the clock.  The second one is taken only if the request
is allowed. -/
structure Request where
  ipAddress : IpAddress
  cleanedAt : Int
  recordedAt : Int
deriving DecidableEq

structure RateLimiter where
  config : RateLimitConfig
  requestHistory : OrderedMap IpAddress (List Int)

namespace RateLimiter

/-- The constructor. -/
def create (config : RateLimitConfig) : RateLimiter := ⟨config, ∅⟩

/-- `request_history_[ip_address]`. -/
def historyOf (limiter : RateLimiter) (ipAddress : IpAddress) : List Int :=
  (limiter.requestHistory[ipAddress]?).getD []

def store (limiter : RateLimiter) (ipAddress : IpAddress) (timestamps : List Int) : RateLimiter :=
  { limiter with requestHistory := limiter.requestHistory.insert ipAddress timestamps }

/-- The loop that removes timestamps from the front. -/
def popBefore (cutoff : Int) : List Int -> List Int
  | [] => []
  | front :: rest => if front < cutoff then popBefore cutoff rest else front :: rest

variable (resolution : Resolution)

/-- `now - config_.time_window`. -/
def cutoff (config : RateLimitConfig) (now : Int) : Int := wrap64 (now - wrap64 (config.windowTicks resolution))

def cleanupOldRequests (config : RateLimitConfig) (now : Int) (timestamps : List Int) : List Int :=
  popBefore (cutoff resolution config now) timestamps

/-- The result, and the limiter with the cleaned history. -/
def allowRequest (limiter : RateLimiter) (request : Request) : Bool × RateLimiter :=
  let timestamps := cleanupOldRequests resolution limiter.config request.cleanedAt (limiter.historyOf request.ipAddress)
  if limiter.config.maxRequestsPerWindow ≤ timestamps.length then (false, limiter.store request.ipAddress timestamps)
  else (true, limiter.store request.ipAddress (timestamps ++ [request.recordedAt]))

def getRequestCount (limiter : RateLimiter) (ipAddress : IpAddress) : Nat :=
  match limiter.requestHistory[ipAddress]? with
  | none => 0
  | some timestamps => timestamps.length

/-- In seconds. -/
def getTimeUntilReset (limiter : RateLimiter) (ipAddress : IpAddress) (now : Int) : Int :=
  match limiter.requestHistory[ipAddress]? with
  | none => 0
  | some [] => 0
  | some (oldestRequest :: _) =>
      let elapsed := resolution.wholeSeconds (wrap64 (now - oldestRequest))
      if limiter.config.timeWindow.toInt ≤ elapsed then 0 else wrap64 (limiter.config.timeWindow.toInt - elapsed)

def clearIP (limiter : RateLimiter) (ipAddress : IpAddress) : RateLimiter :=
  { limiter with requestHistory := limiter.requestHistory.erase ipAddress }

def clearAll (limiter : RateLimiter) : RateLimiter := { limiter with requestHistory := ∅ }

/-! ## One history is a sliding window -/

/-- The limit of a configuration, as a rule on requests. -/
def rule (config : RateLimitConfig) : SlidingWindow.Rule Request Int :=
  ⟨Request.cleanedAt, Request.recordedAt, config.maxRequestsPerWindow,
    fun request => cutoff resolution config request.cleanedAt⟩

variable {resolution} (limiter : RateLimiter) (request : Request) (ipAddress : IpAddress)

/-- The window is subtracted modulo `2^64`, however often it wraps around before that. -/
theorem cutoff_eq (config : RateLimitConfig) (now : Int) :
    cutoff resolution config now = wrap64 (now - config.windowTicks resolution) := Int.sub_bmod_bmod

theorem popBefore_eq_forget (cutoff : Int) (timestamps : List Int) :
    popBefore cutoff timestamps = SlidingWindow.forget cutoff timestamps := by
  induction timestamps with
  | nil => rfl
  | cons front rest inductionHypothesis =>
      rw [popBefore]
      split
      · rename_i before
        rw [SlidingWindow.forget_cons_of_lt before, inductionHypothesis]
      · rename_i within
        rw [SlidingWindow.forget_cons_of_le (Int.not_lt.mp within)]

theorem historyOf_create (config : RateLimitConfig) : (create config).historyOf ipAddress = [] := by
  unfold historyOf create
  rw [Std.ExtTreeMap.getElem?_empty]
  rfl

theorem historyOf_store (timestamps : List Int) (other : IpAddress) :
    (limiter.store ipAddress timestamps).historyOf other =
      if other = ipAddress then timestamps else limiter.historyOf other := by
  unfold historyOf store
  rw [OrderedMap.find_insert]
  split
  · rfl
  · rfl

/-- A request is allowed as the rule grants it, and the history of its address takes one
step. -/
theorem allowRequest_eq : limiter.allowRequest resolution request =
    ((rule resolution limiter.config).grants (limiter.historyOf request.ipAddress) request,
      limiter.store request.ipAddress
        ((rule resolution limiter.config).step (limiter.historyOf request.ipAddress) request)) := by
  have kept : cleanupOldRequests resolution limiter.config request.cleanedAt (limiter.historyOf request.ipAddress) =
      (rule resolution limiter.config).kept (limiter.historyOf request.ipAddress) request := popBefore_eq_forget _ _
  unfold allowRequest SlidingWindow.Rule.step
  rw [kept]
  cases fits : (rule resolution limiter.config).grants (limiter.historyOf request.ipAddress) request with
  | false => exact if_pos (Nat.not_lt.mp (of_decide_eq_false fits))
  | true => exact if_neg (Nat.not_le.mpr (of_decide_eq_true fits))

theorem allowRequest_fst : (limiter.allowRequest resolution request).1 =
    (rule resolution limiter.config).grants (limiter.historyOf request.ipAddress) request := by
  rw [allowRequest_eq]

theorem historyOf_allowRequest : ((limiter.allowRequest resolution request).2).historyOf ipAddress =
    if ipAddress = request.ipAddress then (rule resolution limiter.config).step (limiter.historyOf ipAddress) request
    else limiter.historyOf ipAddress := by
  rw [allowRequest_eq, historyOf_store]
  split
  · rename_i same
    rw [same]
  · rfl

theorem config_allowRequest : (limiter.allowRequest resolution request).2.config = limiter.config := by
  rw [allowRequest_eq]
  rfl

end RateLimiter

/-! ## Sequences of requests -/

namespace RateLimiter

variable (resolution : Resolution)

/-- The limiter after a request. -/
def allow (limiter : RateLimiter) (request : Request) : RateLimiter := (limiter.allowRequest resolution request).2

/-- A request with its result. -/
def decision (limiter : RateLimiter) (request : Request) : Option (Request × Bool) :=
  some (request, (limiter.allowRequest resolution request).1)

/-- A request, if it is allowed. -/
def allowed (limiter : RateLimiter) (request : Request) : Option Request :=
  if (limiter.allowRequest resolution request).1 then some request else none

variable (config : RateLimitConfig)

def afterRequests (requests : List Request) : RateLimiter := run (allow resolution) (create config) requests

def decisions (requests : List Request) : List (Request × Bool) :=
  outputs (allow resolution) (decision resolution) (create config) requests

def allowedRequests (requests : List Request) : List Request :=
  outputs (allow resolution) (allowed resolution) (create config) requests

end RateLimiter

/-- The readings of the clock do not decrease.  Where a request is rejected, the reading that
it does not take stands for the one that it takes. -/
structure Chronological (requests : List Request) : Prop where
  within : forall request, request ∈ requests -> request.cleanedAt ≤ request.recordedAt
  apart : requests.Pairwise fun earlier later => earlier.recordedAt ≤ later.cleanedAt

theorem Chronological.before {requests later : List Request} (chronological : Chronological (requests ++ later)) :
    Chronological requests :=
  ⟨fun request member => chronological.within request (List.mem_append_left _ member),
    (List.pairwise_append.mp chronological.apart).1⟩

instance (requests : List Request) : Decidable (Chronological requests) :=
  decidable_of_iff ((forall request, request ∈ requests -> request.cleanedAt ≤ request.recordedAt) ∧
    requests.Pairwise fun earlier later => earlier.recordedAt ≤ later.cleanedAt)
    ⟨fun both => ⟨both.1, both.2⟩, fun both => ⟨both.within, both.apart⟩⟩

/-- The requests of one address. -/
def requestsOf (ipAddress : IpAddress) (requests : List Request) : List Request :=
  requests.filter fun request => decide (request.ipAddress = ipAddress)

theorem requestsOf_cons_own {ipAddress : IpAddress} {request : Request} (own : request.ipAddress = ipAddress)
    (rest : List Request) : requestsOf ipAddress (request :: rest) = request :: requestsOf ipAddress rest :=
  List.filter_cons_of_pos (decide_eq_true own)

theorem requestsOf_cons_other {ipAddress : IpAddress} {request : Request} (other : request.ipAddress ≠ ipAddress)
    (rest : List Request) : requestsOf ipAddress (request :: rest) = requestsOf ipAddress rest :=
  List.filter_cons_of_neg (decide_eq_true_iff.not.mpr other)

theorem requestsOf_concat_own (requests : List Request) (request : Request) :
    requestsOf request.ipAddress (requests ++ [request]) = requestsOf request.ipAddress requests ++ [request] := by
  unfold requestsOf
  rw [List.filter_append, List.filter_singleton, decide_eq_true rfl, cond_true]

theorem address_of_mem {ipAddress : IpAddress} {requests : List Request} {request : Request}
    (member : request ∈ requestsOf ipAddress requests) : request.ipAddress = ipAddress :=
  of_decide_eq_true (List.mem_filter.mp member).2

theorem requestsOf_requestsOf (ipAddress : IpAddress) (requests : List Request) :
    requestsOf ipAddress (requestsOf ipAddress requests) = requestsOf ipAddress requests :=
  List.filter_eq_self.mpr fun _ member => decide_eq_true (address_of_mem member)

namespace RateLimiter

variable {resolution : Resolution} {config : RateLimitConfig} {limiter : RateLimiter} {requests : List Request}
  {ipAddress : IpAddress}

/-- The history of an address after some requests is that after its own requests. -/
theorem historyOf_run (limiter : RateLimiter) (requests : List Request) (ipAddress : IpAddress) :
    (run (allow resolution) limiter requests).historyOf ipAddress =
      run (rule resolution limiter.config).step (limiter.historyOf ipAddress) (requestsOf ipAddress requests) := by
  induction requests generalizing limiter with
  | nil => rfl
  | cons request rest inductionHypothesis =>
      rw [run_cons, inductionHypothesis, allow, config_allowRequest, historyOf_allowRequest]
      by_cases own : request.ipAddress = ipAddress
      · rw [requestsOf_cons_own own, if_pos own.symm]
        rfl
      · rw [requestsOf_cons_other own, if_neg (Ne.symm own)]

/-- Whatever is read off the results, for one address it depends on its own requests. -/
theorem outputs_filter (resolution : Resolution) {Output : Type} (read : Request -> Bool -> Option Output)
    (addressOf : Output -> IpAddress)
    (tagged : forall request result output, read request result = some output -> addressOf output = request.ipAddress)
    (limiter : RateLimiter) (requests : List Request) (ipAddress : IpAddress) :
    (outputs (allow resolution) (fun limiter request => read request (limiter.allowRequest resolution request).1)
        limiter requests).filter (fun output => decide (addressOf output = ipAddress)) =
      outputs (rule resolution limiter.config).step
        (fun stamps request => read request ((rule resolution limiter.config).grants stamps request))
        (limiter.historyOf ipAddress) (requestsOf ipAddress requests) := by
  induction requests generalizing limiter with
  | nil => rfl
  | cons request rest inductionHypothesis =>
      rw [outputs, List.filter_append, inductionHypothesis, allow, config_allowRequest, historyOf_allowRequest]
      have first : ((read request (limiter.allowRequest resolution request).1).toList).filter
          (fun output => decide (addressOf output = ipAddress)) =
            if request.ipAddress = ipAddress then (read request (limiter.allowRequest resolution request).1).toList
            else [] := by
        cases made : read request (limiter.allowRequest resolution request).1 with
        | none => rw [Option.toList_none, List.filter_nil, ite_self]
        | some output =>
            rw [Option.toList_some, List.filter_singleton, tagged _ _ _ made]
            by_cases own : request.ipAddress = ipAddress
            · rw [decide_eq_true own, cond_true, if_pos own]
            · rw [decide_eq_false own, cond_false, if_neg own]
      rw [first]
      by_cases own : request.ipAddress = ipAddress
      · rw [if_pos own, if_pos own.symm, requestsOf_cons_own own, outputs, allowRequest_fst, own]
      · rw [if_neg own, if_neg (Ne.symm own), requestsOf_cons_other own, List.nil_append]

theorem allowedRequests_filter (config : RateLimitConfig) (requests : List Request) (ipAddress : IpAddress) :
    requestsOf ipAddress (allowedRequests resolution config requests) =
      (rule resolution config).granted (requestsOf ipAddress requests) := by
  have own := outputs_filter resolution (fun request result => if result then some request else none)
    Request.ipAddress ?_ (create config) requests ipAddress
  · rw [historyOf_create] at own
    exact own
  · intro request result output made
    cases result with
    | false => cases made
    | true => rw [← Option.some.inj made]

theorem decisions_filter (config : RateLimitConfig) (requests : List Request) (ipAddress : IpAddress) :
    (decisions resolution config requests).filter (fun made => decide (made.1.ipAddress = ipAddress)) =
      decisions resolution config (requestsOf ipAddress requests) := by
  have own := outputs_filter resolution (fun request result => some (request, result))
    (fun made => made.1.ipAddress) ?_ (create config)
  · have all : (decisions resolution config (requestsOf ipAddress requests)).filter
        (fun made => decide (made.1.ipAddress = ipAddress)) =
          decisions resolution config (requestsOf ipAddress requests) := by
      refine List.filter_eq_self.mpr ?_
      intro made member
      rcases (mem_outputs_iff.mp member).exists_mem with ⟨limiter, request, listed, same⟩
      rw [← Option.some.inj same]
      exact decide_eq_true (address_of_mem listed)
    rw [← all]
    refine (own requests ipAddress).trans ((own (requestsOf ipAddress requests) ipAddress).trans ?_).symm
    rw [requestsOf_requestsOf]
  · intro request result output made
    rw [← Option.some.inj made]

theorem Chronological.requestsOf (resolution : Resolution) (chronological : Chronological requests)
    (config : RateLimitConfig) (ipAddress : IpAddress) :
    (rule resolution config).Chronological (requestsOf ipAddress requests) :=
  ⟨fun request member => chronological.within request (List.mem_of_mem_filter member), chronological.apart.filter _⟩

/-- Where no cutoff overflows, the rule looks one window back. -/
theorem spans_of_isCount (resolution : Resolution) (config : RateLimitConfig)
    (fits : forall request, request ∈ requests -> IsCount (request.cleanedAt - config.windowTicks resolution))
    (ipAddress : IpAddress) :
    (rule resolution config).Spans (config.windowTicks resolution) (requestsOf ipAddress requests) := by
  intro request member
  exact (cutoff_eq config request.cleanedAt).trans (wrap64_of_isCount (fits request (List.mem_of_mem_filter member)))

theorem historyOf_afterRequests (config : RateLimitConfig) (requests : List Request) (ipAddress : IpAddress) :
    (afterRequests resolution config requests).historyOf ipAddress =
      (rule resolution config).held (requestsOf ipAddress requests) := by
  unfold afterRequests
  rw [historyOf_run, historyOf_create]
  rfl

theorem config_afterRequests (config : RateLimitConfig) (requests : List Request) :
    (afterRequests resolution config requests).config = config := by
  induction requests using List.reverseRecOn with
  | nil => rfl
  | append_singleton requests request inductionHypothesis =>
      unfold afterRequests at inductionHypothesis ⊢
      rw [run_append, run_cons, run_nil, allow, config_allowRequest, inductionHypothesis]

end RateLimiter

open RateLimiter

/-- The allowed requests of an address that were recorded from one time to another. -/
def recordedWithin (ipAddress : IpAddress) (first last : Int) (requests : List Request) : List Request :=
  (requestsOf ipAddress requests).filter fun request =>
    decide (first ≤ request.recordedAt ∧ request.recordedAt ≤ last)

/-- Where no reading of the clock overflows when the window is subtracted, as many requests of
an address are allowed in every time window as the limit at most, and a request is rejected
only if as many were allowed in the window that ends with it.  Each address has its own limit
in any case. -/
theorem rateLimit_slides (resolution : Resolution) (config : RateLimitConfig) (requests : List Request)
    (chronological : Chronological requests) :
    ((forall request, request ∈ requests -> IsCount (request.cleanedAt - config.windowTicks resolution)) ->
      (forall ipAddress first, (recordedWithin ipAddress first (first + config.windowTicks resolution)
        (allowedRequests resolution config requests)).length ≤ config.maxRequestsPerWindow) ∧
      forall before request after, requests = before ++ request :: after ->
        ((afterRequests resolution config before).allowRequest resolution request).1 = false ->
          config.maxRequestsPerWindow ≤ (recordedWithin request.ipAddress
            (request.cleanedAt - config.windowTicks resolution) request.cleanedAt
            (allowedRequests resolution config before)).length) ∧
    forall ipAddress,
      (decisions resolution config requests).filter (fun made => decide (made.1.ipAddress = ipAddress)) =
        decisions resolution config (requestsOf ipAddress requests) := by
  refine ⟨?_, decisions_filter config requests⟩
  intro fits
  constructor
  · intro ipAddress first
    unfold recordedWithin
    rw [allowedRequests_filter]
    exact SlidingWindow.Rule.length_window_le (Chronological.requestsOf resolution chronological config ipAddress)
      (spans_of_isCount resolution config fits ipAddress) first
  · rintro before request after rfl refused
    rw [← List.singleton_append, ← List.append_assoc] at chronological fits
    have own := Chronological.requestsOf resolution chronological.before config request.ipAddress
    have spans : (rule resolution config).Spans (config.windowTicks resolution)
        (requestsOf request.ipAddress (before ++ [request])) :=
      spans_of_isCount resolution config (fun earlier member => fits earlier (List.mem_append_left after member))
        request.ipAddress
    rw [requestsOf_concat_own] at own spans
    unfold recordedWithin
    rw [allowedRequests_filter]
    rw [allowRequest_fst, config_afterRequests, historyOf_afterRequests] at refused
    exact SlidingWindow.Rule.limit_le_of_refused own spans refused

/-- A request that comes exactly one window after the allowed one is rejected. -/
def boundaryRequests : List Request := [⟨[1], 0, 0⟩, ⟨[1], 60, 60⟩, ⟨[2], 60, 60⟩, ⟨[1], 61, 62⟩]

theorem rateLimit_slides_boundaryRequests :
    let resolution : Resolution := ⟨1, by decide⟩
    (allowedRequests resolution ⟨1, 60⟩ boundaryRequests).map Request.recordedAt = [0, 60, 62] ∧
      forall ipAddress first, (recordedWithin ipAddress first (first + resolution.ticks 60)
        (allowedRequests resolution ⟨1, 60⟩ boundaryRequests)).length ≤ 1 :=
  ⟨by decide +kernel,
    ((rateLimit_slides ⟨1, by decide⟩ ⟨1, 60⟩ boundaryRequests (by decide)).1 (by decide +kernel)).1⟩

/-- Nanoseconds. -/
def nanoseconds : Resolution := ⟨1000000000, by decide⟩

/-- Four requests within four nanoseconds. -/
def hurriedRequests : List Request := [⟨[1], 0, 0⟩, ⟨[1], 1, 1⟩, ⟨[1], 2, 2⟩, ⟨[1], 3, 3⟩]

/-- A window of `10^10` seconds is a negative number of nanoseconds, so that every allowed
request is forgotten at once: the limit is one, and all four requests are allowed. -/
theorem rateLimit_overflows :
    Chronological hurriedRequests ∧
      allowedRequests nanoseconds ⟨1, 10000000000⟩ hurriedRequests = hurriedRequests ∧
      ¬(recordedWithin [1] 0 (0 + RateLimitConfig.windowTicks ⟨1, 10000000000⟩ nanoseconds)
        (allowedRequests nanoseconds ⟨1, 10000000000⟩ hurriedRequests)).length ≤ 1 :=
  ⟨by decide, by decide +kernel, by decide +kernel⟩

end Rpc
end Sarafu
