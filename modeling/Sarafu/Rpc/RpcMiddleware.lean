import Sarafu.Rpc.AuthManager

namespace Sarafu
namespace Rpc

open Crypto Library Library.Runs

/-!
# The middleware of the RPC server

A request passes the rate limiter before its credentials are looked at, so guesses are limited
as well.  Whether they are good depends on what the operators have done until then.
-/

/-- The clock is read a third time where a request is refused by the rate limiter. -/
structure RpcRequest where
  timed : Request
  askedAt : Int
  username : Text
  password : Text
  token : Text
  method : Text

structure RpcMiddleware where
  rateLimiter : RateLimiter
  authManager : AuthManager

namespace RpcMiddleware

def create (config : RateLimitConfig) : RpcMiddleware := ⟨.create config, .create⟩

variable (resolution : Resolution) (sha256 : Text -> FixedBytes 32)

/-- The token comes first, and the password only without a token. -/
def authenticates (manager : AuthManager) (request : RpcRequest) : Bool :=
  if request.token.isEmpty = false then manager.verifyToken request.token request.method
  else if request.username.isEmpty = false && request.password.isEmpty = false then
    manager.authenticate sha256 request.username request.password request.method
  else false

/-- The result, and the text of the error if there is one. -/
def allowRequest (middleware : RpcMiddleware) (request : RpcRequest) : (Bool × Option String) × RpcMiddleware :=
  let limited := middleware.rateLimiter.allowRequest resolution request.timed
  let after := { middleware with rateLimiter := limited.2 }
  if limited.1 = false then
    let timeUntilReset := limited.2.getTimeUntilReset resolution request.timed.ipAddress request.askedAt
    ((false, some ("Rate limit exceeded. Please try again later." ++ " Time until reset: " ++
      toString timeUntilReset ++ " seconds.")), after)
  else if middleware.authManager.enabled && !authenticates sha256 middleware.authManager request then
    ((false, some "Authentication failed. Please provide valid credentials."), after)
  else ((true, none), after)

end RpcMiddleware

/-- Requests and what operators do meanwhile. -/
inductive MiddlewareCall
  | request (request : RpcRequest)
  | operate (call : AuthCall)

/-- The requests of some calls, as the rate limiter sees them. -/
def requestsIn (calls : List MiddlewareCall) : List Request :=
  calls.filterMap fun
    | .request request => some request.timed
    | .operate _ => none

/-- What the operators have done. -/
def historyIn (calls : List MiddlewareCall) : List AuthCall :=
  calls.filterMap fun
    | .request _ => none
    | .operate call => some call

/-- The credentials of a request are good: a token of a user who has not been removed since, or
without a token the password of a user, and the user may call the method. -/
def Entitled (sha256 : Text -> FixedBytes 32) (history : List AuthCall) (request : RpcRequest) : Prop :=
  ∃ username credentials, AuthManager.credentialsAfter history username = some credentials ∧
    credentials.allows request.method = true ∧
    ((request.token ≠ [] ∧ AuthManager.Bears history request.token username) ∨
      (request.token = [] ∧ request.username = username ∧ username ≠ [] ∧ request.password ≠ [] ∧
        AuthManager.hashPassword sha256 request.password = credentials.passwordHash))

namespace AuthManager

variable {sha256 : Text -> FixedBytes 32} {manager : AuthManager} {token username password method : Text}

theorem verifyToken_iff (enabled : manager.enabled = true) : manager.verifyToken token method = true <->
    ∃ username credentials, manager.tokens[token]? = some username ∧ manager.users[username]? = some credentials ∧
      credentials.allows method = true := by
  rw [verifyToken, enabled, if_neg Bool.true_eq_false.mp]
  cases owned : manager.tokens[token]? with
  | none => simp
  | some owner =>
      cases known : manager.users[owner]? with
      | none => simp [known]
      | some credentials => simp [known]

theorem authenticate_iff (enabled : manager.enabled = true) :
    manager.authenticate sha256 username password method = true <->
      ∃ credentials, manager.users[username]? = some credentials ∧
        hashPassword sha256 password = credentials.passwordHash ∧ credentials.allows method = true := by
  rw [authenticate, enabled, if_neg Bool.true_eq_false.mp]
  cases known : manager.users[username]? with
  | none => simp
  | some credentials =>
      by_cases right : hashPassword sha256 password = credentials.passwordHash
      · simp [verifyPassword, right]
      · simp [verifyPassword, right]

end AuthManager

namespace RpcMiddleware

variable (resolution : Resolution) (sha256 : Text -> FixedBytes 32)

def call (middleware : RpcMiddleware) : MiddlewareCall -> RpcMiddleware
  | .request request => (middleware.allowRequest resolution sha256 request).2
  | .operate call => { middleware with authManager := middleware.authManager.call call }

/-- A request whose credentials are looked at. -/
def tries (middleware : RpcMiddleware) : MiddlewareCall -> Option Request
  | .request request => middleware.rateLimiter.allowed resolution request.timed
  | .operate _ => none

def tried (config : RateLimitConfig) (calls : List MiddlewareCall) : List Request :=
  outputs (call resolution sha256) (tries resolution) (create config) calls

variable {resolution sha256} {middleware : RpcMiddleware}

theorem allowRequest_snd (request : RpcRequest) : (middleware.allowRequest resolution sha256 request).2 =
    { middleware with rateLimiter := middleware.rateLimiter.allow resolution request.timed } := by
  unfold allowRequest
  dsimp only
  split
  · exact rfl
  · split
    · exact rfl
    · exact rfl

/-- Both checks have to pass. -/
theorem allowRequest_iff (request : RpcRequest) :
    (middleware.allowRequest resolution sha256 request).1.1 = true <->
      (middleware.rateLimiter.allowRequest resolution request.timed).1 = true ∧
        (middleware.authManager.enabled = true -> authenticates sha256 middleware.authManager request = true) := by
  unfold allowRequest
  dsimp only
  cases (middleware.rateLimiter.allowRequest resolution request.timed).1 with
  | false => simp
  | true =>
      cases middleware.authManager.enabled with
      | false => simp
      | true =>
          cases authenticates sha256 middleware.authManager request with
          | false => simp
          | true => simp

/-- The rate limiter sees the requests only. -/
theorem rateLimiter_run (middleware : RpcMiddleware) (calls : List MiddlewareCall) :
    (run (call resolution sha256) middleware calls).rateLimiter =
      run (RateLimiter.allow resolution) middleware.rateLimiter (requestsIn calls) := by
  induction calls generalizing middleware with
  | nil => exact rfl
  | cons step rest inductionHypothesis =>
      rw [run_cons, inductionHypothesis]
      cases step with
      | operate call => exact rfl
      | request request =>
          rw [call, allowRequest_snd]
          exact rfl

/-- The manager sees the operators only. -/
theorem authManager_run (middleware : RpcMiddleware) (calls : List MiddlewareCall) :
    (run (call resolution sha256) middleware calls).authManager =
      run AuthManager.call middleware.authManager (historyIn calls) := by
  induction calls generalizing middleware with
  | nil => exact rfl
  | cons step rest inductionHypothesis =>
      rw [run_cons, inductionHypothesis]
      cases step with
      | operate call => exact rfl
      | request request =>
          rw [call, allowRequest_snd]
          exact rfl

theorem tried_eq (config : RateLimitConfig) (calls : List MiddlewareCall) :
    tried resolution sha256 config calls = RateLimiter.allowedRequests resolution config (requestsIn calls) := by
  induction calls using List.reverseRecOn with
  | nil => exact rfl
  | append_singleton calls last inductionHypothesis =>
      unfold tried RateLimiter.allowedRequests requestsIn at inductionHypothesis ⊢
      rw [outputs_concat, inductionHypothesis, List.filterMap_append]
      cases last with
      | operate call => simp [tries]
      | request request =>
          rw [tries, rateLimiter_run]
          exact (outputs_concat _ _ request.timed).symm

theorem authenticates_iff {history : List AuthCall} (fresh : AuthManager.Fresh history) (request : RpcRequest)
    (enabled : AuthManager.EnabledAfter history = true) :
    authenticates sha256 (run AuthManager.call .create history) request = true <-> Entitled sha256 history request := by
  rw [← AuthManager.enabled_run] at enabled
  unfold authenticates Entitled
  cases given : request.token with
  | cons first rest =>
      rw [List.isEmpty_cons, if_pos rfl, AuthManager.verifyToken_iff enabled]
      simp only [AuthManager.tokens_run fresh, AuthManager.users_run, ne_eq, reduceCtorEq, not_false_eq_true, true_and,
        false_and, or_false]
      constructor
      · rintro ⟨username, credentials, bears, known, allows⟩
        exact ⟨username, credentials, known, allows, bears⟩
      · rintro ⟨username, credentials, known, allows, bears⟩
        exact ⟨username, credentials, bears, known, allows⟩
  | nil =>
      rw [List.isEmpty_nil, if_neg Bool.true_eq_false.mp]
      simp only [ne_eq, not_true_eq_false, false_and, true_and, false_or]
      cases named : request.username with
      | nil =>
          simp only [List.isEmpty_nil, Bool.true_eq_false, decide_false, Bool.false_and, Bool.false_eq_true, if_false,
            false_iff, not_exists]
          rintro username credentials ⟨_, _, rfl, nonempty, _⟩
          exact nonempty rfl
      | cons first rest =>
          cases secret : request.password with
          | nil => simp
          | cons letter letters =>
              rw [List.isEmpty_cons, List.isEmpty_cons]
              simp only [decide_true, Bool.and_self, if_true, reduceCtorEq, not_false_eq_true, true_and]
              rw [AuthManager.authenticate_iff enabled]
              simp only [AuthManager.users_run]
              constructor
              · rintro ⟨credentials, known, right, allows⟩
                exact ⟨_, credentials, known, allows, rfl, nofun, right⟩
              · rintro ⟨_, credentials, known, allows, rfl, _, right⟩
                exact ⟨credentials, known, right, allows⟩

end RpcMiddleware

/-- Where no token is drawn twice, a request is admitted exactly if the rate limiter allows it
and, unless authentication is off, its credentials are good by what the operators have done.
Where no reading of the clock overflows when the window is subtracted, the credentials of as
many requests of an address are looked at in every time window as the limit at most. -/
theorem middleware_admits (resolution : Resolution) (sha256 : Text -> FixedBytes 32) (config : RateLimitConfig)
    (calls : List MiddlewareCall) (fresh : AuthManager.Fresh (historyIn calls))
    (chronological : Chronological (requestsIn calls)) :
    (forall before request after, calls = before ++ .request request :: after ->
      (((run (RpcMiddleware.call resolution sha256) (.create config) before).allowRequest resolution sha256
          request).1.1 = true <->
        ((RateLimiter.afterRequests resolution config (requestsIn before)).allowRequest resolution
          request.timed).1 = true ∧
        (AuthManager.EnabledAfter (historyIn before) = true -> Entitled sha256 (historyIn before) request))) ∧
    ((forall request, request ∈ requestsIn calls -> IsCount (request.cleanedAt - config.windowTicks resolution)) ->
      forall ipAddress first, (recordedWithin ipAddress first (first + config.windowTicks resolution)
        (RpcMiddleware.tried resolution sha256 config calls)).length ≤ config.maxRequestsPerWindow) := by
  refine ⟨?_, ?_⟩
  · rintro before request after rfl
    have earlier : AuthManager.Fresh (historyIn before) := by
      unfold AuthManager.Fresh historyIn at fresh ⊢
      rw [List.filterMap_append, List.filterMap_append] at fresh
      exact fresh.of_append_left
    rw [RpcMiddleware.allowRequest_iff, RpcMiddleware.rateLimiter_run, RpcMiddleware.authManager_run]
    refine and_congr Iff.rfl ?_
    change ((run AuthManager.call .create (historyIn before)).enabled = true -> _) <-> _
    rw [AuthManager.enabled_run]
    exact forall_congr' fun enabled => RpcMiddleware.authenticates_iff earlier request enabled
  · intro fits ipAddress first
    unfold recordedWithin
    rw [RpcMiddleware.tried_eq, RateLimiter.allowedRequests_filter]
    exact SlidingWindow.Rule.length_window_le
      (RateLimiter.Chronological.requestsOf resolution chronological config ipAddress)
      (RateLimiter.spans_of_isCount resolution config fits ipAddress) first

/-- A user, a token for that user, and the removal of the user. -/
def sessionCalls : List MiddlewareCall :=
  [.operate .enable, .operate (.addUser ⟨[97], [], []⟩), .operate (.generateToken [97] (FixedBytes.zero 32)),
    .request ⟨⟨[1], 0, 0⟩, 0, [], [], hexText (FixedBytes.zero 32), [109]⟩, .operate (.removeUser [97]),
    .request ⟨⟨[1], 1, 1⟩, 1, [], [], hexText (FixedBytes.zero 32), [109]⟩]

/-- The token is good until its user is removed. -/
theorem middleware_admits_session :
    let resolution : Resolution := ⟨1, by decide⟩
    let sha256 : Text -> FixedBytes 32 := fun _ => FixedBytes.zero 32
    let used : RpcRequest := ⟨⟨[1], 1, 1⟩, 1, [], [], hexText (FixedBytes.zero 32), [109]⟩
    (((run (RpcMiddleware.call resolution sha256) (.create ⟨5, 60⟩) (sessionCalls.take 3)).allowRequest resolution
      sha256 used).1.1 = true) ∧
    ¬ Entitled sha256 (historyIn (sessionCalls.take 5)) used := by
  intro resolution sha256 used
  have admits := (middleware_admits resolution sha256 ⟨5, 60⟩ sessionCalls (by decide +kernel) (by decide +kernel)).1
  refine ⟨by decide +kernel, ?_⟩
  have last := admits (sessionCalls.take 5) used [] rfl
  intro entitled
  have refused : ((run (RpcMiddleware.call resolution sha256) (.create ⟨5, 60⟩) (sessionCalls.take 5)).allowRequest
    resolution sha256 used).1.1 = false := by decide +kernel
  have granted := last.mpr ⟨by decide +kernel, fun _ => entitled⟩
  rw [refused] at granted
  cases granted

end Rpc
end Sarafu
