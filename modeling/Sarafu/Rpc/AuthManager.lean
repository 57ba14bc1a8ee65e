import Sarafu.Crypto.HexText
import Sarafu.Library.LastWrites
import Sarafu.Rpc.RateLimiter

namespace Sarafu
namespace Rpc

open Crypto Library Library.Runs Library.LastWrites

/-!
# Users and tokens

A token belongs to the user that it was generated for.  Adding a user again replaces the
credentials and keeps the tokens, and removing a user erases both.  SHA-256 is the one of the
crypto library, and the random bytes of a token are an input of the call that draws them.
-/

/-- A `std::string`, in bytes. -/
abbrev Text := List UInt8

structure Credentials where
  username : Text
  passwordHash : Text
  allowedMethods : List Text
deriving DecidableEq

/-- No methods mean all methods. -/
def Credentials.allows (credentials : Credentials) (method : Text) : Bool :=
  credentials.allowedMethods.isEmpty || credentials.allowedMethods.contains method

structure AuthManager where
  enabled : Bool
  users : OrderedMap Text Credentials
  tokens : OrderedMap Text Text

namespace AuthManager

/-- The constructor. -/
def create : AuthManager := ⟨false, ∅, ∅⟩

def enable (manager : AuthManager) : AuthManager := { manager with enabled := true }

def disable (manager : AuthManager) : AuthManager := { manager with enabled := false }

def addUser (manager : AuthManager) (credentials : Credentials) : AuthManager :=
  { manager with users := manager.users.insert credentials.username credentials }

/-- The loop erases every token of the user. -/
def removeUser (manager : AuthManager) (username : Text) : AuthManager :=
  { manager with
    users := manager.users.erase username
    tokens := manager.tokens.filter fun _ owner => decide (owner ≠ username) }

variable (sha256 : Text -> FixedBytes 32)

def hashPassword (password : Text) : Text := hexText (sha256 password)

def verifyPassword (password hash : Text) : Bool := hashPassword sha256 password == hash

def authenticate (manager : AuthManager) (username password method : Text) : Bool :=
  if manager.enabled = false then true
  else
    match manager.users[username]? with
    | none => false
    | some credentials =>
        if verifyPassword sha256 password credentials.passwordHash = false then false else credentials.allows method

def verifyToken (manager : AuthManager) (token method : Text) : Bool :=
  if manager.enabled = false then true
  else
    match manager.tokens[token]? with
    | none => false
    | some username =>
        match manager.users[username]? with
        | none => false
        | some credentials => credentials.allows method

/-- The token, which is empty for an unknown user. -/
def generateToken (manager : AuthManager) (username : Text) (drawn : FixedBytes 32) : Text × AuthManager :=
  if manager.users.contains username = false then ([], manager)
  else (hexText drawn, { manager with tokens := manager.tokens.insert (hexText drawn) username })

end AuthManager

/-- What an operator does. -/
inductive AuthCall
  | enable
  | disable
  | addUser (credentials : Credentials)
  | removeUser (username : Text)
  | generateToken (username : Text) (drawn : FixedBytes 32)
deriving DecidableEq

namespace AuthManager

def call (manager : AuthManager) : AuthCall -> AuthManager
  | .enable => manager.enable
  | .disable => manager.disable
  | .addUser credentials => manager.addUser credentials
  | .removeUser username => manager.removeUser username
  | .generateToken username drawn => (manager.generateToken username drawn).2

/-! ## What a history says -/

def enabledBy : AuthCall -> Option Bool
  | .enable => some true
  | .disable => some false
  | _ => none

/-- What a call says about one user: credentials, or that there are none. -/
def credentialsBy (username : Text) : AuthCall -> Option (Option Credentials)
  | .addUser credentials => if username = credentials.username then some (some credentials) else none
  | .removeUser other => if username = other then some none else none
  | _ => none

def EnabledAfter (history : List AuthCall) : Bool := lastWrite enabledBy false history

def credentialsAfter (history : List AuthCall) (username : Text) : Option Credentials :=
  lastWrite (credentialsBy username) none history

/-- The token was generated for the user at a time when the user was known, and the user has
not been removed since. -/
def Bears (history : List AuthCall) (token username : Text) : Prop :=
  ∃ before drawn after, history = before ++ .generateToken username drawn :: after ∧ hexText drawn = token ∧
    (credentialsAfter before username).isSome = true ∧ .removeUser username ∉ after

def drawnBy : AuthCall -> Option Text
  | .generateToken _ drawn => some (hexText drawn)
  | _ => none

/-- No token is drawn twice. -/
def Fresh (history : List AuthCall) : Prop := (history.filterMap drawnBy).Nodup

instance (history : List AuthCall) : Decidable (Fresh history) := inferInstanceAs (Decidable (List.Nodup _))

variable {history : List AuthCall} {token username : Text}

theorem bears_concat_iff {last : AuthCall} : Bears (history ++ [last]) token username <->
    (Bears history token username ∧ last ≠ .removeUser username) ∨
      ∃ drawn, last = .generateToken username drawn ∧ hexText drawn = token ∧
        (credentialsAfter history username).isSome = true := by
  simp only [Bears, concat_eq_split_iff]
  constructor
  · rintro ⟨before, drawn, after, ⟨rfl, rfl, rfl⟩ | ⟨rest, rfl, rfl⟩, named, known, stays⟩
    · exact Or.inr ⟨drawn, rfl, named, known⟩
    · rw [List.mem_append, List.mem_singleton, not_or] at stays
      exact Or.inl ⟨⟨before, drawn, rest, rfl, named, known, stays.1⟩, Ne.symm stays.2⟩
  · rintro (⟨⟨before, drawn, after, rfl, named, known, stays⟩, other⟩ | ⟨drawn, rfl, named, known⟩)
    · refine ⟨before, drawn, after ++ [last], Or.inr ⟨after, rfl, rfl⟩, named, known, ?_⟩
      rw [List.mem_append, List.mem_singleton, not_or]
      exact ⟨stays, Ne.symm other⟩
    · exact ⟨history, drawn, [], Or.inl ⟨rfl, rfl, rfl⟩, named, known, List.not_mem_nil⟩

theorem Bears.drawn (bears : Bears history token username) : token ∈ history.filterMap drawnBy := by
  rcases bears with ⟨before, drawn, after, rfl, rfl, _⟩
  exact List.mem_filterMap.mpr ⟨.generateToken username drawn, List.mem_append_right before List.mem_cons_self, rfl⟩

theorem Fresh.before {last : AuthCall} (fresh : Fresh (history ++ [last])) : Fresh history := by
  rw [Fresh, List.filterMap_append] at fresh
  exact fresh.of_append_left

/-! ## The tables of the manager -/

theorem enabled_run (history : List AuthCall) : (run call create history).enabled = EnabledAfter history := by
  refine read_run AuthManager.enabled ?_ create history
  intro manager step
  cases step with
  | generateToken username drawn =>
      change (manager.generateToken username drawn).2.enabled = manager.enabled
      unfold generateToken
      split
      · exact rfl
      · exact rfl
  | _ => exact rfl

theorem users_run (history : List AuthCall) (username : Text) :
    (run call create history).users[username]? = credentialsAfter history username := by
  have empty : create.users[username]? = none := Std.ExtTreeMap.getElem?_empty
  unfold credentialsAfter
  rw [← empty]
  refine read_run (fun manager : AuthManager => manager.users[username]?) ?_ create history
  intro manager step
  cases step with
  | enable => exact rfl
  | disable => exact rfl
  | addUser credentials =>
      change (manager.users.insert credentials.username credentials)[username]? = _
      rw [OrderedMap.find_insert, credentialsBy]
      split
      · exact rfl
      · exact rfl
  | removeUser other =>
      change (manager.users.erase other)[username]? = _
      rw [OrderedMap.find_erase, credentialsBy]
      split
      · exact rfl
      · exact rfl
  | generateToken other drawn =>
      change (manager.generateToken other drawn).2.users[username]? = manager.users[username]?
      unfold generateToken
      split
      · exact rfl
      · exact rfl

theorem find_removeUser (manager : AuthManager) (username token : Text) :
    (manager.removeUser username).tokens[token]? =
      (manager.tokens[token]?).filter fun owner => decide (owner ≠ username) := OrderedMap.find_filter _ _ _

theorem find_generateToken (manager : AuthManager) (username : Text) (drawn : FixedBytes 32) (token : Text) :
    (manager.generateToken username drawn).2.tokens[token]? =
      if manager.users.contains username = true ∧ token = hexText drawn then some username
      else manager.tokens[token]? := by
  rw [generateToken]
  cases manager.users.contains username with
  | false =>
      rw [if_pos rfl]
      simp only [Bool.false_eq_true, false_and, if_false]
  | true =>
      rw [if_neg Bool.true_eq_false.mp, OrderedMap.find_insert]
      simp only [true_and]

/-- The owner of a token is the one who bears it. -/
theorem tokens_run (fresh : Fresh history) (token username : Text) :
    (run call create history).tokens[token]? = some username <-> Bears history token username := by
  induction history using List.reverseRecOn generalizing token username with
  | nil =>
      refine iff_of_false ?_ ?_
      · rw [run_nil, create, Std.ExtTreeMap.getElem?_empty]
        exact nofun
      · rintro ⟨before, drawn, after, split, _⟩
        exact List.append_ne_nil_of_right_ne_nil before (List.cons_ne_nil _ after) split.symm
  | append_singleton history last inductionHypothesis =>
      have earlier := inductionHypothesis fresh.before
      rw [run_append, run_cons, run_nil, bears_concat_iff, ← earlier]
      cases last with
      | enable => simp [call, enable]
      | disable => simp [call, disable]
      | addUser credentials => simp [call, addUser]
      | removeUser other =>
          rw [call, find_removeUser, Option.filter_eq_some_iff, decide_eq_true_eq]
          constructor
          · rintro ⟨held, apart⟩
            exact Or.inl ⟨held, fun same => apart (AuthCall.removeUser.inj same).symm⟩
          · rintro (⟨held, apart⟩ | ⟨_, impossible, _⟩)
            · exact ⟨held, fun same => apart (same ▸ rfl)⟩
            · cases impossible
      | generateToken other drawn =>
          have unheld : (run call create history).tokens[hexText drawn]? ≠ some username := by
            intro held
            rw [Fresh, List.filterMap_append] at fresh
            exact (List.nodup_append.mp fresh).2.2 _ ((earlier _ username).mp held).drawn _
              (List.mem_singleton_self _) rfl
          rw [call, find_generateToken, Std.ExtTreeMap.contains_eq_isSome_getElem?, users_run]
          constructor
          · split
            · rintro ⟨rfl⟩
              rename_i both
              exact Or.inr ⟨drawn, rfl, both.2.symm, both.1⟩
            · exact fun held => Or.inl ⟨held, nofun⟩
          · rintro (⟨held, _⟩ | ⟨again, same, named, registered⟩)
            · have apart : ¬ ((credentialsAfter history other).isSome = true ∧ token = hexText drawn) :=
                fun both => unheld (both.2 ▸ held)
              rw [if_neg apart]
              exact held
            · rcases AuthCall.generateToken.inj same with ⟨rfl, rfl⟩
              rw [if_pos ⟨registered, named.symm⟩]

end AuthManager
end Rpc
end Sarafu
