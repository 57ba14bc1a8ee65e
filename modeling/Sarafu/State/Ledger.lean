import Sarafu.Crypto.MerkleTree

namespace Sarafu
namespace State

open Crypto

/-!
# Accounts, transactions and the account manager

Balances, nonces, amounts and fees are `uint64_t`, so their arithmetic wraps
modulo `2^64` exactly as it does for `UInt64`.  An absent account reads as an
account with zero balance and nonce, and any update stores the whole record.
The map of the account manager is private and only ever written through
`update_account`, so every account is stored under its own address.
-/

abbrev Address := FixedBytes 32

/-- `Address::zero`. -/
def Address.zero : Address := FixedBytes.zero 32

/-- `Address::is_zero` scans the bytes. -/
def Address.isZero (address : Address) : Bool := address.bytes.all fun byte => byte == 0

/-- `Address::from_public_key` hashes the key bytes. -/
def Address.fromPublicKey (prim : Primitives) (publicKey : List UInt8) : Address := prim.blake3 publicKey

structure Account where
  address : Address
  balance : UInt64
  nonce : UInt64
  codeHash : Blake3Hash
deriving DecidableEq

namespace Account

/-- The constructor without a code hash. -/
def make (address : Address) (balance nonce : UInt64) : Account :=
  ⟨address, balance, nonce, Blake3Hash.zero⟩

def serialize (account : Account) : List UInt8 :=
  account.address.serialize ++ littleEndian64 account.balance ++ littleEndian64 account.nonce ++
    account.codeHash.serialize

def hash (prim : Primitives) (account : Account) : Blake3Hash := prim.blake3 account.serialize

end Account

structure Transaction where
  fromAddr : Address
  toAddr : Address
  amount : UInt64
  nonce : UInt64
  fee : UInt64
  gasLimit : UInt64
  chainId : UInt32
  signature : Ed25519Signature
deriving DecidableEq

namespace Transaction

def serializeForSigning (tx : Transaction) : List UInt8 :=
  tx.fromAddr.serialize ++ tx.toAddr.serialize ++ littleEndian64 tx.amount ++ littleEndian64 tx.nonce ++
    littleEndian64 tx.fee ++ littleEndian64 tx.gasLimit ++ littleEndian32 tx.chainId

theorem length_serializeForSigning (tx : Transaction) : tx.serializeForSigning.length = 100 := by
  simp only [serializeForSigning, FixedBytes.serialize, littleEndian64, littleEndian32, List.length_append,
    FixedBytes.length_bytes, List.length_map, List.length_range]

/-- The signature is not part of the hashed bytes. -/
def hash (prim : Primitives) (tx : Transaction) : Blake3Hash := prim.blake3 tx.serializeForSigning

def verifySignature (prim : Primitives) (tx : Transaction) (publicKey : Ed25519PublicKey) : Bool :=
  Ed25519.verify prim tx.signature (tx.hash prim).serialize publicKey

end Transaction

structure TransactionReceipt where
  txHash : Blake3Hash
  blockHeight : UInt64
  success : Bool
  gasUsed : UInt64
  errorMessage : String
deriving DecidableEq

/-- The private map, with every account under its own address. -/
structure AccountManager where
  accounts : OrderedMap Address Account
  keyed : forall (address : Address) (account : Account), accounts[address]? = some account -> account.address = address

namespace AccountManager

def empty : AccountManager where
  accounts := ∅
  keyed := by
    intro address account found
    rw [Std.ExtTreeMap.getElem?_empty] at found
    cases found

def getAccount (manager : AccountManager) (address : Address) : Account :=
  (manager.accounts[address]?).getD (Account.make address 0 0)

/-- `update_account` stores under the account's own address. -/
def updateAccount (manager : AccountManager) (account : Account) : AccountManager where
  accounts := manager.accounts.insert account.address account
  keyed := by
    intro address stored found
    rw [OrderedMap.find_insert] at found
    split at found
    · rename_i same
      rw [← Option.some.inj found, same]
    · exact manager.keyed address stored found

def createAccount (manager : AccountManager) (address : Address) (initialBalance : UInt64) : AccountManager :=
  manager.updateAccount (Account.make address initialBalance 0)

def getNonce (manager : AccountManager) (address : Address) : UInt64 := (manager.getAccount address).nonce

def getBalance (manager : AccountManager) (address : Address) : UInt64 := (manager.getAccount address).balance

def validateNonce (manager : AccountManager) (address : Address) (transactionNonce : UInt64) : Bool :=
  (manager.getAccount address).nonce == transactionNonce

def incrementNonce (manager : AccountManager) (address : Address) : AccountManager :=
  let account := manager.getAccount address
  manager.updateAccount { account with nonce := account.nonce + 1 }

def hasSufficientBalance (manager : AccountManager) (address : Address) (requiredAmount : UInt64) : Bool :=
  decide (requiredAmount ≤ (manager.getAccount address).balance)

def deductBalance (manager : AccountManager) (address : Address) (amount : UInt64) : AccountManager :=
  let account := manager.getAccount address
  manager.updateAccount { account with balance := account.balance - amount }

def addBalance (manager : AccountManager) (address : Address) (amount : UInt64) : AccountManager :=
  let account := manager.getAccount address
  manager.updateAccount { account with balance := account.balance + amount }

@[simp] theorem address_getAccount (manager : AccountManager) (address : Address) :
    (manager.getAccount address).address = address := by
  unfold getAccount
  cases found : manager.accounts[address]? with
  | none => rfl
  | some account => exact manager.keyed address account found

/-- Reading after an update: the stored record under its address, and every
other account as before. -/
theorem getAccount_updateAccount (manager : AccountManager) (account : Account) (address : Address) :
    (manager.updateAccount account).getAccount address =
      if address = account.address then account else manager.getAccount address := by
  unfold getAccount updateAccount
  rw [OrderedMap.find_insert]
  split
  · rfl
  · rfl

theorem getBalance_deductBalance (manager : AccountManager) (address other : Address) (amount : UInt64) :
    (manager.deductBalance address amount).getBalance other =
      manager.getBalance other - if other = address then amount else 0 := by
  unfold getBalance deductBalance
  rw [getAccount_updateAccount, address_getAccount]
  split
  · rename_i same
    rw [same]
  · rw [UInt64.sub_zero]

theorem getBalance_addBalance (manager : AccountManager) (address other : Address) (amount : UInt64) :
    (manager.addBalance address amount).getBalance other =
      manager.getBalance other + if other = address then amount else 0 := by
  unfold getBalance addBalance
  rw [getAccount_updateAccount, address_getAccount]
  split
  · rename_i same
    rw [same]
  · rw [UInt64.add_zero]

theorem getBalance_incrementNonce (manager : AccountManager) (address other : Address) :
    (manager.incrementNonce address).getBalance other = manager.getBalance other := by
  unfold getBalance incrementNonce
  rw [getAccount_updateAccount, address_getAccount]
  split
  · rename_i same
    rw [same]
  · rfl

theorem getNonce_deductBalance (manager : AccountManager) (address other : Address) (amount : UInt64) :
    (manager.deductBalance address amount).getNonce other = manager.getNonce other := by
  unfold getNonce deductBalance
  rw [getAccount_updateAccount, address_getAccount]
  split
  · rename_i same
    rw [same]
  · rfl

theorem getNonce_addBalance (manager : AccountManager) (address other : Address) (amount : UInt64) :
    (manager.addBalance address amount).getNonce other = manager.getNonce other := by
  unfold getNonce addBalance
  rw [getAccount_updateAccount, address_getAccount]
  split
  · rename_i same
    rw [same]
  · rfl

theorem getNonce_incrementNonce (manager : AccountManager) (address other : Address) :
    (manager.incrementNonce address).getNonce other =
      manager.getNonce other + if other = address then 1 else 0 := by
  unfold getNonce incrementNonce
  rw [getAccount_updateAccount, address_getAccount]
  split
  · rename_i same
    rw [same]
  · rw [UInt64.add_zero]

/-- The accounts in the order of their addresses. -/
def getAllAccounts (manager : AccountManager) : List Account := manager.accounts.toList.map Prod.snd

end AccountManager
end State
end Sarafu
