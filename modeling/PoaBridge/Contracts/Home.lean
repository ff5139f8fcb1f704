import Mathlib.Data.FinEnum
import PoaBridge.Contracts.Foreign
import PoaBridge.Contracts.Quorum
import PoaBridge.Lib.Ledger

/-!
# `HomeBridge` of `contracts/bridge.sol`

`withdraw` pays the value of a signed message: the relay cost goes to the caller
and what remains to the recipient.  Neither the multiplication that gives the
cost nor the subtraction is checked, and both may wrap.

What stands against a wrapped subtraction is that the ether is missing for it.
The two parts always add up to the value modulo `2 ^ 256`, and the two transfers
succeed only if the bridge holds both parts together.  With less than `2 ^ 255`
in existence the sum does not wrap, so the cost was not above the value
(`split_exact`).  `withdraw_pays_exactly` is the result for every call.

The ether is a ledger of all accounts.  The fees of the transactions are left
out.  A transfer gives the recipient 2300 gas, which is too little to write
storage or to send ether on, so all a recipient can do is to refuse it.
-/

namespace PoaBridge.Contracts

open BigEndian

/-! ## The contract -/

inductive HomeEvent where
  | deposit (recipient : Address) (value : U256)
  | withdraw (recipient : Address) (value : U256)
deriving DecidableEq, Repr

structure HomeBridge where
  requiredSignatures : Nat
  estimatedGasCostOfWithdraw : U256
  authorities : List Address
  withdraws : H256 → Bool
  /-- The events emitted so far. -/
  logs : List HomeEvent

/-- The contract, and the ether of all accounts. -/
structure HomeChain where
  bridge : HomeBridge
  ether : Address → ℕ

/-- The EVM and the address of the contract. -/
structure HomeEnv (Digest : Type) extends Evm Digest where
  bridge : Address

/-- A call of `withdraw`.  `rest` is the memory behind the message, and the last
two fields are whether the recipient and the sender take ether. -/
structure WithdrawCall where
  sender : Address
  gasPrice : U256
  vs : List UInt8
  rs : List H256
  ss : List H256
  message : Bytes
  rest : Memory
  recipientAccepts : Bool
  senderAccepts : Bool

namespace WithdrawCall

/-- The argument `message` in memory. -/
def memory (call : WithdrawCall) : Memory := bytesInMemory call.message call.rest

def recipient (call : WithdrawCall) : Address := getRecipient call.memory

def value (call : WithdrawCall) : U256 := getValue call.memory

def hash (call : WithdrawCall) : H256 := getTransactionHash call.memory

def homeGasPrice (call : WithdrawCall) : U256 := getHomeGasPrice call.memory

end WithdrawCall

namespace HomeBridge

/-- The constructor. -/
def deploy (requiredSignatures : Nat) (authorities : List Address)
    (estimatedGasCostOfWithdraw : U256) : Option HomeBridge := do
  require (requiredSignatures ≠ 0)
  require (requiredSignatures ≤ authorities.length)
  return {
    requiredSignatures := requiredSignatures
    estimatedGasCostOfWithdraw := estimatedGasCostOfWithdraw
    authorities := authorities
    withdraws := fun _ => false
    logs := [] }

def emit (self : HomeBridge) (event : HomeEvent) : HomeBridge :=
  { self with logs := self.logs ++ [event] }

/-- `withdraws[hash] = true`. -/
def mark (self : HomeBridge) (hash : H256) : HomeBridge :=
  { self with withdraws := Function.update self.withdraws hash true }

/-- `estimatedWeiCostOfWithdraw`; the product may wrap. -/
def estimatedWeiCostOfWithdraw (self : HomeBridge) (homeGasPrice : U256) : U256 :=
  self.estimatedGasCostOfWithdraw * homeGasPrice

@[simp] theorem estimatedWeiCostOfWithdraw_mark (self : HomeBridge) (hash : H256)
    (homeGasPrice : U256) : (self.mark hash).estimatedWeiCostOfWithdraw homeGasPrice
      = self.estimatedWeiCostOfWithdraw homeGasPrice := rfl

end HomeBridge

namespace HomeChain

variable {Digest : Type}

/-- The payable fallback function, with the ether that comes with the call. -/
def fallback (self : HomeChain) (env : HomeEnv Digest) (sender : Address) (value : U256) :
    Option HomeChain := do
  require (value.toNat ≤ self.ether sender)
  return {
    bridge := self.bridge.emit (.deposit sender value)
    ether := Ledger.transfer self.ether sender env.bridge value.toNat }

/-- `target.transfer(value)`.  The bridge that pays itself runs its own fallback
function. -/
def transfer (self : HomeChain) (env : HomeEnv Digest) (target : Address) (value : U256)
    (accepts : Bool) : Option HomeChain :=
  if target = env.bridge then self.fallback env env.bridge value
  else do
    require (value.toNat ≤ self.ether env.bridge)
    require (accepts = true)
    return { self with ether := Ledger.transfer self.ether env.bridge target value.toNat }

def withdraw (self : HomeChain) (env : HomeEnv Digest) (call : WithdrawCall) :
    Option HomeChain := do
  require (call.message.length = 116)
  let enough ← hasEnoughValidSignatures env.keccak256 env.ecrecover call.message call.vs call.rs
    call.ss self.bridge.authorities self.bridge.requiredSignatures
  require (enough = true)
  -- anyone but the recipient has to use the gas price of the message
  require (call.recipient = call.sender ∨ call.gasPrice = call.homeGasPrice)
  -- duplicated withdraw or reentry
  require (self.bridge.withdraws call.hash = false)
  let self := { self with bridge := self.bridge.mark call.hash }
  let cost := self.bridge.estimatedWeiCostOfWithdraw call.homeGasPrice
  let remaining := call.value - cost
  let self ← self.transfer env call.recipient remaining call.recipientAccepts
  let self ← self.transfer env call.sender cost call.senderAccepts
  return { self with bridge := self.bridge.emit (.withdraw call.recipient remaining) }

/-- A reverted transaction changes nothing. -/
def step (env : HomeEnv Digest) (self : HomeChain) (call : WithdrawCall) : HomeChain :=
  (self.withdraw env call).getD self

/-! ## What a withdraw pays -/

theorem transfer_eq_some {env : HomeEnv Digest} {chain chain' : HomeChain} {target : Address}
    {value : U256} {accepts : Bool} (htarget : target ≠ env.bridge)
    (h : chain.transfer env target value accepts = some chain') :
    value.toNat ≤ chain.ether env.bridge ∧ accepts = true ∧ chain'.bridge = chain.bridge ∧
      chain'.ether = Ledger.transfer chain.ether env.bridge target value.toNat := by
  unfold transfer at h
  rw [if_neg htarget, require_bind_eq_some, require_bind_eq_some] at h
  rw [← Option.some.inj h.2.2]
  exact ⟨h.1, h.2.1, rfl, rfl⟩

/-- A value that is split modulo `2 ^ 256` into parts that are there together is
split exactly. -/
theorem split_exact {value cost : U256} {balance : ℕ} (hbalance : balance < 2 ^ 255)
    (hremaining : (value - cost).toNat ≤ balance)
    (hcost : cost.toNat ≤ balance - (value - cost).toNat) :
    cost.toNat ≤ value.toNat ∧ (value - cost).toNat = value.toNat - cost.toNat := by
  have hsum : (value - cost).toNat + cost.toNat = value.toNat := by
    have hwrapped : (value - cost + cost).toNat = value.toNat := by
      rw [BitVec.sub_add_cancel]
    rw [BitVec.toNat_add, Nat.mod_eq_of_lt (by omega)] at hwrapped
    exact hwrapped
  omega

/-- What a successful `withdraw` checked, and what it changed. -/
structure WithdrawDone (env : HomeEnv Digest) (chain : HomeChain) (call : WithdrawCall)
    (chain' : HomeChain) : Prop where
  length : call.message.length = 116
  quorum : hasEnoughValidSignatures env.keccak256 env.ecrecover call.message call.vs call.rs
    call.ss chain.bridge.authorities chain.bridge.requiredSignatures = some true
  gasPrice : call.recipient = call.sender ∨ call.gasPrice = call.homeGasPrice
  fresh : chain.bridge.withdraws call.hash = false
  accepts : call.recipientAccepts = true ∧ call.senderAccepts = true
  remaining : (call.value - chain.bridge.estimatedWeiCostOfWithdraw call.homeGasPrice).toNat
    ≤ chain.ether env.bridge
  cost : (chain.bridge.estimatedWeiCostOfWithdraw call.homeGasPrice).toNat ≤ chain.ether env.bridge
    - (call.value - chain.bridge.estimatedWeiCostOfWithdraw call.homeGasPrice).toNat
  bridge : chain'.bridge = (chain.bridge.mark call.hash).emit (.withdraw call.recipient
    (call.value - chain.bridge.estimatedWeiCostOfWithdraw call.homeGasPrice))
  ether : chain'.ether = Ledger.transfer (Ledger.transfer chain.ether env.bridge call.recipient
      (call.value - chain.bridge.estimatedWeiCostOfWithdraw call.homeGasPrice).toNat)
    env.bridge call.sender (chain.bridge.estimatedWeiCostOfWithdraw call.homeGasPrice).toNat

theorem withdraw_cases {env : HomeEnv Digest} {chain chain' : HomeChain} {call : WithdrawCall}
    (hrecipient : call.recipient ≠ env.bridge) (hsender : call.sender ≠ env.bridge)
    (h : chain.withdraw env call = some chain') : WithdrawDone env chain call chain' := by
  unfold withdraw at h
  rw [require_bind_eq_some] at h
  obtain ⟨enough, henough, hrest⟩ := Option.bind_eq_some_iff.1 h.2
  simp only [require_bind_eq_some, HomeBridge.estimatedWeiCostOfWithdraw_mark] at hrest
  obtain ⟨rfl, hgasPrice, hfresh, hrest⟩ := hrest
  obtain ⟨first, hfirst, hrest⟩ := Option.bind_eq_some_iff.1 hrest
  obtain ⟨second, hsecond, hrest⟩ := Option.bind_eq_some_iff.1 hrest
  obtain ⟨hremaining, hrecipientAccepts, hbridge, hether⟩ := transfer_eq_some hrecipient hfirst
  obtain ⟨hcost, hsenderAccepts, hbridge', hether'⟩ := transfer_eq_some hsender hsecond
  rw [hether, Ledger.transfer_source _ (Ne.symm hrecipient)] at hcost
  rw [hbridge] at hbridge'
  rw [hether] at hether'
  rw [← Option.some.inj hrest]
  refine ⟨h.1, henough, hgasPrice, hfresh, ⟨hrecipientAccepts, hsenderAccepts⟩, hremaining, hcost,
    ?_, hether'⟩
  rw [hbridge']

/-- A withdraw pays exactly the signed value, for every state and every call in
which neither the recipient nor the sender is the bridge, as long as there is
less than `2 ^ 255` of ether.  The cost is not above the value, the recipient gets
what remains and the sender gets the cost, nothing else moves, and the bridge pays
the value.  A call that fails, the second transfer included, changes nothing. -/
theorem withdraw_pays_exactly (env : HomeEnv Digest) (chain : HomeChain) (call : WithdrawCall)
    (hether : Ledger.total chain.ether < 2 ^ 255) (hrecipient : call.recipient ≠ env.bridge)
    (hsender : call.sender ≠ env.bridge) :
    (∀ chain', chain.withdraw env call = some chain' →
      let cost := chain.bridge.estimatedGasCostOfWithdraw.toNat * call.homeGasPrice.toNat % 2 ^ 256
      let remaining := call.value.toNat - cost
      cost ≤ call.value.toNat ∧
        chain'.ether = Ledger.transfer (Ledger.transfer chain.ether env.bridge call.recipient
          remaining) env.bridge call.sender cost ∧
        chain'.ether env.bridge + call.value.toNat = chain.ether env.bridge ∧
        chain'.bridge.withdraws = Function.update chain.bridge.withdraws call.hash true) ∧
      (call.recipientAccepts = false ∨ call.senderAccepts = false →
        chain.withdraw env call = none) ∧
      (chain.withdraw env call = none → chain.step env call = chain) := by
  refine ⟨?_, ?_, ?_⟩
  · intro chain' hwithdraw cost remaining
    have hdone := withdraw_cases hrecipient hsender hwithdraw
    have hbalance : chain.ether env.bridge < 2 ^ 255 :=
      (Ledger.le_total chain.ether env.bridge).trans_lt hether
    obtain ⟨hle, hremaining⟩ := split_exact hbalance hdone.remaining hdone.cost
    have hcost : (chain.bridge.estimatedWeiCostOfWithdraw call.homeGasPrice).toNat = cost :=
      BitVec.toNat_mul ..
    have hfunded := hdone.remaining
    have hrest := hdone.cost
    have hafter := hdone.ether
    rw [hremaining, hcost] at hafter hrest
    rw [hremaining, hcost] at hfunded
    rw [hcost] at hle
    refine ⟨hle, hafter, ?_, ?_⟩
    · rw [hafter, Ledger.transfer_source _ (Ne.symm hsender),
        Ledger.transfer_source _ (Ne.symm hrecipient)]
      omega
    · rw [hdone.bridge]
      rfl
  · intro hrefused
    cases hwithdraw : chain.withdraw env call with
    | none => rfl
    | some chain' =>
      obtain ⟨hrecipientAccepts, hsenderAccepts⟩ :=
        (withdraw_cases hrecipient hsender hwithdraw).accepts
      rw [hrecipientAccepts, hsenderAccepts] at hrefused
      exact absurd hrefused (by decide)
  · intro hnone
    unfold step
    rw [hnone]
    rfl

/-- The bridge holds 100, and one authority has signed. -/
def fundedChain : HomeChain where
  bridge := ⟨1, 2, [0xa1], fun _ => false, []⟩
  ether := Ledger.credit (fun _ => 0) 0xb1 100

def fundedEnv : HomeEnv Bytes where
  keccak256 := id
  ecrecover := fun _ _ r _ => r.setWidth 160
  digestBytes := id
  bridge := 0xb1

/-- The relay costs 2 * 3 of the value 10. -/
def relayedWithdraw : WithdrawCall where
  sender := 0xe1
  gasPrice := 3
  vs := [27]
  rs := [0xa1]
  ss := [0]
  message := (⟨0xd1, 10, 7, 3⟩ : MessageToMainnet).toBytes
  rest := fun _ => 0
  recipientAccepts := true
  senderAccepts := true

theorem withdraw_pays_exactly_relayed : ∃ chain',
    fundedChain.withdraw fundedEnv relayedWithdraw = some chain' ∧
      chain'.ether 0xb1 + 10 = 100 := by
  have hether : Ledger.total fundedChain.ether < 2 ^ 255 := by
    have htotal : Ledger.total fundedChain.ether = 100 := by
      rw [fundedChain, Ledger.total_credit, Ledger.total_zero]
    rw [htotal]
    omega
  have hsuccess : (fundedChain.withdraw fundedEnv relayedWithdraw).isSome = true := by
    decide +kernel
  obtain ⟨chain', hchain'⟩ := Option.isSome_iff_exists.1 hsuccess
  have hvalue : relayedWithdraw.value.toNat = 10 := by decide +kernel
  have hpaid := ((withdraw_pays_exactly fundedEnv fundedChain relayedWithdraw hether
    (by decide +kernel) (by decide)).1 chain' hchain').2.2.1
  rw [hvalue] at hpaid
  exact ⟨chain', hchain', hpaid⟩

end HomeChain

end PoaBridge.Contracts
