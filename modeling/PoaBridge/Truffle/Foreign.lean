import Mathlib.Data.List.Count
import PoaBridge.Lib.Runs
import PoaBridge.Truffle.Validators

/-!
# `ForeignBridge` of truffle

The contract of `truffle/contracts/ForeignBridge.sol` on one chain with its
`BridgeValidators`.  A chain state is the storage of the two contracts, the
ether of the bridge and the events that the bridge has emitted.

`exec` is one transaction, with `none` for a revert, and `step` keeps the
state of a reverted one.  A run is a list of calls by any senders.

`deposit_cases` and `submitSignature_cases` say what a successful call does,
and `exec_frame` says what no other call can touch.  Every result about runs
is derived from these three.

The `Deposit` events alone do not say that anything was paid.  `Accounted` says
that they are the executed transfers, one for one, and that the ether of the
contract is what it received less what it sent.  It holds after every run
(`accounted_run`).

The last section is about payouts under validator management.  A payout is
made when the number of confirmations is *equal* to the threshold.  The
threshold can be raised after the payout, and then one more confirmation can
meet it again: `second_payout_after_raised_threshold` is such a run.  It
happens exactly when a confirmation of a paid deposit reaches the threshold of
its moment (`count_payouts_le_one_iff`), so it does not happen as long as the
threshold is never set above the confirmations of a deposit that was paid
(`count_payouts_le_one`).
-/

namespace PoaBridge.Truffle

open BigEndian

/-! ## The contract -/

/-- The arguments of `ForeignBridge.deposit`: one payout. -/
structure Payout where
  recipient : Address
  value : U256
  transactionHash : H256
deriving DecidableEq, Repr

/-- The packed bytes of `keccak256(recipient,value,transactionHash)`. -/
def Payout.packed (p : Payout) : Bytes :=
  addressBytes p.recipient ++ wordBytes p.value ++ wordBytes p.transactionHash

theorem Payout.packed_injective : Function.Injective Payout.packed := by
  rintro ⟨r, v, t⟩ ⟨r', v', t'⟩ h
  have hlast := List.append_inj h (by simp)
  have hfirst := List.append_inj hlast.1 (by simp)
  obtain rfl : r = r' := addressBytes_inj hfirst.1
  obtain rfl : v = v' := wordBytes_inj hfirst.2
  obtain rfl : t = t' := wordBytes_inj hlast.2
  rfl

/-- The recipient and the value of `recipient.transfer(value)`. -/
def Payout.payment (p : Payout) : Address × U256 := (p.recipient, p.value)

inductive ForeignEvent (Digest : Type) where
  | signedForDeposit (signer : Address) (transactionHash : H256)
  | signedForWithdraw (signer : Address) (messageHash : Digest)
  | deposit (payout : Payout)
  | withdraw (recipient : Address) (value : U256) (homeGasCost : U256)
  | withdrawSignatureSubmitted (messageHash : Digest)
  | collectedSignatures (authorityResponsibleForRelay : Address) (messageHash : Digest)
deriving DecidableEq

/-- `SignaturesCollection`. -/
structure SignaturesCollection where
  message : Bytes
  signed : List Address
  signatures : List Bytes
deriving DecidableEq

structure ForeignBridge (Digest : Type) where
  validatorContract : Address
  deposits : Digest → List Address
  signatures : Digest → SignaturesCollection
  initialized : Bool
  /-- The ether of the contract. -/
  balance : Nat
  /-- The ether that the contract has sent, and to whom. -/
  transfers : List (Address × U256)
  /-- The events emitted so far. -/
  logs : List (ForeignEvent Digest)

/-- The foreign chain: the bridge and its validator registry. -/
structure ForeignChain (Digest : Type) where
  validators : BridgeValidators
  bridge : ForeignBridge Digest

variable {Digest : Type} [DecidableEq Digest]

namespace ForeignBridge

/-- The storage after the deployment. -/
def deployed : ForeignBridge Digest where
  validatorContract := 0
  deposits := fun _ => []
  signatures := fun _ => ⟨[], [], []⟩
  initialized := false
  balance := 0
  transfers := []
  logs := []

def emit (self : ForeignBridge Digest) (event : ForeignEvent Digest) : ForeignBridge Digest :=
  { self with logs := self.logs ++ [event] }

/-- `deposits[hash].push(signer)`. -/
def pushDeposit (self : ForeignBridge Digest) (hash : Digest) (signer : Address) :
    ForeignBridge Digest :=
  { self with
    deposits := Function.update self.deposits hash (self.deposits hash ++ [signer]) }

/-- The payable fallback function. -/
def fallback (self : ForeignBridge Digest) (sender : Address) (value : U256) (data : Bytes) :
    Option (ForeignBridge Digest) := do
  require (0 < value.toNat)
  require (data.length = 0)
  return { self with balance := self.balance + value.toNat }.emit (.withdraw sender value 0)

/-- `recipient.transfer(value)`.  It reverts without enough ether, and when the
recipient does not accept it.  The stipend of 2300 gas is too small for a
recipient to write any storage, so the only contract of the chain that a
transfer can change is the bridge, when it pays itself. -/
def transfer (self : ForeignBridge Digest) (env : Evm Digest) (recipient : Address)
    (value : U256) (accepts : Bool) : Option (ForeignBridge Digest) := do
  require (value.toNat ≤ self.balance)
  require (accepts = true)
  let paid := { self with
    balance := self.balance - value.toNat
    transfers := self.transfers ++ [(recipient, value)] }
  if recipient = env.bridge then paid.fallback env.bridge value [] else return paid

/-- The payouts, in the order of their `Deposit` events. -/
def payouts (self : ForeignBridge Digest) : List Payout :=
  self.logs.filterMap fun
    | .deposit payout => some payout
    | _ => none

/-- The payout was made: its `Deposit` event stands where its transfer stands. -/
def Made (self : ForeignBridge Digest) (payout : Payout) : Prop :=
  (payout.payment, payout) ∈ self.transfers.zip self.payouts

instance (self : ForeignBridge Digest) (payout : Payout) : Decidable (self.Made payout) :=
  inferInstanceAs (Decidable (_ ∈ _))

/-- The sum of all transfers. -/
def sent (self : ForeignBridge Digest) : Nat :=
  (self.transfers.map fun transfer => transfer.2.toNat).sum

/-- The sum of the values of all `Withdraw` events. -/
def received (self : ForeignBridge Digest) : Nat :=
  (self.logs.map fun
    | .withdraw _ value _ => value.toNat
    | _ => 0).sum

/-- The messages with a `CollectedSignatures` event, by their hash. -/
def collected (self : ForeignBridge Digest) : List Digest :=
  self.logs.filterMap fun
    | .collectedSignatures _ messageHash => some messageHash
    | _ => none

end ForeignBridge

namespace ForeignChain

/-- The two contracts after their deployment. -/
def deployed : ForeignChain Digest := ⟨.deployed, .deployed⟩

/-- The target of an external call to `validatorContract`. -/
def registry (self : ForeignChain Digest) (env : Evm Digest) : Option BridgeValidators :=
  env.registryAt self.validators self.bridge.validatorContract

/-- `ForeignBridge.initialize`. -/
def initializeBridge (self : ForeignChain Digest) (validatorContractAddress : Address) :
    Option (ForeignChain Digest) := do
  require (self.bridge.initialized = false)
  return { self with bridge := { self.bridge with
    validatorContract := validatorContractAddress
    initialized := true } }

/-- `keccak256(recipient,value,transactionHash)`. -/
def depositHash (env : Evm Digest) (payout : Payout) : Digest :=
  env.keccak256 payout.packed

/-- `deposit`, `public onlyValidator()`. -/
def deposit (self : ForeignChain Digest) (env : Evm Digest) (sender : Address)
    (payout : Payout) (accepts : Bool) : Option (ForeignChain Digest) := do
  let validatorContract ← self.registry env
  require (validatorContract.isValidator sender = true)
  let hash := depositHash env payout
  require (addressArrayContains (self.bridge.deposits hash) sender = false)
  let bridge := (self.bridge.pushDeposit hash sender).emit
    (.signedForDeposit sender payout.transactionHash)
  if (bridge.deposits hash).length = validatorContract.requiredSignatures then
    let bridge ← bridge.transfer env payout.recipient payout.value accepts
    return { self with bridge := bridge.emit (.deposit payout) }
  else
    return { self with bridge := bridge }

/-- `submitSignature`, `public onlyValidator()`.  `rest` is the memory behind
the signature. -/
def submitSignature (self : ForeignChain Digest) (env : Evm Digest) (sender : Address)
    (signature message : Bytes) (rest : Memory) : Option (ForeignChain Digest) := do
  let validatorContract ← self.registry env
  require (validatorContract.isValidator sender = true)
  let recovered ←
    recoverAddressFromSignedMessage env.keccak256 env.ecrecover signature message rest
  require (sender = recovered)
  let hash := env.keccak256 message
  let collection := self.bridge.signatures hash
  require (addressArrayContains collection.signed sender = false)
  let collection : SignaturesCollection :=
    ⟨message, collection.signed ++ [sender], collection.signatures ++ [signature]⟩
  let bridge := { self.bridge with
    signatures := Function.update self.bridge.signatures hash collection }.emit
      (.signedForWithdraw sender hash)
  if collection.signed.length = validatorContract.requiredSignatures then
    return { self with bridge := bridge.emit (.collectedSignatures sender hash) }
  else
    return { self with bridge := bridge.emit (.withdrawSignatureSubmitted hash) }

/-- `signature`. -/
def signature (self : ForeignChain Digest) (hash : Digest) (index : Nat) : Option Bytes :=
  (self.bridge.signatures hash).signatures[index]?

/-- `message`. -/
def message (self : ForeignChain Digest) (hash : Digest) : Bytes :=
  (self.bridge.signatures hash).message

/-! ## Transactions and runs -/

/-- A transaction on the foreign chain. -/
inductive Call where
  | registry (sender : Address) (call : BridgeValidators.Call)
  | initializeBridge (validatorContractAddress : Address)
  | fallback (sender : Address) (value : U256) (data : Bytes)
  | deposit (sender : Address) (payout : Payout) (accepts : Bool)
  | submitSignature (sender : Address) (signature message : Bytes) (rest : Memory)

/-- One transaction; `none` is a revert. -/
def exec (env : Evm Digest) (self : ForeignChain Digest) : Call → Option (ForeignChain Digest)
  | .registry sender call => do
    let validators ← self.validators.call sender call
    return { self with validators := validators }
  | .initializeBridge validatorContractAddress => self.initializeBridge validatorContractAddress
  | .fallback sender value data => do
    let bridge ← self.bridge.fallback sender value data
    return { self with bridge := bridge }
  | .deposit sender payout accepts => self.deposit env sender payout accepts
  | .submitSignature sender signature message rest =>
    self.submitSignature env sender signature message rest

/-- A reverted transaction changes nothing. -/
def step (env : Evm Digest) (self : ForeignChain Digest) (call : Call) : ForeignChain Digest :=
  (self.exec env call).getD self

/-- The chain after a list of transactions. -/
def run (env : Evm Digest) (self : ForeignChain Digest) (calls : List Call) :
    ForeignChain Digest :=
  calls.foldl (step env) self

/-! ## What a call does -/

omit [DecidableEq Digest] in
@[simp] theorem payouts_emit (bridge : ForeignBridge Digest) (event : ForeignEvent Digest) :
    (bridge.emit event).payouts = bridge.payouts ++ (match event with
      | .deposit payout => [payout]
      | _ => []) := by
  cases event <;> simp [ForeignBridge.emit, ForeignBridge.payouts]

omit [DecidableEq Digest] in
@[simp] theorem collected_emit (bridge : ForeignBridge Digest) (event : ForeignEvent Digest) :
    (bridge.emit event).collected = bridge.collected ++ (match event with
      | .collectedSignatures _ messageHash => [messageHash]
      | _ => []) := by
  cases event <;> simp [ForeignBridge.emit, ForeignBridge.collected]

omit [DecidableEq Digest] in
@[simp] theorem received_emit (bridge : ForeignBridge Digest) (event : ForeignEvent Digest) :
    (bridge.emit event).received = bridge.received + (match event with
      | .withdraw _ value _ => value.toNat
      | _ => 0) := by
  cases event <;> simp [ForeignBridge.emit, ForeignBridge.received]

/-- The ether that leaves the contract with a payout.  It stays when the contract pays
itself. -/
def spent (env : Evm Digest) (payout : Payout) : Nat :=
  if payout.recipient = env.bridge then 0 else payout.value.toNat

/-- What the transfer of a payout changed. -/
structure TransferDone (env : Evm Digest) (bridge : ForeignBridge Digest) (payout : Payout)
    (bridge' : ForeignBridge Digest) : Prop where
  transfers : bridge'.transfers = bridge.transfers ++ [payout.payment]
  balance : bridge'.balance + spent env payout = bridge.balance
  received : bridge'.received + spent env payout = bridge.received + payout.value.toNat
  deposits : bridge'.deposits = bridge.deposits
  payouts : bridge'.payouts = bridge.payouts
  validatorContract : bridge'.validatorContract = bridge.validatorContract
  initialized : bridge'.initialized = bridge.initialized
  signatures : bridge'.signatures = bridge.signatures
  collected : bridge'.collected = bridge.collected

omit [DecidableEq Digest] in
theorem transfer_cases {bridge bridge' : ForeignBridge Digest} {env : Evm Digest}
    {payout : Payout} {accepts : Bool}
    (h : bridge.transfer env payout.recipient payout.value accepts = some bridge') :
    TransferDone env bridge payout bridge' := by
  simp only [ForeignBridge.transfer, require_bind_eq_some] at h
  obtain ⟨hfunded, -, h⟩ := h
  split at h
  · rename_i hself
    have hspent : spent env payout = 0 := if_pos hself
    simp only [ForeignBridge.fallback, require_bind_eq_some] at h
    obtain ⟨-, -, h⟩ := h
    rw [← Option.some.inj h]
    refine ⟨rfl, ?_, ?_, rfl, (payouts_emit ..).trans (List.append_nil _), rfl, rfl, rfl,
      (collected_emit ..).trans (List.append_nil _)⟩
    · rw [hspent]
      exact Nat.sub_add_cancel hfunded
    · rw [hspent, received_emit]
      rfl
  · rename_i hself
    have hspent : spent env payout = payout.value.toNat := if_neg hself
    rw [← Option.some.inj h]
    refine ⟨rfl, ?_, ?_, rfl, rfl, rfl, rfl, rfl, rfl⟩
    · rw [hspent]
      exact Nat.sub_add_cancel hfunded
    · rw [hspent]
      rfl

/-- What a successful `deposit` checked, and what it changed. -/
structure DepositDone (env : Evm Digest) (chain : ForeignChain Digest) (sender : Address)
    (payout : Payout) (chain' : ForeignChain Digest) : Prop where
  linked : chain.bridge.validatorContract = env.validators
  sender_validator : chain.validators.isValidator sender = true
  sender_fresh : sender ∉ chain.bridge.deposits (depositHash env payout)
  validators : chain'.validators = chain.validators
  deposits : chain'.bridge.deposits = Function.update chain.bridge.deposits
    (depositHash env payout) (chain.bridge.deposits (depositHash env payout) ++ [sender])
  payouts : chain'.bridge.payouts = chain.bridge.payouts ++
    if (chain.bridge.deposits (depositHash env payout)).length + 1
        = chain.validators.requiredSignatures then [payout] else []
  transfers : chain'.bridge.transfers = chain.bridge.transfers ++
    if (chain.bridge.deposits (depositHash env payout)).length + 1
        = chain.validators.requiredSignatures then [payout.payment] else []
  balance : chain'.bridge.balance +
    (if (chain.bridge.deposits (depositHash env payout)).length + 1
        = chain.validators.requiredSignatures then spent env payout else 0)
      = chain.bridge.balance
  received : chain'.bridge.received +
    (if (chain.bridge.deposits (depositHash env payout)).length + 1
        = chain.validators.requiredSignatures then spent env payout else 0)
      = chain.bridge.received +
        if (chain.bridge.deposits (depositHash env payout)).length + 1
          = chain.validators.requiredSignatures then payout.value.toNat else 0
  validatorContract : chain'.bridge.validatorContract = chain.bridge.validatorContract
  initialized : chain'.bridge.initialized = chain.bridge.initialized
  signatures : chain'.bridge.signatures = chain.bridge.signatures
  collected : chain'.bridge.collected = chain.bridge.collected

theorem deposit_cases {chain chain' : ForeignChain Digest} {env : Evm Digest}
    {sender : Address} {payout : Payout} {accepts : Bool}
    (h : chain.deposit env sender payout accepts = some chain') :
    DepositDone env chain sender payout chain' := by
  rw [deposit, Option.bind_eq_bind, Option.bind_eq_some_iff] at h
  obtain ⟨validators, hregistry, h⟩ := h
  obtain ⟨hlinked, rfl⟩ := Evm.registryAt_eq_some.1 hregistry
  simp only [require_bind_eq_some] at h
  obtain ⟨hvalidator, hfresh, h⟩ := h
  have hfresh' : sender ∉ chain.bridge.deposits (depositHash env payout) := by
    rwa [← addressArrayContains_iff, Bool.not_eq_true]
  simp only [ForeignBridge.emit, ForeignBridge.pushDeposit, Function.update_self,
    List.length_append, List.length_singleton] at h
  split at h
  · rename_i hreached
    rw [Option.bind_eq_bind, Option.bind_eq_some_iff] at h
    obtain ⟨bridge, htransfer, h⟩ := h
    have hdone := transfer_cases htransfer
    rw [← Option.some.inj h]
    refine ⟨hlinked, hvalidator, hfresh', rfl, hdone.deposits, ?_, ?_, ?_, ?_,
      hdone.validatorContract, hdone.initialized, hdone.signatures, ?_⟩
    · show (bridge.emit (.deposit payout)).payouts = _
      rw [payouts_emit, hdone.payouts, if_pos hreached]
      simp [ForeignBridge.payouts]
    · rw [if_pos hreached]
      exact hdone.transfers
    · rw [if_pos hreached]
      exact hdone.balance
    · show (bridge.emit (.deposit payout)).received + _ = _
      rw [received_emit, if_pos hreached, if_pos hreached]
      refine hdone.received.trans ?_
      simp [ForeignBridge.received]
    · show (bridge.emit (.deposit payout)).collected = _
      rw [collected_emit, hdone.collected]
      simp [ForeignBridge.collected]
  · rename_i hreached
    rw [← Option.some.inj h]
    refine ⟨hlinked, hvalidator, hfresh', rfl, rfl, ?_, ?_, ?_, ?_, rfl, rfl, rfl, ?_⟩
    · rw [if_neg hreached]
      simp [ForeignBridge.payouts]
    · rw [if_neg hreached, List.append_nil]
    · rw [if_neg hreached]
      rfl
    · rw [if_neg hreached, if_neg hreached]
      simp [ForeignBridge.received]
    · simp [ForeignBridge.collected]

omit [DecidableEq Digest] in
/-- A transfer that is covered and accepted succeeds. -/
theorem transfer_eq_some {bridge : ForeignBridge Digest} {env : Evm Digest}
    {recipient : Address} {value : U256} (hfunded : value.toNat ≤ bridge.balance)
    (haccepted : recipient = env.bridge → 0 < value.toNat) :
    ∃ bridge', bridge.transfer env recipient value true = some bridge' := by
  simp only [ForeignBridge.transfer, require_bind_eq_some]
  split
  · rename_i hself
    simp only [ForeignBridge.fallback, require_bind_eq_some]
    exact ⟨_, hfunded, trivial, haccepted hself, rfl, rfl⟩
  · exact ⟨_, hfunded, trivial, rfl⟩

/-- A new confirmation succeeds, when the payout that it may trigger does. -/
theorem deposit_eq_some {chain : ForeignChain Digest} {env : Evm Digest} {sender : Address}
    {payout : Payout} (hlinked : chain.bridge.validatorContract = env.validators)
    (hvalidator : chain.validators.isValidator sender = true)
    (hfresh : sender ∉ chain.bridge.deposits (depositHash env payout))
    (hpay : (chain.bridge.deposits (depositHash env payout)).length + 1
        = chain.validators.requiredSignatures →
      payout.value.toNat ≤ chain.bridge.balance ∧
        (payout.recipient = env.bridge → 0 < payout.value.toNat)) :
    ∃ chain', chain.deposit env sender payout true = some chain' := by
  have hfresh' : addressArrayContains (chain.bridge.deposits (depositHash env payout)) sender
      = false := by
    rwa [← Bool.not_eq_true, addressArrayContains_iff]
  have hregistry : chain.registry env = some chain.validators :=
    Evm.registryAt_eq_some.2 ⟨hlinked, rfl⟩
  rw [deposit, hregistry, Option.bind_eq_bind, Option.bind_some]
  simp only [require_bind_eq_some, ForeignBridge.emit, ForeignBridge.pushDeposit,
    Function.update_self, List.length_append, List.length_singleton]
  split
  · rename_i hreached
    obtain ⟨hfunded, haccepted⟩ := hpay hreached
    obtain ⟨bridge, htransfer⟩ := @transfer_eq_some _
      ((chain.bridge.pushDeposit (depositHash env payout) sender).emit
        (.signedForDeposit sender payout.transactionHash)) env _ _ hfunded haccepted
    exact ⟨_, hvalidator, hfresh', Option.bind_eq_some_iff.2 ⟨bridge, htransfer, rfl⟩⟩
  · exact ⟨_, hvalidator, hfresh', rfl⟩

/-- What a successful `submitSignature` checked, and what it changed. -/
structure SignatureDone (env : Evm Digest) (chain : ForeignChain Digest) (sender : Address)
    (signature message : Bytes) (rest : Memory) (chain' : ForeignChain Digest) : Prop where
  linked : chain.bridge.validatorContract = env.validators
  sender_validator : chain.validators.isValidator sender = true
  recovered : recoverAddressFromSignedMessage env.keccak256 env.ecrecover signature message rest
    = some sender
  sender_fresh : sender ∉ (chain.bridge.signatures (env.keccak256 message)).signed
  validators : chain'.validators = chain.validators
  signatures : chain'.bridge.signatures = Function.update chain.bridge.signatures
    (env.keccak256 message) ⟨message,
      (chain.bridge.signatures (env.keccak256 message)).signed ++ [sender],
      (chain.bridge.signatures (env.keccak256 message)).signatures ++ [signature]⟩
  collected : chain'.bridge.collected = chain.bridge.collected ++
    if (chain.bridge.signatures (env.keccak256 message)).signed.length + 1
        = chain.validators.requiredSignatures then [env.keccak256 message] else []
  deposits : chain'.bridge.deposits = chain.bridge.deposits
  payouts : chain'.bridge.payouts = chain.bridge.payouts
  transfers : chain'.bridge.transfers = chain.bridge.transfers
  balance : chain'.bridge.balance = chain.bridge.balance
  received : chain'.bridge.received = chain.bridge.received

theorem submitSignature_cases {chain chain' : ForeignChain Digest} {env : Evm Digest}
    {sender : Address} {signature message : Bytes} {rest : Memory}
    (h : chain.submitSignature env sender signature message rest = some chain') :
    SignatureDone env chain sender signature message rest chain' := by
  rw [submitSignature, Option.bind_eq_bind, Option.bind_eq_some_iff] at h
  obtain ⟨validators, hregistry, h⟩ := h
  obtain ⟨hlinked, rfl⟩ := Evm.registryAt_eq_some.1 hregistry
  rw [require_bind_eq_some, Option.bind_eq_bind, Option.bind_eq_some_iff] at h
  obtain ⟨hvalidator, recovered, hrecovered, h⟩ := h
  simp only [require_bind_eq_some] at h
  obtain ⟨rfl, hfresh, h⟩ := h
  have hfresh' : sender ∉ (chain.bridge.signatures (env.keccak256 message)).signed := by
    rwa [← addressArrayContains_iff, Bool.not_eq_true]
  simp only [List.length_append, List.length_singleton] at h
  split at h
  all_goals
    rename_i hreached
    rw [← Option.some.inj h]
    refine ⟨hlinked, hvalidator, hrecovered, hfresh', rfl, rfl, ?_, rfl, ?_, rfl, rfl, ?_⟩
    · simp [hreached, ForeignBridge.emit, ForeignBridge.collected]
    · simp [ForeignBridge.emit, ForeignBridge.payouts]
    · simp [ForeignBridge.emit, ForeignBridge.received]

/-- A transaction that is not a `deposit` keeps the confirmations and the
payouts, and only a call of the registry changes the registry. -/
theorem exec_frame {chain chain' : ForeignChain Digest} {env : Evm Digest} {call : Call}
    (h : chain.exec env call = some chain')
    (hcall : ∀ sender payout accepts, call ≠ .deposit sender payout accepts) :
    chain'.bridge.deposits = chain.bridge.deposits ∧
      chain'.bridge.payouts = chain.bridge.payouts ∧
      ((∃ sender c, call = .registry sender c ∧
          chain.validators.call sender c = some chain'.validators) ∨
        chain'.validators = chain.validators) := by
  cases call with
  | registry sender c =>
    simp only [exec, Option.bind_eq_bind, Option.bind_eq_some_iff] at h
    obtain ⟨validators, hvalidators, h⟩ := h
    rw [← Option.some.inj h]
    exact ⟨rfl, rfl, .inl ⟨sender, c, rfl, hvalidators⟩⟩
  | initializeBridge validatorContractAddress =>
    simp only [exec, initializeBridge, require_bind_eq_some] at h
    rw [← Option.some.inj h.2]
    exact ⟨rfl, rfl, .inr rfl⟩
  | fallback sender value data =>
    simp only [exec, ForeignBridge.fallback, Option.bind_eq_bind, Option.bind_eq_some_iff] at h
    obtain ⟨bridge, hbridge, h⟩ := h
    obtain ⟨-, -, -, -, hbridge⟩ := hbridge
    rw [← Option.some.inj h, ← Option.some.inj hbridge]
    exact ⟨rfl, (payouts_emit ..).trans (List.append_nil _), .inr rfl⟩
  | deposit sender payout accepts => exact absurd rfl (hcall sender payout accepts)
  | submitSignature sender signature message rest =>
    have hdone := submitSignature_cases h
    exact ⟨hdone.deposits, hdone.payouts, .inr hdone.validators⟩

/-- Only a call of the registry changes the registry. -/
theorem exec_registry {chain chain' : ForeignChain Digest} {env : Evm Digest} {call : Call}
    (h : chain.exec env call = some chain') :
    (∃ sender c, call = .registry sender c ∧
        chain.validators.call sender c = some chain'.validators) ∨
      chain'.validators = chain.validators := by
  by_cases hcall : ∃ sender payout accepts, call = .deposit sender payout accepts
  · obtain ⟨sender, payout, accepts, rfl⟩ := hcall
    exact .inr (deposit_cases h).validators
  · push Not at hcall
    exact (exec_frame h hcall).2.2

/-- A transaction that is not a `submitSignature` keeps the collections of
signatures. -/
theorem exec_signatures {chain chain' : ForeignChain Digest} {env : Evm Digest} {call : Call}
    (h : chain.exec env call = some chain')
    (hcall : ∀ sender signature message rest,
      call ≠ .submitSignature sender signature message rest) :
    chain'.bridge.signatures = chain.bridge.signatures ∧
      chain'.bridge.collected = chain.bridge.collected := by
  cases call with
  | registry sender c =>
    simp only [exec, Option.bind_eq_bind, Option.bind_eq_some_iff] at h
    obtain ⟨validators, -, h⟩ := h
    rw [← Option.some.inj h]
    exact ⟨rfl, rfl⟩
  | initializeBridge validatorContractAddress =>
    simp only [exec, initializeBridge, require_bind_eq_some] at h
    rw [← Option.some.inj h.2]
    exact ⟨rfl, rfl⟩
  | fallback sender value data =>
    simp only [exec, ForeignBridge.fallback, Option.bind_eq_bind, Option.bind_eq_some_iff] at h
    obtain ⟨bridge, ⟨-, -, -, -, hbridge⟩, h⟩ := h
    rw [← Option.some.inj h, ← Option.some.inj hbridge]
    exact ⟨rfl, (collected_emit ..).trans (List.append_nil _)⟩
  | deposit sender payout accepts =>
    have hdone := deposit_cases h
    exact ⟨hdone.signatures, hdone.collected⟩
  | submitSignature sender signature message rest =>
    exact absurd rfl (hcall sender signature message rest)

/-! ## The ether -/

/-- A transaction that is not a `deposit` sends no ether, and what it adds to the
ether of the contract is in its events. -/
theorem exec_ether {chain chain' : ForeignChain Digest} {env : Evm Digest} {call : Call}
    (h : chain.exec env call = some chain')
    (hcall : ∀ sender payout accepts, call ≠ .deposit sender payout accepts) :
    chain'.bridge.transfers = chain.bridge.transfers ∧
      chain'.bridge.balance + chain.bridge.received
        = chain.bridge.balance + chain'.bridge.received := by
  cases call with
  | registry sender c =>
    simp only [exec, Option.bind_eq_bind, Option.bind_eq_some_iff] at h
    obtain ⟨validators, -, h⟩ := h
    rw [← Option.some.inj h]
    exact ⟨rfl, rfl⟩
  | initializeBridge validatorContractAddress =>
    simp only [exec, initializeBridge, require_bind_eq_some] at h
    rw [← Option.some.inj h.2]
    exact ⟨rfl, rfl⟩
  | fallback sender value data =>
    simp only [exec, ForeignBridge.fallback, Option.bind_eq_bind, Option.bind_eq_some_iff] at h
    obtain ⟨bridge, ⟨-, -, -, -, hbridge⟩, h⟩ := h
    rw [← Option.some.inj h, ← Option.some.inj hbridge]
    refine ⟨rfl, ?_⟩
    rw [received_emit]
    show chain.bridge.balance + value.toNat + chain.bridge.received
      = chain.bridge.balance + (chain.bridge.received + value.toNat)
    omega
  | deposit sender payout accepts => exact absurd rfl (hcall sender payout accepts)
  | submitSignature sender signature message rest =>
    have hdone := submitSignature_cases h
    exact ⟨hdone.transfers, by rw [hdone.balance, hdone.received]⟩

/-- The `Deposit` events are the transfers, and the ether of the contract is what it
received less what it sent. -/
structure Accounted (bridge : ForeignBridge Digest) : Prop where
  transfers : bridge.transfers = bridge.payouts.map Payout.payment
  ether : bridge.balance + bridge.sent = bridge.received

omit [DecidableEq Digest] in
theorem accounted_deployed : Accounted (ForeignBridge.deployed : ForeignBridge Digest) :=
  ⟨rfl, rfl⟩

omit [DecidableEq Digest] in
/-- A payout with an event was made. -/
theorem Accounted.made_iff {bridge : ForeignBridge Digest} (h : Accounted bridge)
    {payout : Payout} : bridge.Made payout ↔ payout ∈ bridge.payouts := by
  have hzip : bridge.transfers.zip bridge.payouts
      = bridge.payouts.map fun p => (p.payment, p) := by
    rw [h.transfers]
    nth_rewrite 2 [← List.map_id bridge.payouts]
    exact List.zip_map'
  rw [ForeignBridge.Made, hzip, List.mem_map]
  constructor
  · rintro ⟨p, hp, heq⟩
    rw [← (Prod.mk.inj heq).2]
    exact hp
  · exact fun hp => ⟨payout, hp, rfl⟩

theorem DepositDone.accounted {env : Evm Digest} {chain chain' : ForeignChain Digest}
    {sender : Address} {payout : Payout} (h : DepositDone env chain sender payout chain')
    (haccounted : Accounted chain.bridge) : Accounted chain'.bridge := by
  have htransfers := h.transfers
  have hbalance := h.balance
  have hreceived := h.received
  have hether := haccounted.ether
  refine ⟨?_, ?_⟩
  · rw [htransfers, h.payouts, haccounted.transfers]
    split <;> simp
  · rw [ForeignBridge.sent] at hether ⊢
    split at htransfers
    · rename_i hreached
      rw [if_pos hreached] at hbalance
      rw [if_pos hreached, if_pos hreached] at hreceived
      rw [htransfers, List.map_append, List.sum_append]
      simp only [List.map_cons, List.map_nil, List.sum_cons, List.sum_nil, Payout.payment]
      omega
    · rename_i hreached
      rw [if_neg hreached] at hbalance
      rw [if_neg hreached, if_neg hreached] at hreceived
      rw [htransfers, List.append_nil]
      omega

theorem accounted_step {env : Evm Digest} {chain : ForeignChain Digest} (call : Call)
    (haccounted : Accounted chain.bridge) : Accounted (chain.step env call).bridge := by
  rw [step]
  cases hexec : chain.exec env call with
  | none => exact haccounted
  | some chain' =>
    rw [Option.getD_some]
    by_cases hcall : ∃ sender payout accepts, call = .deposit sender payout accepts
    · obtain ⟨sender, payout, accepts, rfl⟩ := hcall
      exact (deposit_cases hexec).accounted haccounted
    · push Not at hcall
      obtain ⟨htransfers, hether⟩ := exec_ether hexec hcall
      refine ⟨?_, ?_⟩
      · rw [htransfers, (exec_frame hexec hcall).2.1]
        exact haccounted.transfers
      · have := haccounted.ether
        rw [ForeignBridge.sent, htransfers, ← ForeignBridge.sent]
        omega

/-- After every run the payouts are accounted for. -/
theorem accounted_run (env : Evm Digest) (calls : List Call) {chain : ForeignChain Digest}
    (haccounted : Accounted chain.bridge) : Accounted (run env chain calls).bridge := by
  refine @Runs.foldl_of_step _ _ (step env) (fun chain => Accounted chain.bridge) ?_ calls chain
    haccounted
  exact fun _ call h => accounted_step call h

/-! ## Payouts under validator management -/

/-- Every payout was made, and its confirmations still reach the current
threshold. -/
structure PaidInv (env : Evm Digest) (chain : ForeignChain Digest) : Prop where
  covered : ∀ payout ∈ chain.bridge.payouts, chain.validators.requiredSignatures
    ≤ (chain.bridge.deposits (depositHash env payout)).length
  distinct : chain.bridge.payouts.Nodup

/-- A call that sets the threshold does not put it above the confirmations of
a deposit that was paid. -/
def ThresholdCovered (env : Evm Digest) (chain : ForeignChain Digest) : Call → Prop
  | .registry sender c => (chain.validators.call sender c).isSome →
      ∀ threshold ∈ c.threshold, ∀ payout ∈ chain.bridge.payouts,
        threshold ≤ (chain.bridge.deposits (depositHash env payout)).length
  | _ => True

instance (env : Evm Digest) (chain : ForeignChain Digest) :
    ∀ call, Decidable (ThresholdCovered env chain call)
  | .registry sender c => inferInstanceAs (Decidable (
      (chain.validators.call sender c).isSome →
        ∀ threshold ∈ c.threshold, ∀ payout ∈ chain.bridge.payouts,
          threshold ≤ (chain.bridge.deposits (depositHash env payout)).length))
  | .initializeBridge _ | .fallback .. | .deposit .. | .submitSignature .. => .isTrue trivial

section Confirmations

variable {env : Evm Digest} {chain chain' : ForeignChain Digest} {sender : Address}
  {payout : Payout} (h : DepositDone env chain sender payout chain')

include h

theorem DepositDone.deposits_self : chain'.bridge.deposits (depositHash env payout)
    = chain.bridge.deposits (depositHash env payout) ++ [sender] := by
  rw [h.deposits, Function.update_self]

theorem DepositDone.deposits_of_ne {hash : Digest} (hne : hash ≠ depositHash env payout) :
    chain'.bridge.deposits hash = chain.bridge.deposits hash := by
  rw [h.deposits, Function.update_of_ne hne]

/-- A confirmation never shortens a list of confirmations. -/
theorem DepositDone.length_le (hash : Digest) :
    (chain.bridge.deposits hash).length ≤ (chain'.bridge.deposits hash).length := by
  by_cases heq : hash = depositHash env payout
  · subst heq
    rw [h.deposits_self, List.length_append]
    omega
  · rw [h.deposits_of_ne heq]

/-- Nobody confirms a deposit twice. -/
theorem DepositDone.nodup {hash : Digest} (hdistinct : (chain.bridge.deposits hash).Nodup) :
    (chain'.bridge.deposits hash).Nodup := by
  by_cases heq : hash = depositHash env payout
  · subst heq
    rw [h.deposits_self]
    exact List.nodup_append.2 ⟨hdistinct, by simp, fun a ha b hb hab =>
      h.sender_fresh (List.mem_singleton.1 hb ▸ hab ▸ ha)⟩
  · rw [h.deposits_of_ne heq]
    exact hdistinct

end Confirmations

/-- A confirmation pays a deposit at most once, because the confirmations of a
paid deposit are already at the threshold. -/
theorem DepositDone.paidInv {env : Evm Digest} {chain chain' : ForeignChain Digest}
    {sender : Address} {payout : Payout} (h : DepositDone env chain sender payout chain')
    (hinv : PaidInv env chain) : PaidInv env chain' := by
  have hkeep : ∀ p ∈ chain.bridge.payouts, chain'.validators.requiredSignatures
      ≤ (chain'.bridge.deposits (depositHash env p)).length := fun p hp => by
    rw [h.validators]
    exact (hinv.covered p hp).trans (h.length_le _)
  by_cases hreached : (chain.bridge.deposits (depositHash env payout)).length + 1
      = chain.validators.requiredSignatures
  · have hpayouts := h.payouts
    rw [if_pos hreached] at hpayouts
    have hnew : payout ∉ chain.bridge.payouts := fun hmem => by
      have := hinv.covered payout hmem
      omega
    refine ⟨fun p hp => ?_, ?_⟩
    · rw [hpayouts, List.mem_append, List.mem_singleton] at hp
      rcases hp with hp | rfl
      · exact hkeep p hp
      · rw [h.validators, h.deposits_self, ← hreached, List.length_append,
          List.length_singleton]
    · rw [hpayouts]
      exact List.nodup_append.2 ⟨hinv.distinct, by simp, by
        intro a ha b hb hab
        exact hnew (List.mem_singleton.1 hb ▸ hab ▸ ha)⟩
  · have hpayouts := h.payouts
    rw [if_neg hreached, List.append_nil] at hpayouts
    exact ⟨fun p hp => hkeep p (hpayouts ▸ hp), hpayouts ▸ hinv.distinct⟩

/-- A call that meets the condition on the threshold keeps the invariant. -/
theorem paidInv_step {env : Evm Digest} {chain : ForeignChain Digest} {call : Call}
    (hinv : PaidInv env chain) (hcall : ThresholdCovered env chain call) :
    PaidInv env (chain.step env call) := by
  rw [step]
  cases hexec : chain.exec env call with
  | none => exact hinv
  | some chain' =>
    rw [Option.getD_some]
    by_cases hdeposit : ∃ sender payout accepts, call = .deposit sender payout accepts
    · obtain ⟨sender, payout, accepts, rfl⟩ := hdeposit
      exact (deposit_cases hexec).paidInv hinv
    · push Not at hdeposit
      obtain ⟨hdeposits, hpayouts, hvalidators⟩ := exec_frame hexec hdeposit
      refine ⟨fun p hp => ?_, hpayouts ▸ hinv.distinct⟩
      rw [hpayouts] at hp
      rw [hdeposits]
      have hold := hinv.covered p hp
      rcases hvalidators with ⟨sender, c, rfl, hc⟩ | hsame
      · rw [BridgeValidators.call_requiredSignatures hc]
        cases hthreshold : c.threshold with
        | none => exact hold
        | some threshold =>
          exact hcall (by rw [hc]; rfl) threshold hthreshold p hp
      · rw [hsame]
        exact hold

/-- A confirmation of a paid deposit does not reach the threshold of its moment. -/
def ReachesUnpaid (env : Evm Digest) (chain : ForeignChain Digest) : Call → Prop
  | .deposit sender payout accepts => (chain.deposit env sender payout accepts).isSome →
      payout ∈ chain.bridge.payouts →
      (chain.bridge.deposits (depositHash env payout)).length + 1
        ≠ chain.validators.requiredSignatures
  | _ => True

/-- What a transaction adds to the payouts. -/
theorem payouts_step_cases {env : Evm Digest} (chain : ForeignChain Digest) (call : Call) :
    (chain.step env call).bridge.payouts = chain.bridge.payouts ∧ ReachesUnpaid env chain call ∨
      ∃ payout, (chain.step env call).bridge.payouts = chain.bridge.payouts ++ [payout] ∧
        (ReachesUnpaid env chain call ↔ payout ∉ chain.bridge.payouts) := by
  rw [step]
  cases hexec : chain.exec env call with
  | none =>
    refine .inl ⟨rfl, ?_⟩
    cases call with
    | deposit sender payout accepts =>
      intro hsome
      have hnone : chain.deposit env sender payout accepts = none := hexec
      rw [hnone] at hsome
      cases hsome
    | _ => trivial
  | some chain' =>
    rw [Option.getD_some]
    by_cases hcall : ∃ sender payout accepts, call = .deposit sender payout accepts
    · obtain ⟨sender, payout, accepts, rfl⟩ := hcall
      have hpayouts := (deposit_cases hexec).payouts
      have hsome : (chain.deposit env sender payout accepts).isSome :=
        Option.isSome_of_eq_some hexec
      split at hpayouts
      · rename_i hreached
        refine .inr ⟨payout, hpayouts, fun hunpaid hmem => ?_, fun hmem _ hpaid => ?_⟩
        · exact hunpaid hsome hmem hreached
        · exact absurd hpaid hmem
      · rename_i hreached
        exact .inl ⟨hpayouts.trans (List.append_nil _), fun _ _ => hreached⟩
    · push Not at hcall
      refine .inl ⟨(exec_frame hexec hcall).2.1, ?_⟩
      cases call with
      | deposit sender payout accepts => exact absurd rfl (hcall sender payout accepts)
      | _ => trivial

theorem nodup_payouts_run_iff {env : Evm Digest} (calls : List Call)
    (chain : ForeignChain Digest) (h : chain.bridge.payouts.Nodup) :
    (run env chain calls).bridge.payouts.Nodup ↔
      Runs.Along (step env) (ReachesUnpaid env) chain calls := by
  refine @Runs.nodup_foldl_iff _ _ _ (step env) (fun chain => chain.bridge.payouts)
    (ReachesUnpaid env) (fun _ => True) (fun chain call => ?_) (fun _ _ _ _ => trivial)
    (fun chain call _ => payouts_step_cases chain call) calls chain trivial h
  rcases @payouts_step_cases _ _ env chain call with ⟨hsame, -⟩ | ⟨payout, hnew, -⟩
  · rw [hsame]
  · rw [hnew]
    exact List.sublist_append_left _ _

/-- In every run, every deposit is paid at most once if and only if no confirmation
of a paid deposit reaches the threshold of its moment. -/
theorem count_payouts_le_one_iff (env : Evm Digest) (calls : List Call) :
    (∀ payout, (run env deployed calls).bridge.payouts.count payout ≤ 1) ↔
      Runs.Along (step env) (ReachesUnpaid env) deployed calls := by
  rw [← nodup_payouts_run_iff calls deployed List.nodup_nil, List.nodup_iff_count_le_one]

/-- A confirmation of a paid deposit is above the threshold, if the threshold is
covered. -/
theorem PaidInv.reachesUnpaid {env : Evm Digest} {chain : ForeignChain Digest}
    (h : PaidInv env chain) (call : Call) : ReachesUnpaid env chain call := by
  cases call with
  | deposit sender payout accepts =>
    intro _ hpaid hreached
    have := h.covered payout hpaid
    omega
  | _ => trivial

/-- In every run that never sets the threshold above the confirmations of a
paid deposit, every deposit is paid at most once: its `Deposit` event is emitted
at most once, and each of these events belongs to one transfer. -/
theorem count_payouts_le_one (env : Evm Digest) (calls : List Call)
    (hcalls : Runs.Along (step env) (ThresholdCovered env) deployed calls) (payout : Payout) :
    let bridge := (run env deployed calls).bridge
    bridge.payouts.count payout ≤ 1 ∧ bridge.transfers = bridge.payouts.map Payout.payment := by
  have hunpaid := Runs.Along.of_invariant (fun _ _ => paidInv_step)
    (fun _ call h _ => h.reachesUnpaid call) hcalls ⟨fun _ h => (by cases h), List.nodup_nil⟩
  exact ⟨(count_payouts_le_one_iff env calls).2 hunpaid payout,
    (accounted_run env calls accounted_deployed).transfers⟩

/-- Two validators, a threshold of `1`, and ether for the payouts. -/
def twoValidators : List Call :=
  [ .registry 0xff (.initializeValidators 1 [0xa1, 0xa2] 0xff)
  , .initializeBridge 0xb2
  , .fallback 0xc1 100 [] ]

/-- The owner raises the threshold after both validators have confirmed. -/
def coveredRun : List Call := twoValidators ++
  [ .deposit 0xa1 ⟨0xc2, 5, 7⟩ true
  , .deposit 0xa2 ⟨0xc2, 5, 7⟩ true
  , .registry 0xff (.setRequiredSignatures 2)
  , .deposit 0xa1 ⟨0xc2, 6, 7⟩ true
  , .deposit 0xa2 ⟨0xc2, 6, 7⟩ true ]

theorem count_payouts_le_one_coveredRun :
    Runs.Along (step transparentEvm) (ThresholdCovered transparentEvm) deployed coveredRun ∧
      (run transparentEvm deployed coveredRun).bridge.payouts = [⟨0xc2, 5, 7⟩, ⟨0xc2, 6, 7⟩] ∧
      (run transparentEvm deployed coveredRun).bridge.balance = 89 ∧
      (run transparentEvm deployed coveredRun).bridge.payouts.count ⟨0xc2, 5, 7⟩ ≤ 1 :=
  have halong : Runs.Along (step transparentEvm) (ThresholdCovered transparentEvm) deployed
      coveredRun := by decide +kernel
  ⟨halong, by decide +kernel, by decide +kernel,
    (count_payouts_le_one transparentEvm coveredRun halong _).1⟩

/-- The owner raises the threshold between the two confirmations. -/
def raisedThresholdRun : List Call := twoValidators ++
  [ .deposit 0xa1 ⟨0xc2, 5, 7⟩ true
  , .registry 0xff (.setRequiredSignatures 2)
  , .deposit 0xa2 ⟨0xc2, 5, 7⟩ true ]

/-- The deposit is paid by the first confirmation, when the threshold is `1`,
and again by the second one, when the threshold is `2`. -/
theorem second_payout_after_raised_threshold :
    let bridge := (run transparentEvm deployed raisedThresholdRun).bridge
    (¬ ∀ payout : Payout, bridge.payouts.count payout ≤ 1) ∧
      bridge.transfers = [(0xc2, 5), (0xc2, 5)] ∧ bridge.balance = 90 := by
  refine ⟨fun h => ?_, by decide +kernel, by decide +kernel⟩
  exact absurd (h ⟨0xc2, 5, 7⟩) (by decide +kernel)

end ForeignChain

end PoaBridge.Truffle
