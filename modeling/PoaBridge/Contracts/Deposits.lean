import PoaBridge.Contracts.Foreign
import PoaBridge.Lib.Runs
import PoaBridge.Truffle.Foreign

/-!
# Tokens and `ForeignBridge` of `contracts/bridge.sol`

The part of the contract that moves tokens: `setTokenAddress`, `deposit` and
`receiveApproval`.  It shares the threshold and the authorities with the
collection of signatures, and keeps its own mappings.

The tokens of the chain are a parameter, as the contract sees them: a state and
the functions of the interface `ERC20`.  A call of a token that fails reverts
the transaction, and so does not leave a mark.

`Counted` is the invariant of a run for one deposit, and `deposit_threshold` is
the result: the counter is the number of the authorities that have confirmed the
deposit, and the tokens are transferred in the call of the one that reaches the
threshold.
-/

namespace PoaBridge.Contracts

open Truffle (Payout)

/-! ## The contract -/

/-- `contract ERC20`: the functions that the bridge calls, on the state `τ` of
the tokens of the chain.  `none` is a revert. -/
structure ERC20 (τ : Type) where
  transfer : (token sender target : Address) → U256 → τ → Option τ
  transferFrom : (token sender source target : Address) → U256 → τ → Option τ
  allowance : (token owner spender : Address) → τ → Option U256

inductive TokenEvent where
  | tokenAddress (token : Address)
  | deposit (recipient : Address) (value : U256)
  | withdraw (recipient : Address) (value : U256) (homeGasPrice : U256)
deriving DecidableEq, Repr

/-- The whole storage of the contract. -/
structure ForeignContract (Digest : Type) extends ForeignBridge Digest where
  homeGasPrice : U256
  depositsSigned : Digest → Bool
  numDepositsSigned : Digest → Nat
  erc20token : Address
  tokenAddressAprrovalSigns : Digest → Bool
  numTokenAddressAprrovalSigns : Address → Nat
  /-- The events emitted so far, apart from those of the collection. -/
  tokenLogs : List TokenEvent

/-- A call of `transferFrom` that `receiveApproval` has executed, with the tokens
before and after it. -/
structure Receipt (τ : Type) where
  source : Address
  value : U256
  before : τ
  after : τ

/-- The chain of the contract.  `transfers` are the calls of `transfer` that
`deposit` has executed, and `receipts` those of `transferFrom`; the contract does
not have these records. -/
structure ForeignChain (Digest τ : Type) where
  bridge : ForeignContract Digest
  tokens : τ
  transfers : List Payout
  receipts : List (Receipt τ)

/-- The EVM, the address of the contract, and the tokens. -/
structure ForeignEnv (Digest τ : Type) extends Evm Digest where
  bridge : Address
  erc20 : ERC20 τ

variable {Digest τ : Type}

/-- `keccak256(recipient, value, transactionHash)`. -/
def ForeignEnv.hashMsg (env : ForeignEnv Digest τ) (payout : Payout) : Digest :=
  env.keccak256 payout.packed

/-- `keccak256(msg.sender, token)`. -/
def ForeignEnv.tokenSender (env : ForeignEnv Digest τ) (sender token : Address) : Digest :=
  env.keccak256 (addressBytes sender ++ addressBytes token)

namespace ForeignContract

/-- The constructor. -/
def deploy (requiredSignatures : Nat) (authorities : List Address) :
    Option (ForeignContract Digest) := do
  let collection ← ForeignBridge.deploy requiredSignatures authorities
  return {
    toForeignBridge := collection
    homeGasPrice := 1000000000
    depositsSigned := fun _ => false
    numDepositsSigned := fun _ => 0
    erc20token := 0
    tokenAddressAprrovalSigns := fun _ => false
    numTokenAddressAprrovalSigns := fun _ => 0
    tokenLogs := [] }

def emit (self : ForeignContract Digest) (event : TokenEvent) : ForeignContract Digest :=
  { self with tokenLogs := self.tokenLogs ++ [event] }

variable [DecidableEq Digest]

/-- `setTokenAddress`, `public onlyAuthority()`. -/
def setTokenAddress (self : ForeignContract Digest) (env : ForeignEnv Digest τ)
    (sender token : Address) : Option (ForeignContract Digest) := do
  require (self.authorities sender = true)
  let tokenSender := env.tokenSender sender token
  require (self.tokenAddressAprrovalSigns tokenSender = false)
  let signed := self.numTokenAddressAprrovalSigns token + 1
  let self := { self with
    tokenAddressAprrovalSigns := Function.update self.tokenAddressAprrovalSigns tokenSender true
    numTokenAddressAprrovalSigns :=
      Function.update self.numTokenAddressAprrovalSigns token signed }
  if signed = self.requiredSignatures then
    return { self with erc20token := token }.emit (.tokenAddress token)
  else
    return self

end ForeignContract

namespace ForeignChain

variable [DecidableEq Digest]

/-- The deployment of the contract on a chain with tokens. -/
def deploy (requiredSignatures : Nat) (authorities : List Address) (tokens : τ) :
    Option (ForeignChain Digest τ) := do
  let bridge ← ForeignContract.deploy requiredSignatures authorities
  return ⟨bridge, tokens, [], []⟩

/-- `deposit`, `public onlyAuthority()`. -/
def deposit (self : ForeignChain Digest τ) (env : ForeignEnv Digest τ) (sender : Address)
    (payout : Payout) : Option (ForeignChain Digest τ) := do
  require (self.bridge.authorities sender = true)
  require (self.bridge.erc20token ≠ 0)
  let hashMsg := env.hashMsg payout
  let hashSender := env.hashSender sender hashMsg
  -- duplicated deposits
  require (self.bridge.depositsSigned hashSender = false)
  let signed := self.bridge.numDepositsSigned hashMsg + 1
  let bridge := { self.bridge with
    depositsSigned := Function.update self.bridge.depositsSigned hashSender true
    numDepositsSigned := Function.update self.bridge.numDepositsSigned hashMsg signed }
  if signed = bridge.requiredSignatures then
    let tokens ← env.erc20.transfer bridge.erc20token env.bridge payout.recipient payout.value
      self.tokens
    return { self with
      bridge := bridge.emit (.deposit payout.recipient payout.value)
      tokens := tokens
      transfers := self.transfers ++ [payout] }
  else
    return { self with bridge := bridge }

/-- `receiveApproval`.  The code does not look at the last two arguments. -/
def receiveApproval (self : ForeignChain Digest τ) (env : ForeignEnv Digest τ)
    (sender source : Address) (value : U256) : Option (ForeignChain Digest τ) := do
  require (self.bridge.erc20token ≠ 0)
  require (sender = self.bridge.erc20token)
  let allowance ← env.erc20.allowance self.bridge.erc20token source env.bridge self.tokens
  require (value.toNat ≤ allowance.toNat)
  let tokens ← env.erc20.transferFrom self.bridge.erc20token env.bridge source env.bridge value
    self.tokens
  return { self with
    bridge := self.bridge.emit (.withdraw source value self.bridge.homeGasPrice)
    tokens := tokens
    receipts := self.receipts ++ [⟨source, value, self.tokens, tokens⟩] }

/-- A call of the contract. -/
inductive Call where
  | setTokenAddress (sender token : Address)
  | deposit (sender : Address) (payout : Payout)
  | receiveApproval (sender source : Address) (value : U256)
  | submitSignature (submission : Submission)

/-- `msg.sender`. -/
def Call.sender : Call → Address
  | .setTokenAddress sender _ => sender
  | .deposit sender _ => sender
  | .receiveApproval sender _ _ => sender
  | .submitSignature submission => submission.sender

/-- One call; `none` is a revert. -/
def exec (env : ForeignEnv Digest τ) (self : ForeignChain Digest τ) :
    Call → Option (ForeignChain Digest τ)
  | .setTokenAddress sender token => do
    let bridge ← self.bridge.setTokenAddress env sender token
    return { self with bridge := bridge }
  | .deposit sender payout => self.deposit env sender payout
  | .receiveApproval sender source value => self.receiveApproval env sender source value
  | .submitSignature submission => do
    let collection ← self.bridge.toForeignBridge.submitSignature env.toEvm submission
    return { self with bridge := { self.bridge with toForeignBridge := collection } }

/-- A transaction on the foreign chain. -/
inductive Input (τ : Type) where
  | call (call : Call)
  /-- Somebody else uses the tokens. -/
  | tokens (next : τ)

/-- One transaction; `none` is a revert. -/
def accept (env : ForeignEnv Digest τ) (self : ForeignChain Digest τ) :
    Input τ → Option (ForeignChain Digest τ)
  | .call call => exec env self call
  | .tokens next => some { self with tokens := next }

/-- The chain after a list of transactions.  A reverted one changes nothing. -/
def run (env : ForeignEnv Digest τ) (self : ForeignChain Digest τ) (inputs : List (Input τ)) :
    ForeignChain Digest τ :=
  inputs.foldl (Runs.attempt (accept env)) self

/-! ## What a call does -/

/-- What a successful `deposit` checked, and what it changed. -/
structure DepositDone (env : ForeignEnv Digest τ) (chain : ForeignChain Digest τ)
    (sender : Address) (payout : Payout) (chain' : ForeignChain Digest τ) : Prop where
  authority : chain.bridge.authorities sender = true
  fresh : chain.bridge.depositsSigned (env.hashSender sender (env.hashMsg payout)) = false
  collection : chain'.bridge.toForeignBridge = chain.bridge.toForeignBridge
  marks : chain'.bridge.depositsSigned = Function.update chain.bridge.depositsSigned
    (env.hashSender sender (env.hashMsg payout)) true
  numbers : chain'.bridge.numDepositsSigned = Function.update chain.bridge.numDepositsSigned
    (env.hashMsg payout) (chain.bridge.numDepositsSigned (env.hashMsg payout) + 1)
  transfers : chain'.transfers = chain.transfers ++
    if chain.bridge.numDepositsSigned (env.hashMsg payout) + 1 = chain.bridge.requiredSignatures
      then [payout] else []
  logs : chain'.bridge.tokenLogs = chain.bridge.tokenLogs ++
    if chain.bridge.numDepositsSigned (env.hashMsg payout) + 1 = chain.bridge.requiredSignatures
      then [.deposit payout.recipient payout.value] else []
  executed : chain.bridge.numDepositsSigned (env.hashMsg payout) + 1
      = chain.bridge.requiredSignatures →
    env.erc20.transfer chain.bridge.erc20token env.bridge payout.recipient payout.value
      chain.tokens = some chain'.tokens
  pending : chain.bridge.numDepositsSigned (env.hashMsg payout) + 1
      ≠ chain.bridge.requiredSignatures → chain'.tokens = chain.tokens
  receipts : chain'.receipts = chain.receipts

theorem deposit_cases {env : ForeignEnv Digest τ} {chain chain' : ForeignChain Digest τ}
    {sender : Address} {payout : Payout} (h : chain.deposit env sender payout = some chain') :
    DepositDone env chain sender payout chain' := by
  unfold deposit at h
  simp only [require_bind_eq_some] at h
  obtain ⟨hauthority, -, hfresh, h⟩ := h
  split at h
  · rename_i hreached
    obtain ⟨tokens, htransfer, h⟩ := Option.bind_eq_some_iff.1 h
    rw [← Option.some.inj h]
    refine ⟨hauthority, hfresh, rfl, rfl, rfl, ?_, ?_, fun _ => htransfer,
      fun hne => absurd hreached hne, rfl⟩
    · rw [if_pos hreached]
    · rw [if_pos hreached]
      rfl
  · rename_i hreached
    rw [← Option.some.inj h]
    refine ⟨hauthority, hfresh, rfl, rfl, rfl, ?_, ?_, fun heq => absurd heq hreached,
      fun _ => rfl, rfl⟩
    all_goals rw [if_neg hreached, List.append_nil]

/-- What a successful `receiveApproval` checked, and what it changed. -/
structure ApprovalDone (env : ForeignEnv Digest τ) (chain : ForeignChain Digest τ)
    (sender source : Address) (value : U256) (chain' : ForeignChain Digest τ) : Prop where
  sender : sender = chain.bridge.erc20token
  executed : env.erc20.transferFrom chain.bridge.erc20token env.bridge source env.bridge value
    chain.tokens = some chain'.tokens
  bridge : chain'.bridge
    = chain.bridge.emit (.withdraw source value chain.bridge.homeGasPrice)
  transfers : chain'.transfers = chain.transfers
  receipts : chain'.receipts = chain.receipts ++ [⟨source, value, chain.tokens, chain'.tokens⟩]

omit [DecidableEq Digest] in
theorem receiveApproval_cases {env : ForeignEnv Digest τ} {chain chain' : ForeignChain Digest τ}
    {sender source : Address} {value : U256}
    (h : chain.receiveApproval env sender source value = some chain') :
    ApprovalDone env chain sender source value chain' := by
  unfold receiveApproval at h
  simp only [require_bind_eq_some] at h
  obtain ⟨-, hsender, h⟩ := h
  obtain ⟨allowance, -, h⟩ := Option.bind_eq_some_iff.1 h
  rw [require_bind_eq_some] at h
  obtain ⟨tokens, htransfer, h⟩ := Option.bind_eq_some_iff.1 h.2
  rw [← Option.some.inj h]
  exact ⟨hsender, htransfer, rfl, rfl, rfl⟩

/-- What `deposit` uses. -/
structure SameDeposits (chain chain' : ForeignChain Digest τ) : Prop where
  requiredSignatures : chain'.bridge.requiredSignatures = chain.bridge.requiredSignatures
  authorities : chain'.bridge.authorities = chain.bridge.authorities
  marks : chain'.bridge.depositsSigned = chain.bridge.depositsSigned
  numbers : chain'.bridge.numDepositsSigned = chain.bridge.numDepositsSigned
  transfers : chain'.transfers = chain.transfers

/-- The other transactions touch nothing that `deposit` uses. -/
theorem accept_frame {env : ForeignEnv Digest τ} {chain chain' : ForeignChain Digest τ}
    {input : Input τ} (h : chain.accept env input = some chain')
    (hinput : ∀ sender payout, input ≠ .call (.deposit sender payout)) :
    SameDeposits chain chain' := by
  cases input with
  | tokens next =>
    rw [← Option.some.inj h]
    exact ⟨rfl, rfl, rfl, rfl, rfl⟩
  | call call => cases call with
  | setTokenAddress sender token =>
    obtain ⟨bridge, hbridge, h⟩ := Option.bind_eq_some_iff.1 h
    rw [← Option.some.inj h]
    unfold ForeignContract.setTokenAddress at hbridge
    simp only [require_bind_eq_some] at hbridge
    obtain ⟨-, -, hbridge⟩ := hbridge
    split at hbridge
    all_goals
      rw [← Option.some.inj hbridge]
      exact ⟨rfl, rfl, rfl, rfl, rfl⟩
  | deposit sender payout => exact absurd rfl (hinput sender payout)
  | receiveApproval sender source value =>
    have hdone := receiveApproval_cases h
    refine ⟨?_, ?_, ?_, ?_, hdone.transfers⟩
    all_goals
      rw [hdone.bridge]
      rfl
  | submitSignature submission =>
    obtain ⟨collection, hcollection, h⟩ := Option.bind_eq_some_iff.1 h
    obtain ⟨-, -, rfl⟩ := ForeignBridge.submitSignature_eq_some.1 hcollection
    rw [← Option.some.inj h]
    exact ⟨rfl, rfl, rfl, rfl, rfl⟩

/-- One more transaction. -/
theorem run_concat (env : ForeignEnv Digest τ) (start : ForeignChain Digest τ)
    (inputs : List (Input τ)) (input : Input τ) :
    start.run env (inputs ++ [input])
      = ((start.run env inputs).accept env input).getD (start.run env inputs) := by
  unfold run
  rw [List.foldl_append]
  rfl

/-- A call that has executed no transfer of either kind leaves the tokens as they were. -/
theorem tokens_of_exec {env : ForeignEnv Digest τ} {chain chain' : ForeignChain Digest τ}
    {call : Call} (h : chain.exec env call = some chain')
    (htransfers : chain'.transfers = chain.transfers)
    (hreceipts : chain'.receipts = chain.receipts) : chain'.tokens = chain.tokens := by
  cases call with
  | setTokenAddress sender token =>
    obtain ⟨bridge, -, h⟩ := Option.bind_eq_some_iff.1 h
    rw [← Option.some.inj h]
  | deposit sender payout =>
    have hdone := deposit_cases h
    refine hdone.pending fun hreached => ?_
    have hnew := hdone.transfers
    rw [if_pos hreached, htransfers] at hnew
    simp at hnew
  | receiveApproval sender source value =>
    have hnew := (receiveApproval_cases h).receipts
    rw [hreceipts] at hnew
    simp at hnew
  | submitSignature submission =>
    obtain ⟨collection, -, h⟩ := Option.bind_eq_some_iff.1 h
    rw [← Option.some.inj h]

/-! ## The authorities that confirm a deposit -/

/-- The sender of a transaction that confirms the deposit. -/
def Input.depositor (payout : Payout) : Input τ → Option Address
  | .call (.deposit sender payout') => if payout' = payout then some sender else none
  | _ => none

theorem Input.depositor_eq_some {payout : Payout} {input : Input τ} {sender : Address} :
    input.depositor payout = some sender ↔ input = .call (.deposit sender payout) := by
  unfold Input.depositor
  split
  · rename_i sender' payout'
    constructor
    · intro h
      split at h
      · rename_i heq
        rw [heq, Option.some.inj h]
      · cases h
    · intro h
      cases h
      exact if_pos rfl
  · rename_i hother
    exact ⟨fun h => (by cases h), fun h => absurd h (hother sender payout)⟩

/-- The senders of the calls of `deposit` that succeeded for this deposit. -/
def depositors (env : ForeignEnv Digest τ) (start : ForeignChain Digest τ) (payout : Payout)
    (inputs : List (Input τ)) : Finset Address :=
  ((Runs.accepted (accept env) start inputs).filterMap (Input.depositor payout)).toFinset

/-- What one more transaction adds to the depositors. -/
theorem depositors_append (env : ForeignEnv Digest τ) (start : ForeignChain Digest τ)
    (payout : Payout) (inputs : List (Input τ)) (input : Input τ) :
    depositors env start payout (inputs ++ [input]) = depositors env start payout inputs ∪
      if ((start.run env inputs).accept env input).isSome
        then (input.depositor payout).toList.toFinset else ∅ := by
  unfold depositors
  rw [Runs.accepted_append, List.filterMap_append, List.toFinset_append]
  congr 1
  show (List.filterMap _ (if ((start.run env inputs).accept env input).isSome
    then [input] else [])).toFinset = _
  split
  · rw [List.filterMap_cons]
    cases input.depositor payout <;> rfl
  · rfl

/-! ## The threshold -/

/-- The invariant of a run for one deposit. -/
structure Counted (env : ForeignEnv Digest τ) (start : ForeignChain Digest τ) (payout : Payout)
    (depositors : Finset Address) (chain : ForeignChain Digest τ) : Prop where
  requiredSignatures : chain.bridge.requiredSignatures = start.bridge.requiredSignatures
  authorities : chain.bridge.authorities = start.bridge.authorities
  authority : ∀ a ∈ depositors, start.bridge.authorities a = true
  number : chain.bridge.numDepositsSigned (env.hashMsg payout) = depositors.card
  marked : ∀ a, chain.bridge.depositsSigned (env.hashSender a (env.hashMsg payout))
    = decide (a ∈ depositors)
  transfers : chain.transfers.count payout
    = if start.bridge.requiredSignatures ≤ depositors.card then 1 else 0

section Runs

variable {env : ForeignEnv Digest τ} {start chain chain' : ForeignChain Digest τ}
  {payout : Payout} {signers : Finset Address}

omit [DecidableEq Digest] in
theorem hashMsg_inj (hkeccak : Function.Injective env.keccak256) {p q : Payout}
    (h : env.hashMsg p = env.hashMsg q) : p = q :=
  Payout.packed_injective (hkeccak h)

omit [DecidableEq Digest] in
theorem Counted.frame (h : Counted env start payout signers chain)
    (hsame : SameDeposits chain chain') : Counted env start payout signers chain' := by
  refine ⟨?_, ?_, h.authority, ?_, ?_, ?_⟩
  · rw [hsame.requiredSignatures, h.requiredSignatures]
  · rw [hsame.authorities, h.authorities]
  · rw [hsame.numbers, h.number]
  · intro a
    rw [hsame.marks, h.marked a]
  · rw [hsame.transfers, h.transfers]

/-- A confirmation of another deposit. -/
theorem Counted.other (hkeccak : Function.Injective env.keccak256)
    (hbytes : Function.Injective env.digestBytes) (h : Counted env start payout signers chain)
    {sender : Address} {payout' : Payout} (hdone : DepositDone env chain sender payout' chain')
    (hother : payout' ≠ payout) : Counted env start payout signers chain' := by
  have hhash : env.hashMsg payout ≠ env.hashMsg payout' :=
    fun heq => hother (hashMsg_inj hkeccak heq).symm
  refine ⟨?_, ?_, h.authority, ?_, ?_, ?_⟩
  · rw [hdone.collection, h.requiredSignatures]
  · rw [hdone.collection, h.authorities]
  · rw [hdone.numbers, Function.update_of_ne hhash, h.number]
  · intro a
    have hsender : env.hashSender a (env.hashMsg payout)
        ≠ env.hashSender sender (env.hashMsg payout') :=
      fun heq => hhash (Evm.hashSender_inj hkeccak hbytes heq).2
    rw [hdone.marks, Function.update_of_ne hsender, h.marked a]
  · have hnone : ∀ n m : Nat, List.count payout (if n = m then [payout'] else []) = 0 := by
      intro n m
      split <;> simp [hother]
    rw [hdone.transfers, List.count_append, h.transfers, hnone, Nat.add_zero]

/-- One more confirmation of the deposit. -/
theorem Counted.confirm (hkeccak : Function.Injective env.keccak256)
    (hbytes : Function.Injective env.digestBytes) (h : Counted env start payout signers chain)
    {sender : Address} (hdone : DepositDone env chain sender payout chain') :
    sender ∉ signers ∧ Counted env start payout (insert sender signers) chain' := by
  have hnew : sender ∉ signers := by
    have hfresh := hdone.fresh
    rw [h.marked sender] at hfresh
    exact of_decide_eq_false hfresh
  have hcard := Finset.card_insert_of_notMem hnew
  refine ⟨hnew, ?_, ?_, ?_, ?_, ?_, ?_⟩
  · rw [hdone.collection, h.requiredSignatures]
  · rw [hdone.collection, h.authorities]
  · intro a ha
    rcases Finset.mem_insert.1 ha with rfl | ha
    · rw [← h.authorities]
      exact hdone.authority
    · exact h.authority a ha
  · rw [hdone.numbers, Function.update_self, h.number, hcard]
  · intro a
    rw [hdone.marks]
    by_cases ha : a = sender
    · rw [ha, Function.update_self]
      simp
    · have hsender : env.hashSender a (env.hashMsg payout)
          ≠ env.hashSender sender (env.hashMsg payout) :=
        fun heq => ha (Evm.hashSender_inj hkeccak hbytes heq).1
      rw [Function.update_of_ne hsender, h.marked a]
      simp [ha]
  · rw [hdone.transfers, List.count_append, h.transfers, h.number, h.requiredSignatures, hcard]
    by_cases hreached : signers.card + 1 = start.bridge.requiredSignatures
    · rw [if_pos hreached, if_neg (by omega), if_pos (by omega)]
      simp
    · rw [if_neg hreached, List.count_nil, Nat.add_zero]
      split <;> split <;> omega

/-- One more authority has confirmed the deposit. -/
structure Confirmed (env : ForeignEnv Digest τ) (payout : Payout) (signers : Finset Address)
    (chain : ForeignChain Digest τ) (input : Input τ) (signers' : Finset Address)
    (chain' : ForeignChain Digest τ) (sender : Address) : Prop where
  input_eq : input = .call (.deposit sender payout)
  fresh : sender ∉ signers
  signers_eq : signers' = insert sender signers
  done : DepositDone env chain sender payout chain'

/-- A transaction keeps the invariant.  It leaves the depositors as they are, or
it is the confirmation of one more authority. -/
theorem counted_step (hkeccak : Function.Injective env.keccak256)
    (hbytes : Function.Injective env.digestBytes) {inputs : List (Input τ)}
    (h : Counted env start payout (depositors env start payout inputs) (start.run env inputs))
    (input : Input τ) :
    Counted env start payout (depositors env start payout (inputs ++ [input]))
        (start.run env (inputs ++ [input])) ∧
      (depositors env start payout (inputs ++ [input]) = depositors env start payout inputs ∨
        ∃ sender, Confirmed env payout (depositors env start payout inputs) (start.run env inputs)
          input (depositors env start payout (inputs ++ [input]))
          (start.run env (inputs ++ [input])) sender) := by
  rw [run_concat, depositors_append]
  generalize start.run env inputs = chain at h ⊢
  cases hinput : chain.accept env input with
  | none =>
    rw [Option.getD_none, Option.isSome_none, if_neg (by simp), Finset.union_empty]
    exact ⟨h, Or.inl rfl⟩
  | some chain' =>
    rw [Option.getD_some, Option.isSome_some, if_pos rfl]
    by_cases hdeposit : ∃ sender payout', input = .call (.deposit sender payout')
    · obtain ⟨sender, payout', rfl⟩ := hdeposit
      have hdone := deposit_cases hinput
      by_cases hother : payout' = payout
      · subst hother
        have hsigners : depositors env start payout' inputs ∪
            (Input.depositor payout' (.call (.deposit sender payout') : Input τ)).toList.toFinset
            = insert sender (depositors env start payout' inputs) := by
          rw [Input.depositor_eq_some.2 rfl, Finset.union_comm]
          rfl
        obtain ⟨hnew, hcounted⟩ := h.confirm hkeccak hbytes hdone
        rw [hsigners]
        exact ⟨hcounted, Or.inr ⟨sender, rfl, hnew, rfl, hdone⟩⟩
      · have hnone : Input.depositor payout (.call (.deposit sender payout') : Input τ) = none :=
          if_neg hother
        rw [hnone, Option.toList_none, List.toFinset_nil, Finset.union_empty]
        exact ⟨h.other hkeccak hbytes hdone hother, Or.inl rfl⟩
    · have hnone : input.depositor payout = none := by
        cases hsender : input.depositor payout with
        | none => rfl
        | some sender => exact absurd ⟨sender, payout, Input.depositor_eq_some.1 hsender⟩ hdeposit
      rw [hnone, Option.toList_none, List.toFinset_nil, Finset.union_empty]
      have hframe := accept_frame hinput fun sender payout' heq => hdeposit ⟨sender, payout', heq⟩
      exact ⟨h.frame hframe,
        Or.inl rfl⟩

omit [DecidableEq Digest] in
/-- The chain after the deployment. -/
theorem deploy_spec {requiredSignatures : Nat} {authorities : List Address} {tokens : τ}
    (h : deploy requiredSignatures authorities tokens = some start) :
    1 ≤ requiredSignatures ∧ start.bridge.requiredSignatures = requiredSignatures ∧
      (∀ a, start.bridge.authorities a = true ↔ a ∈ authorities) ∧
      start.bridge.depositsSigned = (fun _ => false) ∧
      start.bridge.numDepositsSigned = (fun _ => 0) ∧ start.transfers = [] := by
  obtain ⟨bridge, hbridge, h⟩ := Option.bind_eq_some_iff.1 h
  obtain ⟨collection, hcollection, hbridge⟩ := Option.bind_eq_some_iff.1 hbridge
  unfold ForeignBridge.deploy at hcollection
  simp only [require_bind_eq_some] at hcollection
  obtain ⟨hpositive, -, hcollection⟩ := hcollection
  rw [← Option.some.inj h, ← Option.some.inj hbridge, ← Option.some.inj hcollection]
  exact ⟨Nat.one_le_iff_ne_zero.2 hpositive, rfl, fun a => List.contains_iff_mem, rfl, rfl, rfl⟩

theorem counted_run (hkeccak : Function.Injective env.keccak256)
    (hbytes : Function.Injective env.digestBytes) {requiredSignatures : Nat}
    {authorities : List Address} {tokens : τ}
    (hdeploy : deploy requiredSignatures authorities tokens = some start) (payout : Payout)
    (inputs : List (Input τ)) :
    Counted env start payout (depositors env start payout inputs) (start.run env inputs) := by
  induction inputs using List.reverseRecOn with
  | nil =>
    obtain ⟨hone, hrequired, -, hmarks, hnumbers, htransfers⟩ := deploy_spec hdeploy
    have hnobody : depositors env start payout [] = ∅ := rfl
    rw [hnobody]
    refine ⟨rfl, rfl, fun a ha => absurd ha (Finset.notMem_empty a), ?_, fun a => ?_, ?_⟩
    · show start.bridge.numDepositsSigned _ = 0
      rw [hnumbers]
    · show start.bridge.depositsSigned _ = decide (a ∈ (∅ : Finset Address))
      rw [hmarks]
      simp
    · show start.transfers.count payout = _
      rw [htransfers, hrequired, Finset.card_empty, if_neg (by omega), List.count_nil]
  | append_singleton inputs input ih => exact (counted_step hkeccak hbytes ih input).1

end Runs

/-- The threshold of the deposits, for every deployment and every sequence of
transactions by any senders: the counter is the number of authorities whose `deposit`
has succeeded, the tokens are transferred once if it has reached the threshold
and not at all before, and the transfer is executed in the call with which one
more authority reaches the threshold.  No other call of the contract touches the
tokens, apart from `transferFrom` in `receiveApproval`. -/
theorem deposit_threshold (env : ForeignEnv Digest τ) (hkeccak : Function.Injective env.keccak256)
    (hbytes : Function.Injective env.digestBytes) (requiredSignatures : Nat)
    (authorities : List Address) (tokens : τ) (start : ForeignChain Digest τ)
    (hdeploy : deploy requiredSignatures authorities tokens = some start) (payout : Payout)
    (inputs : List (Input τ)) :
    let chain := start.run env inputs
    let signers := depositors env start payout inputs
    (∀ a ∈ signers, a ∈ authorities) ∧
      chain.bridge.numDepositsSigned (env.hashMsg payout) = signers.card ∧
      chain.transfers.count payout = (if requiredSignatures ≤ signers.card then 1 else 0) ∧
      ∀ input, let chain' := start.run env (inputs ++ [input])
        let signers' := depositors env start payout (inputs ++ [input])
        (chain'.transfers.count payout ≠ chain.transfers.count payout ↔
          signers.card < requiredSignatures ∧ signers'.card = requiredSignatures) ∧
        (chain'.transfers.count payout ≠ chain.transfers.count payout →
          ∃ sender, sender ∉ signers ∧ input = .call (.deposit sender payout) ∧
            env.erc20.transfer chain.bridge.erc20token env.bridge payout.recipient payout.value
              chain.tokens = some chain'.tokens) ∧
        ∀ call, input = .call call → chain'.transfers = chain.transfers →
          chain'.receipts = chain.receipts → chain'.tokens = chain.tokens := by
  obtain ⟨hone, hrequired, hauthorities, -⟩ := deploy_spec hdeploy
  have hcounted := counted_run hkeccak hbytes hdeploy payout
  have hcount := fun inputs => (hcounted inputs).transfers
  rw [hrequired] at hcount
  dsimp only
  refine ⟨?_, (hcounted inputs).number, hcount inputs, fun input => ⟨?_, ?_, ?_⟩⟩
  · exact fun a ha => (hauthorities a).1 ((hcounted inputs).authority a ha)
  rotate_left 2
  · rintro call rfl htransfers hreceipts
    rw [run_concat] at htransfers hreceipts ⊢
    cases hexec : (start.run env inputs).accept env (.call call) with
    | none => rfl
    | some chain' =>
      rw [hexec] at htransfers hreceipts
      exact tokens_of_exec hexec htransfers hreceipts
  all_goals
    rw [hcount, hcount]
    rcases (counted_step hkeccak hbytes (hcounted inputs) input).2 with hsame | hconfirmed
  · rw [hsame]
    exact ⟨fun hne => absurd rfl hne, fun h => by omega⟩
  · obtain ⟨sender, hconfirmed⟩ := hconfirmed
    rw [hconfirmed.signers_eq, Finset.card_insert_of_notMem hconfirmed.fresh]
    split <;> split <;> omega
  · rw [hsame]
    exact fun hne => absurd rfl hne
  · obtain ⟨sender, hconfirmed⟩ := hconfirmed
    intro hne
    refine ⟨sender, hconfirmed.fresh, hconfirmed.input_eq, hconfirmed.done.executed ?_⟩
    rw [hconfirmed.signers_eq, Finset.card_insert_of_notMem hconfirmed.fresh] at hne
    rw [(hcounted inputs).number, (hcounted inputs).requiredSignatures, hrequired]
    split at hne <;> split at hne <;> omega

/-- A token whose state is the balance of the bridge, for examples. -/
def singleBalance : ForeignEnv Bytes Nat where
  keccak256 := id
  ecrecover := fun _ _ r _ => r.setWidth 160
  digestBytes := id
  bridge := 0xb1
  erc20 := {
    transfer := fun _ _ _ value balance =>
      if value.toNat ≤ balance then some (balance - value.toNat) else none
    transferFrom := fun _ _ _ _ value balance => some (balance + value.toNat)
    allowance := fun _ _ _ _ => some 0 }

/-- The second authority confirms a deposit of 5, and the transfer fails.  After
the bridge has got its tokens the authority tries again. -/
def retriedDeposit : List (Input Nat) :=
  [.call (.setTokenAddress 0xa1 0xc1), .call (.setTokenAddress 0xa2 0xc1),
    .call (.deposit 0xa1 ⟨0xd1, 5, 1⟩), .call (.deposit 0xa2 ⟨0xd1, 5, 1⟩), .tokens 7,
    .call (.deposit 0xa2 ⟨0xd1, 5, 1⟩)]

theorem deposit_threshold_retried : ∃ start : ForeignChain Bytes Nat,
    deploy 2 [0xa1, 0xa2] 0 = some start ∧
      (start.run singleBalance retriedDeposit).transfers.count ⟨0xd1, 5, 1⟩ = 1 := by
  refine ⟨_, rfl, ?_⟩
  rw [(deposit_threshold singleBalance Function.injective_id Function.injective_id 2 [0xa1, 0xa2]
    0 _ rfl ⟨0xd1, 5, 1⟩ retriedDeposit).2.2.1]
  exact if_pos (by decide +kernel)

end ForeignChain

end PoaBridge.Contracts
