import Mathlib.Algebra.BigOperators.Group.List.Basic
import Mathlib.Data.List.Count
import PoaBridge.Lib.Runs
import PoaBridge.Message
import PoaBridge.Truffle.Validators

/-!
# `HomeBridge` of truffle

The contract of `truffle/contracts/HomeBridge.sol` on one chain with its
`BridgeValidators`.

`withdraw` sends ether, and the code of the recipient runs before the call
ends.  That code can call both contracts, and a `withdraw` among these calls
runs the code of its own recipient, so a transaction is a tree: `Call.withdraw`
carries the calls that its recipient makes.  A call of the recipient that
reverts is caught and leaves no trace.  A group of calls that some contract in
between rolls back is not in the list.

The results are in three groups.

* `exec_induction` is the rule for call trees.  Its invariant is indexed by the
  withdrawals that are open, from the moment the ether leaves until the event
  is emitted.
* Replay safety and accounting: `Books` is the invariant, and
  `withdraw_at_most_once_and_accounted` is the result for every run.
* Independence of withdrawals: `withdrawAll_iff_hashes_distinct` says which lists of
  signed messages can all be executed.
-/

namespace PoaBridge.Truffle

open BigEndian

/-! ## The contract -/

/-- What a `withdraw` pays: the fields of its event. -/
structure Withdrawal where
  recipient : Address
  value : U256
  transactionHash : H256
deriving DecidableEq, Repr

inductive HomeEvent where
  | deposit (recipient : Address) (value : U256)
  | withdraw (withdrawal : Withdrawal)
deriving DecidableEq, Repr

structure HomeBridge where
  validatorContract : Address
  withdraws : H256 → Bool
  initialized : Bool
  /-- The ether of the contract. -/
  balance : Nat
  /-- The events emitted so far. -/
  logs : List HomeEvent

/-- The home chain: the bridge and its validator registry. -/
structure HomeChain where
  validators : BridgeValidators
  bridge : HomeBridge

namespace HomeBridge

/-- The storage after the deployment. -/
def deployed : HomeBridge where
  validatorContract := 0
  withdraws := fun _ => false
  initialized := false
  balance := 0
  logs := []

def emit (self : HomeBridge) (event : HomeEvent) : HomeBridge :=
  { self with logs := self.logs ++ [event] }

/-- `withdraws[hash] = true`. -/
def mark (self : HomeBridge) (hash : H256) : HomeBridge :=
  { self with withdraws := Function.update self.withdraws hash true }

/-- Ether leaves the contract. -/
def debit (self : HomeBridge) (value : U256) : HomeBridge :=
  { self with balance := self.balance - value.toNat }

/-- The payable fallback function. -/
def fallback (self : HomeBridge) (sender : Address) (value : U256) (data : Bytes) :
    Option HomeBridge := do
  require (0 < value.toNat)
  require (data.length = 0)
  return { self with balance := self.balance + value.toNat }.emit (.deposit sender value)

/-- The withdrawals that were paid, in the order of their events. -/
def withdrawals (self : HomeBridge) : List Withdrawal :=
  self.logs.filterMap fun
    | .withdraw withdrawal => some withdrawal
    | .deposit .. => none

/-- The transaction hashes that were paid. -/
def paid (self : HomeBridge) : List H256 :=
  self.withdrawals.map Withdrawal.transactionHash

/-- The sum of the values of all `Withdraw` events. -/
def withdrawn (self : HomeBridge) : Nat :=
  (self.withdrawals.map fun withdrawal => withdrawal.value.toNat).sum

/-- The sum of the values of all `Deposit` events. -/
def deposited (self : HomeBridge) : Nat :=
  (self.logs.map fun
    | .deposit _ value => value.toNat
    | .withdraw _ => 0).sum

end HomeBridge

namespace HomeChain

/-- The two contracts after their deployment. -/
def deployed : HomeChain := ⟨.deployed, .deployed⟩

/-- The target of an external call to `validatorContract`. -/
def registry {Digest : Type} (self : HomeChain) (env : Evm Digest) : Option BridgeValidators :=
  env.registryAt self.validators self.bridge.validatorContract

/-- `HomeBridge.initialize`. -/
def initializeBridge (self : HomeChain) (validatorContractAddress : Address) :
    Option HomeChain := do
  require (self.bridge.initialized = false)
  return { self with bridge := { self.bridge with
    validatorContract := validatorContractAddress
    initialized := true } }

/-- A transaction on the home chain, or a call that a recipient makes.  For a
`withdraw`, `rest` is the memory behind the message, `code` are the calls of
the recipient, and `accepts` is whether it takes the ether. -/
inductive Call where
  | registry (sender : Address) (call : BridgeValidators.Call)
  | initializeBridge (validatorContractAddress : Address)
  | fallback (sender : Address) (value : U256) (data : Bytes)
  | withdraw (vs : List UInt8) (rs ss : List H256) (message : Bytes) (rest : Memory)
      (code : List Call) (accepts : Bool)

variable {Digest : Type}

/-- `withdraw` up to the moment the ether leaves: the checks, the mark, and
the debit of `recipient.transfer(value)`. -/
def openWithdraw (self : HomeChain) (env : Evm Digest) (vs : List UInt8) (rs ss : List H256)
    (message : Bytes) (rest : Memory) : Option (HomeChain × Withdrawal) := do
  let validatorContract ← self.registry env
  hasEnoughValidSignatures env.keccak256 env.ecrecover message vs rs ss validatorContract
  let memory := bytesInMemory message rest
  let withdrawal : Withdrawal :=
    ⟨getRecipient memory, getValue memory, getTransactionHash memory⟩
  require (self.bridge.withdraws withdrawal.transactionHash = false)
  let bridge := self.bridge.mark withdrawal.transactionHash
  require (withdrawal.value.toNat ≤ bridge.balance)
  return ({ self with bridge := bridge.debit withdrawal.value }, withdrawal)

/-- `withdraw` after the recipient has taken the ether. -/
def closeWithdraw (self : HomeChain) (withdrawal : Withdrawal) : HomeChain :=
  { self with bridge := self.bridge.emit (.withdraw withdrawal) }

mutual

/-- One call; `none` is a revert. -/
def exec (env : Evm Digest) (self : HomeChain) : Call → Option HomeChain
  | .registry sender call => do
    let validators ← self.validators.call sender call
    return { self with validators := validators }
  | .initializeBridge validatorContractAddress => self.initializeBridge validatorContractAddress
  | .fallback sender value data => do
    let bridge ← self.bridge.fallback sender value data
    return { self with bridge := bridge }
  | .withdraw vs rs ss message rest code accepts => do
    let (chain, withdrawal) ← self.openWithdraw env vs rs ss message rest
    -- the bridge that pays itself runs its own fallback function
    if withdrawal.recipient = env.bridge then
      let bridge ← chain.bridge.fallback env.bridge withdrawal.value []
      return { chain with bridge := bridge }.closeWithdraw withdrawal
    else
      require (accepts = true)
      return (execAll env chain code).closeWithdraw withdrawal

/-- A list of calls.  A reverted one changes nothing. -/
def execAll (env : Evm Digest) (self : HomeChain) : List Call → HomeChain
  | [] => self
  | call :: calls => execAll env ((exec env self call).getD self) calls

end

/-- A reverted transaction changes nothing. -/
def step (env : Evm Digest) (self : HomeChain) (call : Call) : HomeChain :=
  (self.exec env call).getD self

/-- The chain after a list of transactions. -/
def run (env : Evm Digest) (self : HomeChain) (calls : List Call) : HomeChain :=
  calls.foldl (step env) self

/-! ## The rule for call trees -/

/-- What `openWithdraw` checked, and what it changed. -/
structure Opened (env : Evm Digest) (chain : HomeChain) (vs : List UInt8) (rs ss : List H256)
    (message : Bytes) (rest : Memory) (chain' : HomeChain) (withdrawal : Withdrawal) :
    Prop where
  linked : chain.bridge.validatorContract = env.validators
  quorum : hasEnoughValidSignatures env.keccak256 env.ecrecover message vs rs ss
    chain.validators = some ()
  read : withdrawal = ⟨getRecipient (bytesInMemory message rest),
    getValue (bytesInMemory message rest), getTransactionHash (bytesInMemory message rest)⟩
  fresh : chain.bridge.withdraws withdrawal.transactionHash = false
  funded : withdrawal.value.toNat ≤ chain.bridge.balance
  result : chain' = { chain with
    bridge := (chain.bridge.mark withdrawal.transactionHash).debit withdrawal.value }

theorem openWithdraw_eq_some {env : Evm Digest} {chain chain' : HomeChain} {vs : List UInt8}
    {rs ss : List H256} {message : Bytes} {rest : Memory} {withdrawal : Withdrawal} :
    chain.openWithdraw env vs rs ss message rest = some (chain', withdrawal) ↔
      Opened env chain vs rs ss message rest chain' withdrawal := by
  constructor
  · intro h
    obtain ⟨validators, hregistry, h⟩ := Option.bind_eq_some_iff.1 h
    obtain ⟨hlinked, rfl⟩ := Evm.registryAt_eq_some.1 hregistry
    obtain ⟨_, hquorum, h⟩ := Option.bind_eq_some_iff.1 h
    simp only [require_bind_eq_some] at h
    obtain ⟨hfresh, hfunded, h⟩ := h
    obtain ⟨hchain, hwithdrawal⟩ := Prod.mk.inj (Option.some.inj h)
    subst hwithdrawal
    exact ⟨hlinked, hquorum, rfl, hfresh, hfunded, hchain.symm⟩
  · rintro ⟨hlinked, hquorum, rfl, hfresh, hfunded, rfl⟩
    refine Option.bind_eq_some_iff.2 ⟨chain.validators, ?_, ?_⟩
    · exact Evm.registryAt_eq_some.2 ⟨hlinked, rfl⟩
    · refine Option.bind_eq_some_iff.2 ⟨(), hquorum, ?_⟩
      simp only [require_bind_eq_some]
      exact ⟨hfresh, hfunded, rfl⟩

/-- Every call of the tree satisfies `P`. -/
inductive Call.Forall (P : Call → Prop) : Call → Prop
  | registry {sender call} : P (.registry sender call) → Forall P (.registry sender call)
  | initializeBridge {address} :
      P (.initializeBridge address) → Forall P (.initializeBridge address)
  | fallback {sender value data} :
      P (.fallback sender value data) → Forall P (.fallback sender value data)
  | withdraw {vs rs ss message rest code accepts} :
      P (.withdraw vs rs ss message rest code accepts) → (∀ call ∈ code, Forall P call) →
      Forall P (.withdraw vs rs ss message rest code accepts)

mutual

theorem Call.forall_true : ∀ call : Call, call.Forall fun _ => True
  | .registry .. => .registry trivial
  | .initializeBridge .. => .initializeBridge trivial
  | .fallback .. => .fallback trivial
  | .withdraw _ _ _ _ _ code _ => .withdraw trivial (Call.forall_true_code code)

theorem Call.forall_true_code : ∀ code : List Call, ∀ call ∈ code, call.Forall fun _ => True
  | [], _, h => nomatch h
  | first :: code, call, h => by
    rcases List.mem_cons.1 h with heq | h
    · rw [heq]
      exact Call.forall_true first
    · exact Call.forall_true_code code call h

end

/-- The five primitive steps of calls that satisfy `P` keep an invariant that
is indexed by the open withdrawals. -/
structure KeptByCalls (env : Evm Digest) (P : Call → Prop)
    (Inv : List Withdrawal → HomeChain → Prop) : Prop where
  registry : ∀ {pending chain sender call validators}, Inv pending chain →
    P (.registry sender call) → chain.validators.call sender call = some validators →
    Inv pending { chain with validators := validators }
  initializeBridge : ∀ {pending chain address chain'}, Inv pending chain →
    chain.initializeBridge address = some chain' → Inv pending chain'
  fallback : ∀ {pending chain sender value data bridge}, Inv pending chain →
    chain.bridge.fallback sender value data = some bridge →
    Inv pending { chain with bridge := bridge }
  openWithdraw : ∀ {pending chain vs rs ss message rest code accepts chain' withdrawal},
    Inv pending chain → P (.withdraw vs rs ss message rest code accepts) →
    Opened env chain vs rs ss message rest chain' withdrawal →
    Inv (withdrawal :: pending) chain'
  closeWithdraw : ∀ {pending chain withdrawal}, Inv (withdrawal :: pending) chain →
    Inv pending (chain.closeWithdraw withdrawal)

mutual

/-- The rule for call trees.  An invariant that the primitive steps keep is
kept by a call with everything below it. -/
theorem exec_induction {env : Evm Digest} {P : Call → Prop}
    {Inv : List Withdrawal → HomeChain → Prop} (hkept : KeptByCalls env P Inv)
    {pending : List Withdrawal} {chain chain' : HomeChain} (hinv : Inv pending chain) :
    ∀ call, call.Forall P → exec env chain call = some chain' → Inv pending chain'
  | .registry sender call, .registry hP, h => by
    rw [exec, Option.bind_eq_bind, Option.bind_eq_some_iff] at h
    obtain ⟨validators, hcall, h⟩ := h
    rw [← Option.some.inj h]
    exact hkept.registry hinv hP hcall
  | .initializeBridge address, _, h => hkept.initializeBridge hinv h
  | .fallback sender value data, _, h => by
    rw [exec, Option.bind_eq_bind, Option.bind_eq_some_iff] at h
    obtain ⟨bridge, hbridge, h⟩ := h
    rw [← Option.some.inj h]
    exact hkept.fallback hinv hbridge
  | .withdraw vs rs ss message rest code accepts, .withdraw hP hcode, h => by
    rw [exec, Option.bind_eq_bind, Option.bind_eq_some_iff] at h
    obtain ⟨⟨opened, withdrawal⟩, hopened, h⟩ := h
    have hinv' := hkept.openWithdraw hinv hP (openWithdraw_eq_some.1 hopened)
    dsimp only at h
    split at h
    · rw [Option.bind_eq_bind, Option.bind_eq_some_iff] at h
      obtain ⟨bridge, hbridge, h⟩ := h
      rw [← Option.some.inj h]
      exact hkept.closeWithdraw (hkept.fallback hinv' hbridge)
    · rw [require_bind_eq_some] at h
      rw [← Option.some.inj h.2]
      exact hkept.closeWithdraw (execAll_induction hkept hinv' code hcode)

theorem execAll_induction {env : Evm Digest} {P : Call → Prop}
    {Inv : List Withdrawal → HomeChain → Prop} (hkept : KeptByCalls env P Inv)
    {pending : List Withdrawal} {chain : HomeChain} (hinv : Inv pending chain) :
    ∀ calls, (∀ call ∈ calls, call.Forall P) → Inv pending (execAll env chain calls)
  | [], _ => by
    rw [execAll]
    exact hinv
  | call :: calls, hcalls => by
    rw [execAll]
    refine execAll_induction hkept ?_ calls fun c hc => hcalls c (List.mem_cons_of_mem _ hc)
    cases hcall : exec env chain call with
    | none => exact hinv
    | some chain' => exact exec_induction hkept hinv call (hcalls call (by simp)) hcall

end

/-- At the boundary of a transaction no withdrawal is open. -/
theorem step_induction {env : Evm Digest} {P : Call → Prop}
    {Inv : List Withdrawal → HomeChain → Prop} (hkept : KeptByCalls env P Inv)
    {chain : HomeChain} (hinv : Inv [] chain) {call : Call} (hcall : call.Forall P) :
    Inv [] (chain.step env call) := by
  rw [step]
  cases hexec : exec env chain call with
  | none => exact hinv
  | some chain' => exact exec_induction hkept hinv call hcall hexec

theorem run_induction {env : Evm Digest} {Inv : List Withdrawal → HomeChain → Prop}
    (hkept : KeptByCalls env (fun _ => True) Inv) {chain : HomeChain} (hinv : Inv [] chain)
    (calls : List Call) : Inv [] (run env chain calls) := by
  refine @Runs.foldl_of_step _ _ (step env) (Inv []) ?_ calls chain hinv
  intro s call hs
  exact step_induction hkept hs call.forall_true

/-! ## Replay safety and accounting -/

section Events

variable (bridge : HomeBridge)

@[simp] theorem withdrawals_emit_withdraw (withdrawal : Withdrawal) :
    (bridge.emit (.withdraw withdrawal)).withdrawals = bridge.withdrawals ++ [withdrawal] := by
  simp [HomeBridge.emit, HomeBridge.withdrawals]

@[simp] theorem withdrawals_emit_deposit (recipient : Address) (value : U256) :
    (bridge.emit (.deposit recipient value)).withdrawals = bridge.withdrawals := by
  simp [HomeBridge.emit, HomeBridge.withdrawals]

@[simp] theorem paid_emit_withdraw (withdrawal : Withdrawal) :
    (bridge.emit (.withdraw withdrawal)).paid = bridge.paid ++ [withdrawal.transactionHash] := by
  simp [HomeBridge.paid]

@[simp] theorem paid_emit_deposit (recipient : Address) (value : U256) :
    (bridge.emit (.deposit recipient value)).paid = bridge.paid := by
  simp [HomeBridge.paid]

@[simp] theorem withdrawn_emit_withdraw (withdrawal : Withdrawal) :
    (bridge.emit (.withdraw withdrawal)).withdrawn
      = bridge.withdrawn + withdrawal.value.toNat := by
  simp [HomeBridge.withdrawn]

@[simp] theorem withdrawn_emit_deposit (recipient : Address) (value : U256) :
    (bridge.emit (.deposit recipient value)).withdrawn = bridge.withdrawn := by
  simp [HomeBridge.withdrawn]

@[simp] theorem deposited_emit_withdraw (withdrawal : Withdrawal) :
    (bridge.emit (.withdraw withdrawal)).deposited = bridge.deposited := by
  simp [HomeBridge.emit, HomeBridge.deposited]

@[simp] theorem deposited_emit_deposit (recipient : Address) (value : U256) :
    (bridge.emit (.deposit recipient value)).deposited = bridge.deposited + value.toNat := by
  simp [HomeBridge.emit, HomeBridge.deposited]

end Events

/-- The marks and the ether, with the open withdrawals counted as paid: each of
them is marked and has left the contract, and its event is still to come. -/
structure Books (pending : List Withdrawal) (chain : HomeChain) : Prop where
  marked : ∀ hash, chain.bridge.withdraws hash = true ↔
    hash ∈ chain.bridge.paid ++ pending.map Withdrawal.transactionHash
  distinct : (chain.bridge.paid ++ pending.map Withdrawal.transactionHash).Nodup
  ether : chain.bridge.balance + chain.bridge.withdrawn
    + (pending.map fun withdrawal => withdrawal.value.toNat).sum = chain.bridge.deposited

theorem books_kept (env : Evm Digest) : KeptByCalls env (fun _ => True) Books where
  registry := fun hinv _ _ => ⟨hinv.marked, hinv.distinct, hinv.ether⟩
  initializeBridge := fun hinv h => by
    rw [HomeChain.initializeBridge, require_bind_eq_some] at h
    rw [← Option.some.inj h.2]
    exact ⟨hinv.marked, hinv.distinct, hinv.ether⟩
  fallback := fun {pending chain sender value data bridge} hinv h => by
    simp only [HomeBridge.fallback, require_bind_eq_some] at h
    rw [← Option.some.inj h.2.2]
    refine ⟨?_, ?_, ?_⟩
    · rw [paid_emit_deposit]
      exact hinv.marked
    · rw [paid_emit_deposit]
      exact hinv.distinct
    · have hether := hinv.ether
      rw [withdrawn_emit_deposit, deposited_emit_deposit]
      show chain.bridge.balance + value.toNat + chain.bridge.withdrawn + _
        = chain.bridge.deposited + value.toNat
      omega
  openWithdraw := fun {pending chain vs rs ss message rest _ _ chain' withdrawal} hinv _ h => by
    have hfresh : withdrawal.transactionHash
        ∉ chain.bridge.paid ++ pending.map Withdrawal.transactionHash := by
      rw [← hinv.marked, h.fresh]
      decide
    rw [h.result]
    have hperm : (chain.bridge.paid ++ (withdrawal :: pending).map Withdrawal.transactionHash).Perm
        (withdrawal.transactionHash ::
          (chain.bridge.paid ++ pending.map Withdrawal.transactionHash)) :=
      List.perm_middle
    refine ⟨fun hash => ?_, ?_, ?_⟩
    · refine Iff.trans ?_ hperm.mem_iff.symm
      rw [List.mem_cons, ← hinv.marked]
      show Function.update chain.bridge.withdraws withdrawal.transactionHash true hash = true ↔ _
      by_cases heq : hash = withdrawal.transactionHash
      · simp [heq]
      · rw [Function.update_of_ne heq]
        simp [heq]
    · exact hperm.nodup_iff.2 (List.nodup_cons.2 ⟨hfresh, hinv.distinct⟩)
    · have hether := hinv.ether
      have hfunded := h.funded
      rw [List.map_cons, List.sum_cons]
      show chain.bridge.balance - withdrawal.value.toNat + chain.bridge.withdrawn + _
        = chain.bridge.deposited
      omega
  closeWithdraw := fun {pending chain withdrawal} hinv => by
    have hsplit : (chain.bridge.emit (.withdraw withdrawal)).paid
          ++ pending.map Withdrawal.transactionHash
        = chain.bridge.paid ++ (withdrawal :: pending).map Withdrawal.transactionHash := by
      simp
    refine ⟨?_, ?_, ?_⟩
    · intro hash
      rw [HomeChain.closeWithdraw, hsplit]
      exact hinv.marked hash
    · rw [HomeChain.closeWithdraw, hsplit]
      exact hinv.distinct
    · have hether := hinv.ether
      rw [List.map_cons, List.sum_cons] at hether
      rw [HomeChain.closeWithdraw, withdrawn_emit_withdraw, deposited_emit_withdraw]
      show chain.bridge.balance + _ + _ = chain.bridge.deposited
      omega

theorem books_deployed : Books [] deployed :=
  ⟨by simp [deployed, HomeBridge.deployed, HomeBridge.paid, HomeBridge.withdrawals],
    by simp [deployed, HomeBridge.deployed, HomeBridge.paid, HomeBridge.withdrawals], rfl⟩

/-- No call clears a mark. -/
theorem mark_kept (env : Evm Digest) (hash : H256) :
    KeptByCalls env (fun _ => True) fun _ chain => chain.bridge.withdraws hash = true where
  registry := fun hinv _ _ => hinv
  initializeBridge := fun hinv h => by
    rw [HomeChain.initializeBridge, require_bind_eq_some] at h
    rw [← Option.some.inj h.2]
    exact hinv
  fallback := fun hinv h => by
    simp only [HomeBridge.fallback, require_bind_eq_some] at h
    rw [← Option.some.inj h.2.2]
    exact hinv
  openWithdraw := fun {_ chain _ _ _ _ _ _ _ _ withdrawal} hinv _ h => by
    rw [h.result]
    show Function.update chain.bridge.withdraws withdrawal.transactionHash true hash = true
    by_cases heq : hash = withdrawal.transactionHash
    · simp [heq]
    · rw [Function.update_of_ne heq]
      exact hinv
  closeWithdraw := fun hinv => hinv

/-- Replay safety and accounting.  After every run, with every validator
management and every re-entry of the recipients: each transaction hash was
paid at most once, the marks are exactly the paid hashes, no further run
clears one of them, the ether of the contract is what was deposited less what
was withdrawn, and a transaction that reverts changes neither the ether nor
the marks. -/
theorem withdraw_at_most_once_and_accounted (env : Evm Digest) (calls : List Call) :
    let chain := run env deployed calls
    (∀ hash, chain.bridge.paid.count hash ≤ 1) ∧
    (∀ hash, chain.bridge.withdraws hash = true ↔ hash ∈ chain.bridge.paid) ∧
    (∀ more hash, chain.bridge.withdraws hash = true →
      (run env chain more).bridge.withdraws hash = true) ∧
    (chain.bridge.balance : Int) = chain.bridge.deposited - chain.bridge.withdrawn ∧
    (∀ call, chain.exec env call = none →
      (chain.step env call).bridge.balance = chain.bridge.balance ∧
        (chain.step env call).bridge.withdraws = chain.bridge.withdraws) := by
  have hbooks : Books [] (run env deployed calls) :=
    run_induction (books_kept env) books_deployed calls
  refine ⟨fun hash => ?_, fun hash => ?_, fun more hash h => ?_, ?_, fun call h => ?_⟩
  · have hdistinct := hbooks.distinct
    rw [List.map_nil, List.append_nil] at hdistinct
    exact List.nodup_iff_count_le_one.1 hdistinct hash
  · have hmarked := hbooks.marked hash
    rwa [List.map_nil, List.append_nil] at hmarked
  · exact run_induction (mark_kept env hash) h more
  · have hether := hbooks.ether
    rw [List.map_nil, List.sum_nil] at hether
    omega
  · rw [step, h]
    exact ⟨rfl, rfl⟩

/-! ## Independence of withdrawals -/

/-- A message of the Rust process, the log that it was made from, and the
signatures that are submitted with it. -/
structure SignedMessage (abi : Abi) where
  log : Log
  message : MessageToMainnet
  parsed : MessageToMainnet.fromLog abi log = .ok message
  vs : List UInt8
  rs : List H256
  ss : List H256
  rest : Memory

namespace SignedMessage

variable {abi : Abi}

/-- The transaction that submits the message, with a recipient that accepts
the ether and makes no calls. -/
def call (s : SignedMessage abi) : Call :=
  .withdraw s.vs s.rs s.ss s.message.toBytes s.rest [] true

/-- What the message asks for. -/
def withdrawal (s : SignedMessage abi) : Withdrawal :=
  ⟨s.message.recipient, s.message.value, s.message.sidenetTransactionHash⟩

/-- The signatures are those of at least `requiredSignatures` distinct current
validators, over the digest that the Rust process signs. -/
def Signed (env : Evm Digest) (validators : BridgeValidators) (s : SignedMessage abi) : Prop :=
  ∃ signers : List Address, validators.requiredSignatures ≤ signers.length ∧
    signers.Nodup ∧ (∀ a ∈ signers, validators.isValidator a = true) ∧
    ∀ j (h : j < signers.length),
      recoverAt env.ecrecover (ethDataHash env.keccak256 s.message.toBytes) s.vs s.rs s.ss j
        = some signers[j]

/-- The recipient accepts the ether.  The bridge itself refuses an empty
payment. -/
def Accepted (env : Evm Digest) (s : SignedMessage abi) : Prop :=
  s.message.recipient = env.bridge → 0 < s.message.value.toNat

end SignedMessage

/-- The contract hashes a message of the Rust process as the Rust process
does: the constant `"116"` is its length. -/
theorem hashMessage_toBytes (keccak256 : Bytes → Digest) (m : MessageToMainnet) :
    hashMessage keccak256 m.toBytes = ethDataHash keccak256 m.toBytes := by
  rw [hashMessage, ethDataHash, MessageToMainnet.length_toBytes]
  rfl

/-- A signed message passes the quorum check. -/
theorem hasEnoughValidSignatures_of_signed {env : Evm Digest} {abi : Abi}
    {s : SignedMessage abi} {validators : BridgeValidators}
    (hzero : validators.isValidator 0 = false) (hsigned : s.Signed env validators) :
    hasEnoughValidSignatures env.keccak256 env.ecrecover s.message.toBytes s.vs s.rs s.ss
      validators = some () := by
  obtain ⟨signers, hlen, hnodup, hvalid, hrecovered⟩ := hsigned
  rw [← hashMessage_toBytes] at hrecovered
  refine hasEnoughValidSignatures_of_signers _ _ hlen hrecovered hvalid ?_ hnodup
  rintro a ha rfl
  exact absurd (hvalid 0 ha) (by rw [hzero]; decide)

/-- The ether that leaves the contract with a withdrawal.  It stays when the contract
pays itself. -/
def spent (env : Evm Digest) (withdrawal : Withdrawal) : Nat :=
  if withdrawal.recipient = env.bridge then 0 else withdrawal.value.toNat

/-- What a submitted message changes when it is paid. -/
structure Paid {abi : Abi} (env : Evm Digest) (chain : HomeChain) (s : SignedMessage abi)
    (chain' : HomeChain) : Prop where
  validators : chain'.validators = chain.validators
  validatorContract : chain'.bridge.validatorContract = chain.bridge.validatorContract
  withdraws : chain'.bridge.withdraws
    = Function.update chain.bridge.withdraws s.message.sidenetTransactionHash true
  balance : chain'.bridge.balance + spent env s.withdrawal = chain.bridge.balance
  withdrawals : chain'.bridge.withdrawals = chain.bridge.withdrawals ++ [s.withdrawal]

theorem spent_le (env : Evm Digest) (withdrawal : Withdrawal) :
    spent env withdrawal ≤ withdrawal.value.toNat := by
  unfold spent
  split
  · exact Nat.zero_le _
  · exact Nat.le_refl _

/-- What the messages of a list need from the chain, apart from the marks. -/
structure Payable {abi : Abi} (env : Evm Digest) (chain : HomeChain)
    (messages : List (SignedMessage abi)) : Prop where
  linked : chain.bridge.validatorContract = env.validators
  zero : chain.validators.isValidator 0 = false
  signed : ∀ s ∈ messages, s.Signed env chain.validators
  accepted : ∀ s ∈ messages, s.Accepted env
  funded : (messages.map fun s => s.message.value.toNat).sum ≤ chain.bridge.balance

theorem opened_of_payable {env : Evm Digest} {abi : Abi} {chain : HomeChain}
    {s : SignedMessage abi} {messages : List (SignedMessage abi)}
    (h : Payable env chain (s :: messages))
    (hfresh : chain.bridge.withdraws s.message.sidenetTransactionHash = false) :
    Opened env chain s.vs s.rs s.ss s.message.toBytes s.rest
      { chain with
        bridge := (chain.bridge.mark s.message.sidenetTransactionHash).debit s.message.value }
      s.withdrawal where
  linked := h.linked
  quorum := hasEnoughValidSignatures_of_signed h.zero (h.signed s (by simp))
  read := by
    rw [MessageToMainnet.getRecipient_toBytes, MessageToMainnet.getValue_toBytes,
      MessageToMainnet.getTransactionHash_toBytes]
    rfl
  fresh := hfresh
  funded := by
    have := h.funded
    rw [List.map_cons, List.sum_cons] at this
    exact (Nat.le_add_right _ _).trans this
  result := rfl

/-- A payable message succeeds exactly when its transaction hash is not marked
yet. -/
theorem exec_payable {env : Evm Digest} {abi : Abi} {chain : HomeChain}
    {s : SignedMessage abi} {messages : List (SignedMessage abi)}
    (h : Payable env chain (s :: messages))
    (hfresh : chain.bridge.withdraws s.message.sidenetTransactionHash = false) :
    ∃ chain', chain.exec env s.call = some chain' ∧ Paid env chain s chain' := by
  have hopened := openWithdraw_eq_some.2 (opened_of_payable h hfresh)
  have hfunded : s.message.value.toNat ≤ chain.bridge.balance :=
    (opened_of_payable h hfresh).funded
  rw [SignedMessage.call, exec, hopened, Option.bind_eq_bind, Option.bind_some]
  dsimp only
  split
  · rename_i hself
    have hpositive : 0 < s.message.value.toNat := h.accepted s (by simp) hself
    have hfallback : ∀ bridge : HomeBridge,
        bridge.fallback env.bridge s.message.value []
          = some ({ bridge with balance := bridge.balance + s.message.value.toNat }.emit
            (.deposit env.bridge s.message.value)) := by
      intro bridge
      simp only [HomeBridge.fallback, require_bind_eq_some]
      exact ⟨hpositive, rfl, rfl⟩
    refine ⟨_, Option.bind_eq_some_iff.2 ⟨_, hfallback _, rfl⟩, rfl, rfl, rfl, ?_, ?_⟩
    · rw [spent, if_pos hself]
      exact Nat.sub_add_cancel hfunded
    · simp [closeWithdraw, HomeBridge.withdrawals, HomeBridge.emit, HomeBridge.mark,
        HomeBridge.debit, SignedMessage.withdrawal]
  · rename_i hself
    refine ⟨_, rfl, rfl, rfl, rfl, ?_, ?_⟩
    · rw [spent, if_neg hself]
      exact Nat.sub_add_cancel hfunded
    · simp [execAll, closeWithdraw, HomeBridge.withdrawals, HomeBridge.emit, HomeBridge.mark,
        HomeBridge.debit]

/-- A marked transaction hash is refused, whatever else the message says. -/
theorem exec_marked {env : Evm Digest} {abi : Abi} {chain : HomeChain} {s : SignedMessage abi}
    (hmarked : chain.bridge.withdraws s.message.sidenetTransactionHash = true) :
    chain.exec env s.call = none := by
  rw [Option.eq_none_iff_forall_ne_some]
  intro chain' h
  rw [SignedMessage.call, exec, Option.bind_eq_bind, Option.bind_eq_some_iff] at h
  obtain ⟨⟨opened, withdrawal⟩, hopened, -⟩ := h
  have hopened := openWithdraw_eq_some.1 hopened
  have hfresh := hopened.fresh
  rw [hopened.read, MessageToMainnet.getTransactionHash_toBytes, hmarked] at hfresh
  cases hfresh

/-- The messages are submitted one after the other and all of them succeed. -/
def withdrawAll {abi : Abi} (env : Evm Digest) (chain : HomeChain) :
    List (SignedMessage abi) → Option HomeChain
  | [] => some chain
  | s :: messages => do
    let chain ← chain.exec env s.call
    withdrawAll env chain messages

/-- Every message is paid, in the order of the list, and the ether of the payments
leaves the contract. -/
def AllPaid {abi : Abi} (env : Evm Digest) (chain : HomeChain)
    (messages : List (SignedMessage abi)) : Prop :=
  ∃ chain', withdrawAll env chain messages = some chain' ∧
    chain'.bridge.withdrawals
      = chain.bridge.withdrawals ++ messages.map SignedMessage.withdrawal ∧
    chain'.bridge.balance + (messages.map fun s => spent env s.withdrawal).sum
      = chain.bridge.balance

theorem allPaid_iff {env : Evm Digest} {abi : Abi} {messages : List (SignedMessage abi)}
    {chain : HomeChain} (h : Payable env chain messages) :
    AllPaid env chain messages ↔
      (messages.map fun s => s.message.sidenetTransactionHash).Nodup ∧
        ∀ s ∈ messages, chain.bridge.withdraws s.message.sidenetTransactionHash = false := by
  induction messages generalizing chain with
  | nil => simp [AllPaid, withdrawAll]
  | cons s messages ih =>
    cases hmark : chain.bridge.withdraws s.message.sidenetTransactionHash with
    | true =>
      refine iff_of_false ?_ ?_
      · rintro ⟨chain', hall, -⟩
        rw [withdrawAll, exec_marked hmark] at hall
        cases hall
      · intro hcond
        have := hcond.2 s (by simp)
        rw [hmark] at this
        cases this
    | false =>
      obtain ⟨mid, hexec, hpaid⟩ := exec_payable h hmark
      have hrest : Payable env mid messages := by
        refine ⟨hpaid.validatorContract.trans h.linked, ?_, ?_, ?_, ?_⟩
        · rw [hpaid.validators]
          exact h.zero
        · rw [hpaid.validators]
          exact fun t ht => h.signed t (List.mem_cons_of_mem _ ht)
        · exact fun t ht => h.accepted t (List.mem_cons_of_mem _ ht)
        · have hfunded := h.funded
          have hbalance := hpaid.balance
          have hspent := spent_le env s.withdrawal
          rw [List.map_cons, List.sum_cons] at hfunded
          exact Nat.le_of_add_le_add_left (hfunded.trans (by
            rw [← hbalance, Nat.add_comm]
            exact Nat.add_le_add_right hspent _))
      have hhead : AllPaid env chain (s :: messages) ↔ AllPaid env mid messages := by
        unfold AllPaid
        rw [withdrawAll, hexec, Option.bind_eq_bind, Option.bind_some, hpaid.withdrawals,
          ← hpaid.balance]
        refine exists_congr fun chain' => and_congr_right fun _ => and_congr ?_ ?_
        · simp only [List.map_cons, List.append_assoc, List.singleton_append]
        · rw [List.map_cons, List.sum_cons]
          omega
      have hmid : ∀ t : SignedMessage abi,
          mid.bridge.withdraws t.message.sidenetTransactionHash = false ↔
            s.message.sidenetTransactionHash ≠ t.message.sidenetTransactionHash ∧
              chain.bridge.withdraws t.message.sidenetTransactionHash = false := by
        intro t
        rw [hpaid.withdraws]
        by_cases heq : t.message.sidenetTransactionHash = s.message.sidenetTransactionHash
        · simp [heq]
        · rw [Function.update_of_ne heq]
          simp [Ne.symm heq]
      rw [hhead, ih hrest, List.map_cons, List.nodup_cons]
      simp only [hmid, List.mem_map, List.forall_mem_cons, hmark]
      constructor
      · rintro ⟨hnodup, hfresh⟩
        refine ⟨⟨?_, hnodup⟩, trivial, fun t ht => (hfresh t ht).2⟩
        rintro ⟨t, ht, heq⟩
        exact (hfresh t ht).1 heq.symm
      · rintro ⟨⟨hnew, hnodup⟩, -, hfresh⟩
        exact ⟨hnodup, fun t ht => ⟨fun heq => hnew ⟨t, ht, heq.symm⟩, hfresh t ht⟩⟩

/-- In a reachable state the zero address is not a validator. -/
theorem isValidator_zero_kept (env : Evm Digest) :
    KeptByCalls env (fun _ => True) fun _ chain => chain.validators.isValidator 0 = false where
  registry := fun hinv _ h => BridgeValidators.call_isValidator_zero h hinv
  initializeBridge := fun hinv h => by
    rw [HomeChain.initializeBridge, require_bind_eq_some] at h
    rw [← Option.some.inj h.2]
    exact hinv
  fallback := fun hinv _ => hinv
  openWithdraw := fun hinv _ h => by
    rw [h.result]
    exact hinv
  closeWithdraw := fun hinv => hinv

/-- Which signed messages can all be withdrawn.  After any setup, and for any
list of messages with enough signatures, enough ether and recipients that
accept it: in the order of the list every one is paid exactly when their
foreign transaction hashes are pairwise different and not marked yet. -/
theorem withdrawAll_iff_hashes_distinct (env : Evm Digest) (abi : Abi) (setup : List Call)
    (messages : List (SignedMessage abi))
    (hlinked : (run env deployed setup).bridge.validatorContract = env.validators)
    (hsigned : ∀ s ∈ messages, s.Signed env (run env deployed setup).validators)
    (haccepted : ∀ s ∈ messages, s.Accepted env)
    (hfunded : (messages.map fun s => s.message.value.toNat).sum
      ≤ (run env deployed setup).bridge.balance) :
    AllPaid env (run env deployed setup) messages ↔
      (messages.map fun s => s.message.sidenetTransactionHash).Nodup ∧
        ∀ s ∈ messages, (run env deployed setup).bridge.withdraws
          s.message.sidenetTransactionHash = false :=
  allPaid_iff ⟨hlinked, run_induction (isValidator_zero_kept env) rfl setup, hsigned,
    haccepted, hfunded⟩

/-- One validator, and ether for the withdrawals. -/
def oneValidator : List Call :=
  [ .registry 0xff (.initializeValidators 1 [0xa1] 0xff)
  , .initializeBridge 0xb2
  , .fallback 0xc1 100 [] ]

/-- The `Withdraw` log of an ether transfer to the foreign bridge. -/
def withdrawLog (recipient : Address) (value : U256) (transactionHash : H256) : Log where
  address := 0xd1
  topics := [Abi.solidity.withdrawTopic]
  data := [Abi.addressWord recipient, value, 0].flatMap wordBytes
  transactionHash := some transactionHash

theorem fromLog_withdrawLog (recipient : Address) (value : U256) (transactionHash : H256) :
    MessageToMainnet.fromLog Abi.solidity (withdrawLog recipient value transactionHash)
      = .ok ⟨recipient, value, transactionHash, 0⟩ := by
  rw [MessageToMainnet.fromLog, withdrawLog, Log.rawLog, Abi.roundTrips_solidity.parseWithdraw]

/-- The message of a `withdrawLog`, signed by the validator. -/
def signedWithdraw (recipient : Address) (value : U256) (transactionHash : H256) :
    SignedMessage Abi.solidity where
  log := withdrawLog recipient value transactionHash
  message := ⟨recipient, value, transactionHash, 0⟩
  parsed := fromLog_withdrawLog recipient value transactionHash
  vs := [27]
  rs := [0xa1]
  ss := [0]
  rest := fun _ => 0

theorem signed_signedWithdraw (recipient : Address) (value : U256) (transactionHash : H256) :
    (signedWithdraw recipient value transactionHash).Signed transparentEvm
      (run transparentEvm deployed oneValidator).validators := by
  refine ⟨[0xa1], by decide +kernel, by simp, List.forall_mem_singleton.2 (by decide +kernel),
    fun j hj => ?_⟩
  obtain rfl : j = 0 := Nat.lt_one_iff.1 hj
  simp [recoverAt, transparentEvm, signedWithdraw]

theorem withdrawAll_iff_hashes_distinct_two :
    AllPaid transparentEvm (run transparentEvm deployed oneValidator)
      [signedWithdraw 0xc2 5 7, signedWithdraw 0xc3 6 8] :=
  (withdrawAll_iff_hashes_distinct transparentEvm Abi.solidity oneValidator
    [signedWithdraw 0xc2 5 7, signedWithdraw 0xc3 6 8] (by decide +kernel)
    (by simp [signed_signedWithdraw]) (by simp [SignedMessage.Accepted, signedWithdraw])
    (by decide +kernel)).2 ⟨by decide +kernel, by decide +kernel⟩

/-- Two transfers in one foreign transaction give two messages that differ, are
both signed and can both be paid, and the second one is refused. -/
theorem second_withdraw_of_transaction_refused :
    let chain := run transparentEvm deployed oneValidator
    let messages := [signedWithdraw 0xc2 5 7, signedWithdraw 0xc3 6 7]
    (messages.map SignedMessage.message).Nodup ∧
    (∀ s ∈ messages, s.Signed transparentEvm chain.validators) ∧
    (∀ s ∈ messages, s.Accepted transparentEvm) ∧
    (messages.map fun s => s.message.value.toNat).sum ≤ chain.bridge.balance ∧
    withdrawAll transparentEvm chain messages = none ∧
    ¬ AllPaid transparentEvm chain messages := by
  have hnone : withdrawAll transparentEvm (run transparentEvm deployed oneValidator)
      [signedWithdraw 0xc2 5 7, signedWithdraw 0xc3 6 7] = none := by
    obtain ⟨chain, hexec, hpaid⟩ := @exec_payable _ transparentEvm _
      (run transparentEvm deployed oneValidator) (signedWithdraw 0xc2 5 7)
      [signedWithdraw 0xc3 6 7]
      ⟨by decide +kernel, by decide +kernel, by simp [signed_signedWithdraw],
        by simp [SignedMessage.Accepted, signedWithdraw], by decide +kernel⟩
      (by decide +kernel)
    have hmarked : chain.bridge.withdraws 7 = true := by
      rw [hpaid.withdraws]
      exact Function.update_self ..
    have hrefused : chain.exec transparentEvm (signedWithdraw 0xc3 6 7).call = none :=
      exec_marked hmarked
    rw [withdrawAll, hexec, Option.bind_eq_bind, Option.bind_some, withdrawAll, hrefused]
    rfl
  refine ⟨by decide +kernel, by simp [signed_signedWithdraw],
    by simp [SignedMessage.Accepted, signedWithdraw], by decide +kernel, hnone, ?_⟩
  rintro ⟨chain, hall, -⟩
  rw [hnone] at hall
  cases hall

end HomeChain

end PoaBridge.Truffle
